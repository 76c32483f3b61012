import Nut.Common.ParseConfEof
import Nut.Common.ParseConfFile

set_option autoImplicit false

namespace Nut

def linesText (lines : List CString) : CString :=
  lines.flatMap (· ++ [10])

theorem linesText_cons (line : CString) (lines : List CString) : linesText (line :: lines) = line ++ 10 :: linesText lines := by
  simp [linesText]

theorem linesText_append (lines more : List CString) : linesText (lines ++ more) = linesText lines ++ linesText more := by
  simp [linesText]

section Lines

variable {ctx : PconfCtx} {line : CString}

theorem fileLines_acceptable {ctx : PconfCtx} {argLimit wordlenLimit : Nat} (within : WithinLimits argLimit wordlenLimit ctx)
    (file : CString) : ∀ line ∈ fileLines ctx file, ∀ word ∈ line, Acceptable wordlenLimit word := by
  induction file generalizing ctx with
  | nil =>
    intro line member
    unfold fileLines at member
    split at member
    · rw [List.mem_singleton.mp member]
      split
      · exact (within_endofword within).words
      · exact within.words
    · cases member
  | cons b rest ih =>
    have next := within_parseChar ctx (fgetcToInt b) within
    intro line member
    unfold fileLines at member
    dsimp only at member
    split at member
    · rcases List.mem_cons.mp member with first | later
      · rw [first]
        exact next.words
      · exact ih (within_startLine next) line later
    · exact ih next line member

theorem fileLines_line (running : lineDone ctx = false) (oneLine : ∀ b ∈ line, b ≠ 10) (rest : CString) :
    fileLines ctx (line ++ 10 :: rest) =
      if lineDone (runChars ctx (line ++ [10])) then
        (runChars ctx (line ++ [10])).arglist :: fileLines (startLine (runChars ctx (line ++ [10]))) rest
      else fileLines (runChars ctx (line ++ [10])) rest := by
  induction line generalizing ctx with
  | nil =>
    rw [List.nil_append, fileLines, parseChar_fgetc]
    rfl
  | cons b line ih =>
    have still := parseChar_not_done running (oneLine b List.mem_cons_self)
    rw [List.cons_append, fileLines, parseChar_fgetc]
    rw [still, if_neg Bool.false_ne_true]
    exact ih still fun c member => oneLine c (List.mem_cons_of_mem b member)

structure Underway (argLimit wordlenLimit : Nat) (ctx : PconfCtx) : Prop where
  emptied : Emptied ctx
  args : ctx.argLimit = argLimit
  length : ctx.wordlenLimit = wordlenLimit

variable {argLimit wordlenLimit : Nat}

theorem underway_init : Underway argLimit wordlenLimit (pconfInitWith argLimit wordlenLimit) :=
  ⟨⟨by simp [pconfInitWith], fun _ => rfl⟩, rfl, rfl⟩

theorem Underway.run (underway : Underway argLimit wordlenLimit ctx) (text : CString) :
    Underway argLimit wordlenLimit (runChars ctx text) := by
  have grows := grows_runChars ctx text
  refine ⟨?_, grows.argLimit.trans underway.args, grows.wordlenLimit.trans underway.length⟩
  have emptied := underway.emptied
  clear grows underway
  induction text generalizing ctx with
  | nil => exact emptied
  | cons b rest ih => exact ih (emptied_parseChar ctx (charToInt b) emptied)

theorem Underway.fresh (underway : Underway argLimit wordlenLimit ctx) (done : lineDone ctx = true) :
    startLine ctx = pconfInitWith argLimit wordlenLimit := by
  have empty := emptied_done underway.emptied done
  simp [startLine, pconfInitWith, empty, underway.args, underway.length]

def WholeLine (argLimit wordlenLimit : Nat) (line : CString) (words : List CString) : Prop :=
  (∀ b ∈ line, b ≠ 10) ∧
    runChars (pconfInitWith argLimit wordlenLimit) (line ++ [10]) = ⟨.endofline, words, [], argLimit, wordlenLimit⟩

theorem fileLines_whole {words : List CString} (whole : WholeLine argLimit wordlenLimit line words) (rest : CString) :
    fileLines (pconfInitWith argLimit wordlenLimit) (line ++ 10 :: rest) =
      words :: fileLines (pconfInitWith argLimit wordlenLimit) rest := by
  have done : lineDone ⟨.endofline, words, [], argLimit, wordlenLimit⟩ = true := rfl
  rw [fileLines_line rfl whole.1, whole.2, if_pos done]
  rfl

theorem fileLines_linesText {lines : List CString} {words : List (List CString)}
    (whole : List.Forall₂ (WholeLine argLimit wordlenLimit) lines words) (more : List CString) :
    fileLines (pconfInitWith argLimit wordlenLimit) (linesText (lines ++ more)) =
      words ++ fileLines (pconfInitWith argLimit wordlenLimit) (linesText more) := by
  induction whole with
  | nil => rfl
  | cons whole _ ih => rw [List.cons_append, linesText_cons, fileLines_whole whole, ih, List.cons_append]

theorem wholeLine_of {words : List CString} (line_ : LineOf line words) (few : words.length ≤ argLimit)
    (short : ∀ word ∈ words, word.length ≤ wordlenLimit) : WholeLine argLimit wordlenLimit line words := by
  refine ⟨fun b member => isText_ne_newline (line_.isText b member), ?_⟩
  rw [pconfInitWith, run_line [] argLimit wordlenLimit line_, addArgs_fits (by simpa using few) short, List.nil_append]

theorem parseChar_quoted (quoted : ctx.state = .quotecollect) {b : UInt8} (plain : b ≠ 34 ∧ b ≠ 92) :
    (parseChar ctx (charToInt b)).state = .quotecollect ∧ (parseChar ctx (charToInt b)).arglist = ctx.arglist := by
  simp [parseChar, quoted, quotecollect, plain.1, plain.2, enter, addchar_arglist]

theorem run_stillQuoted (quoted : ctx.state = .quotecollect) {text : CString} (plain : ∀ b ∈ text, b ≠ 34 ∧ b ≠ 92) :
    (runChars ctx text).state = .quotecollect ∧ (runChars ctx text).arglist = ctx.arglist := by
  induction text generalizing ctx with
  | nil => exact ⟨quoted, rfl⟩
  | cons b text ih =>
    obtain ⟨still, same⟩ := parseChar_quoted quoted (plain b List.mem_cons_self)
    rw [runChars_cons, <- same]
    exact ih still fun c member => plain c (List.mem_cons_of_mem b member)

theorem fileLines_stillQuoted (quoted : ctx.state = .quotecollect) {text : CString} (plain : ∀ b ∈ text, b ≠ 34 ∧ b ≠ 92)
    (more : CString) : fileLines ctx (text ++ more) = fileLines (runChars ctx text) more := by
  induction text generalizing ctx with
  | nil => rfl
  | cons b text ih =>
    have still := (parseChar_quoted quoted (plain b List.mem_cons_self)).1
    rw [List.cons_append, fileLines, parseChar_fgetc, lineDone, still, if_neg (by decide), runChars_cons]
    exact ih still fun c member => plain c (List.mem_cons_of_mem b member)

theorem fileLines_open (quoted : ctx.state = .quotecollect) (started : ctx.arglist ≠ []) {text : CString}
    (closedBy : ∀ b ∈ text, b ≠ 34 ∧ b ≠ 92) : ∃ words, fileLines ctx text = [words] ∧ ctx.arglist <+: words := by
  have same := (run_stillQuoted quoted closedBy).2
  have through := fileLines_stillQuoted quoted closedBy []
  rw [List.append_nil] at through
  rw [through, fileLines, if_pos (by rw [same]; exact started), <- same]
  refine ⟨_, rfl, ?_⟩
  split
  · exact (grows_endofword _).args
  · exact List.prefix_refl _

end Lines

section Begun

variable {ctx ctx' : PconfCtx} {words : List CString}

structure GoesOn (ctx : PconfCtx) (words : List CString) : Prop where
  args : ctx.arglist <+: words
  next : ctx.arglist.length < ctx.argLimit -> ∀ word, words[ctx.arglist.length]? = some word -> ctx.wordbuf <+: word

theorem getElem?_begins {args : List CString} {word : CString} (begins : args ++ [word] <+: words) :
    words[args.length]? = some word := by
  obtain ⟨rest, rfl⟩ := begins
  simp

theorem GoesOn.before {added : Nat} (grows : Grows added ctx ctx') (goesOn : GoesOn ctx' words) : GoesOn ctx words := by
  refine ⟨grows.args.trans goesOn.args, fun room word place => ?_⟩
  rcases grows.next room with ⟨same, begun⟩ | ⟨more, ended⟩
  · exact begun.trans (goesOn.next (by rw [same, grows.argLimit]; exact room) word (by rw [same]; exact place))
  · rw [getElem?_begins (ended.trans goesOn.args), Option.some.injEq] at place
    rw [<- place]
    exact List.prefix_append _ _

def LineIs (ctx : PconfCtx) (words : List CString) : Prop :=
  if lineDone ctx then words = ctx.arglist else GoesOn ctx words

theorem goesOn_self (ctx : PconfCtx) : GoesOn ctx ctx.arglist := by
  refine ⟨List.prefix_refl _, fun _ word place => ?_⟩
  rw [List.getElem?_eq_none (Nat.le_refl _)] at place
  cases place

theorem goesOn_end : GoesOn ctx (if ctx.wordbuf ≠ [] then endofword ctx else ctx).arglist := by
  split
  · exact GoesOn.before (grows_endofword ctx) (goesOn_self _)
  · exact goesOn_self ctx

theorem LineIs.goesOn (lineIs : LineIs ctx words) : GoesOn ctx words := by
  unfold LineIs at lineIs
  split at lineIs
  · rw [lineIs]
    exact goesOn_self ctx
  · exact lineIs

inductive Begun (argLimit wordlenLimit : Nat) : List CString -> List (List CString) -> Prop where
  | nil : Begun argLimit wordlenLimit [] []
  | read {line : CString} {lines : List CString} {words : List CString} {rest : List (List CString)}
      (lineIs : LineIs (runChars (pconfInitWith argLimit wordlenLimit) (line ++ [10])) words)
      (later : Begun argLimit wordlenLimit lines rest) : Begun argLimit wordlenLimit (line :: lines) (words :: rest)
  | within {line : CString} {lines : List CString} {rest : List (List CString)}
      (later : Begun argLimit wordlenLimit lines rest) : Begun argLimit wordlenLimit (line :: lines) rest

variable {argLimit wordlenLimit : Nat} {lines : List CString} {rest : List (List CString)}

theorem begun_nothing (lines : List CString) : Begun argLimit wordlenLimit lines [] := by
  induction lines with
  | nil => exact .nil
  | cons line lines ih => exact .within ih

theorem Begun.ofTail (begun : Begun argLimit wordlenLimit lines.tail rest) : Begun argLimit wordlenLimit lines rest := by
  cases lines with
  | nil => exact begun
  | cons line lines => exact .within begun

theorem Begun.split {more : List CString} (begun : Begun argLimit wordlenLimit (lines ++ more) rest) :
    ∃ first second, rest = first ++ second ∧ Begun argLimit wordlenLimit lines first ∧
      Begun argLimit wordlenLimit more second := by
  induction lines generalizing rest with
  | nil => exact ⟨[], rest, rfl, .nil, begun⟩
  | cons line lines ih =>
    cases begun with
    | read lineIs later =>
      obtain ⟨first, second, rfl, front, back⟩ := ih later
      exact ⟨_ :: first, second, rfl, .read lineIs front, back⟩
    | within later =>
      obtain ⟨first, second, rfl, front, back⟩ := ih later
      exact ⟨first, second, rfl, .within front, back⟩

def ReadsOn (argLimit wordlenLimit : Nat) (ctx : PconfCtx) (lines : List CString) : Prop :=
  (∃ words rest, fileLines ctx (linesText lines) = words :: rest ∧ GoesOn ctx words ∧
      Begun argLimit wordlenLimit lines.tail rest) ∨
    ctx.arglist = [] ∧ fileLines ctx (linesText lines) = []

theorem begun_both (oneLine : ∀ line ∈ lines, ∀ b ∈ line, b ≠ 10) :
    Begun argLimit wordlenLimit lines (fileLines (pconfInitWith argLimit wordlenLimit) (linesText lines)) ∧
      ∀ ctx, Underway argLimit wordlenLimit ctx -> lineDone ctx = false -> ReadsOn argLimit wordlenLimit ctx lines := by
  induction lines with
  | nil =>
    refine ⟨.nil, fun ctx _ _ => ?_⟩
    by_cases started : ctx.arglist = []
    · exact .inr ⟨started, by rw [linesText, List.flatMap_nil, fileLines, if_neg (not_not_intro started)]⟩
    · refine .inl ⟨_, [], ?_, goesOn_end, .nil⟩
      rw [linesText, List.flatMap_nil, fileLines, if_pos started]
  | cons line lines ih =>
    have here := oneLine line List.mem_cons_self
    obtain ⟨fresh, onward⟩ := ih fun other member => oneLine other (List.mem_cons_of_mem line member)
    constructor
    · have underway := (@underway_init argLimit wordlenLimit).run (line ++ [10])
      rw [linesText_cons, fileLines_line rfl here]
      split
      next done =>
        rw [underway.fresh done]
        exact .read (by rw [LineIs, if_pos done]) fresh
      next running =>
        rcases onward _ underway (by simpa using running) with ⟨words, rest, same, goesOn, later⟩ | ⟨_, nothing⟩
        · rw [same]
          exact .read (by rw [LineIs, if_neg running]; exact goesOn) later.ofTail
        · rw [nothing]
          exact begun_nothing _
    · intro ctx underway running
      have grows := grows_runChars ctx (line ++ [10])
      have next := underway.run (line ++ [10])
      unfold ReadsOn
      rw [linesText_cons, fileLines_line running here]
      split
      next done =>
        rw [next.fresh done]
        exact .inl ⟨_, _, rfl, GoesOn.before grows (goesOn_self _), fresh⟩
      next running =>
        rcases onward _ next (by simpa using running) with ⟨words, rest, same, goesOn, later⟩ | ⟨none_, nothing⟩
        · exact .inl ⟨words, rest, same, goesOn.before grows, later.ofTail⟩
        · exact .inr ⟨List.prefix_nil.mp (none_ ▸ grows.args), nothing⟩

end Begun

end Nut
