import Mathlib.Logic.Relation
import Nut.Common.ParseConfReuse

set_option autoImplicit false

namespace Nut

def quoteCloses : CString -> Bool
  | [] => false
  | 92 :: _ :: rest => quoteCloses rest
  | b :: rest => b == 34 || quoteCloses rest

def bareEnds : CString -> Bool
  | [] => false
  | 92 :: _ :: rest => bareEnds rest
  | b :: rest => isspace (charToInt b) || b == 35 || b == 61 || bareEnds rest

def wordEnds : CString -> Bool
  | [] => false
  | b :: rest =>
    if b = 35 then false
    else if b = 61 then true
    else if b = 34 then quoteCloses rest
    else bareEnds (b :: rest)

def firstWordEnds (text : CString) : Bool :=
  wordEnds (text.dropWhile fun b => isspace (charToInt b))

section Committed

variable {ctx : PconfCtx}

theorem addchar_arglist (ctx : PconfCtx) (ch : Int) : (addchar ctx ch).arglist = ctx.arglist := by
  unfold addchar
  split_ifs <;> rfl

theorem endofword_committed (ctx : PconfCtx) : (endofword ctx).arglist ≠ [] := by
  unfold endofword
  split
  next full =>
      intro none_
      have none_ : ctx.arglist = [] := none_
      rw [none_] at full
      exact full.1 (Nat.le_zero.mp full.2)
  next => simp

theorem run_committed (committed : ctx.arglist ≠ []) (text : CString) : (runChars ctx text).arglist ≠ [] := by
  obtain ⟨more, grown⟩ := (grows_runChars ctx text).args
  rw [<- grown]
  exact List.append_ne_nil_of_left_ne_nil committed more

theorem run_ended (ctx : PconfCtx) (state : PconfState) (text : CString) :
    (runChars (enter (endofword ctx, state)) text).arglist ≠ [] := by
  have committed : (enter (endofword ctx, state)).arglist ≠ [] := endofword_committed ctx
  exact run_committed committed text

-- A backslash that is last in the text has nothing to take.
theorem nil_of_noPair {rest : CString} (noPair : ∀ b more, rest = b :: more -> False) : rest = [] := by
  cases rest with
  | nil => rfl
  | cons b more => exact absurd rfl (noPair b more)

theorem run_quoteCloses (quoted : ctx.state = .quotecollect) (none_ : ctx.arglist = []) {text : CString}
    (oneLine : ∀ b ∈ text, b ≠ 10) : (runChars ctx text).arglist ≠ [] ↔ quoteCloses text = true := by
  fun_induction quoteCloses text generalizing ctx with
  | case1 => simp [none_]
  | case2 b rest ih =>
    have literal : parseChar (enter (ctx, .qcLiteral)) (charToInt b) =
        enter (addchar (enter (ctx, .qcLiteral)) (charToInt b), .quotecollect) := by
      simp [parseChar, enter, qcLiteral, oneLine b (by simp)]
    rw [runChars_cons, parseChar_quote quoted, runChars_cons]
    change (runChars (parseChar (enter (ctx, .qcLiteral)) (charToInt b)) rest).arglist ≠ [] ↔ _
    rw [literal]
    exact ih rfl ((addchar_arglist _ _).trans none_) fun c member => oneLine c (by simp [member])
  | case3 b rest notPair ih =>
    rw [runChars_cons]
    by_cases quote : b = 34
    · subst quote
      rw [parseChar_quote quoted]
      exact iff_of_true (run_ended ctx .findwordstart rest) (by simp)
    · by_cases escape : b = 92
      · subst escape
        obtain rfl : rest = [] := nil_of_noPair fun c more => notPair c more rfl
        rw [parseChar_quote quoted, runChars_nil]
        exact iff_of_false (fun some_ => some_ none_) (by decide)
      · rw [parseChar_quotePlain quoted quote escape, beq_eq_false_iff_ne.mpr quote, Bool.false_or]
        exact ih rfl ((addchar_arglist _ _).trans none_) fun c member => oneLine c (by simp [member])

theorem run_bareEnds (inside : ctx.state = .collect) (none_ : ctx.arglist = []) {text : CString}
    (oneLine : ∀ b ∈ text, b ≠ 10) : (runChars ctx text).arglist ≠ [] ↔ bareEnds text = true := by
  fun_induction bareEnds text generalizing ctx with
  | case1 => simp [none_]
  | case2 b rest ih =>
    have literal : parseChar (enter (ctx, .collectliteral)) (charToInt b) =
        enter (addchar (enter (ctx, .collectliteral)) (charToInt b), .collect) := by
      simp [parseChar, enter, collectliteral, oneLine b (by simp)]
    rw [runChars_cons, parseChar_inside inside, runChars_cons]
    change (runChars (parseChar (enter (ctx, .collectliteral)) (charToInt b)) rest).arglist ≠ [] ↔ _
    rw [literal]
    exact ih rfl ((addchar_arglist _ _).trans none_) fun c member => oneLine c (by simp [member])
  | case3 b rest notPair ih =>
    have newline := oneLine b List.mem_cons_self
    rw [runChars_cons]
    by_cases hash : b = 35
    · subst hash
      rw [parseChar_inside inside]
      exact iff_of_true (run_ended ctx .findeol rest) (by simp)
    by_cases space : isspace (charToInt b) = true
    · have ended : parseChar ctx (charToInt b) = enter (endofword ctx, .findwordstart) := by
        simp [parseChar, inside, collect, hash, newline, space]
      rw [ended]
      simpa [space] using run_ended ctx .findwordstart rest
    have notSpace : isspace (charToInt b) = false := by simpa using space
    by_cases equals : b = 61
    · subst equals
      rw [parseChar_inside inside]
      exact iff_of_true (run_ended (addchar (endofword ctx) (charToInt 61)) .findwordstart rest) (by simp)
    by_cases escape : b = 92
    · subst escape
      obtain rfl : rest = [] := nil_of_noPair fun c more => notPair c more rfl
      rw [parseChar_inside inside, runChars_nil]
      exact iff_of_false (fun some_ => some_ none_) (by decide)
    · rw [parseChar_insidePlain inside hash newline notSpace equals escape]
      simp only [notSpace, beq_eq_false_iff_ne.mpr hash, beq_eq_false_iff_ne.mpr equals, Bool.false_or]
      exact ih rfl ((addchar_arglist _ _).trans none_) fun c member => oneLine c (by simp [member])

theorem run_firstWordEnds (start : ctx.state = .findwordstart) (none_ : ctx.arglist = []) {text : CString}
    (oneLine : ∀ b ∈ text, b ≠ 10) : (runChars ctx text).arglist ≠ [] ↔ firstWordEnds text = true := by
  induction text generalizing ctx with
  | nil => simp [none_, firstWordEnds, wordEnds]
  | cons b rest ih =>
    have newline := oneLine b List.mem_cons_self
    have later : ∀ c ∈ rest, c ≠ 10 := fun c member => oneLine c (List.mem_cons_of_mem b member)
    by_cases space : isspace (charToInt b) = true
    · have hash : b ≠ 35 := by
        rintro rfl
        cases space
      have skipped : firstWordEnds (b :: rest) = firstWordEnds rest := by
        simp only [firstWordEnds, List.dropWhile_cons, space, if_true]
      rw [runChars_cons, parseChar_blank start newline hash space, skipped]
      exact ih start none_ later
    have notSpace : isspace (charToInt b) = false := by simpa using space
    have here : firstWordEnds (b :: rest) = wordEnds (b :: rest) := by
      simp [firstWordEnds, notSpace]
    rw [here]
    by_cases hash : b = 35
    · subst hash
      rw [runChars_cons, parseChar_between start, findeol_run rfl later]
      exact iff_of_false (fun some_ => some_ none_) (by simp [wordEnds])
    by_cases equals : b = 61
    · subst equals
      rw [runChars_cons, parseChar_between start]
      exact iff_of_true (run_ended (addchar ctx (charToInt 61)) .findwordstart rest) (by simp [wordEnds])
    by_cases quote : b = 34
    · subst quote
      rw [runChars_cons, parseChar_between start]
      have quoted : (enter (ctx, .quotecollect)).state = .quotecollect := rfl
      exact run_quoteCloses quoted none_ later
    · have ends : wordEnds (b :: rest) = bareEnds (b :: rest) := by
        simp [wordEnds, hash, equals, quote]
      have collecting : ({ ctx with state := .collect } : PconfCtx).state = .collect := rfl
      rw [ends, runChars_cons, <- parseChar_begins start newline hash notSpace quote equals, <- runChars_cons]
      exact run_bareEnds collecting none_ oneLine

end Committed

theorem parseUntilDone_oneLine {ctx : PconfCtx} (running : lineDone ctx = false) {text : CString}
    (oneLine : ∀ b ∈ text, b ≠ 10) : parseUntilDone charToInt ctx text = (runChars ctx text, none) := by
  induction text generalizing ctx with
  | nil => rfl
  | cons b rest ih =>
    have still := parseChar_not_done running (oneLine b List.mem_cons_self)
    simp only [parseUntilDone, still, Bool.false_eq_true, if_false, runChars_cons]
    exact ih still fun c member => oneLine c (List.mem_cons_of_mem b member)

theorem pconfLine_oneLine {argLimit wordlenLimit : Nat} {text : CString} (noNul : 0 ∉ text) (oneLine : ∀ b ∈ text, b ≠ 10) :
    pconfLine (pconfInitWith argLimit wordlenLimit) text =
      if (runChars (pconfInitWith argLimit wordlenLimit) text).wordbuf ≠ [] then
        endofword (runChars (pconfInitWith argLimit wordlenLimit) text)
      else runChars (pconfInitWith argLimit wordlenLimit) text := by
  have running : lineDone (pconfInitWith argLimit wordlenLimit) = false := rfl
  have reset : startLine (pconfInitWith argLimit wordlenLimit) = pconfInitWith argLimit wordlenLimit := rfl
  rw [pconfLine_text _ noNul, reset, parseUntilDone_oneLine running oneLine]

theorem BareAs.nonempty {written meaning : CString} (bare : BareAs written meaning) (nonempty : written ≠ []) :
    meaning ≠ [] := by
  cases bare with
  | nil => exact absurd rfl nonempty
  | raw | escaped => exact List.cons_ne_nil _ _

theorem clip_ne_nil {wordlenLimit : Nat} {word : CString} (nonempty : word ≠ []) : clip wordlenLimit word ≠ [] := by
  rw [clip]
  split
  next => exact nonempty
  next limited => simpa [List.take_eq_nil_iff, nonempty] using limited

theorem run_token_end (args : List CString) (argLimit wordlenLimit : Nat) {written meaning : CString}
    (token : Token written meaning) :
    let ctx := runChars ⟨.findwordstart, args, [], argLimit, wordlenLimit⟩ written
    (if ctx.wordbuf ≠ [] then endofword ctx else ctx).arglist = addArg argLimit args (clip wordlenLimit meaning) := by
  cases token with
  | bare rest nonempty noQuote =>
    have pending := @clip_ne_nil wordlenLimit meaning (rest.nonempty nonempty)
    simp [run_bareWord args argLimit wordlenLimit rest nonempty noQuote, pending, endofword_eq]
  | quoted rest => rw [run_quotedWord args argLimit wordlenLimit rest]; simp
  | equals => simp [findwordstart_equals]

theorem pconfLine_words (argLimit wordlenLimit : Nat) {text : CString} {words : List CString}
    (line : LineOf text words) :
    (pconfLine (pconfInitWith argLimit wordlenLimit) text).arglist = addArgs argLimit wordlenLimit [] words := by
  have ended (args : List CString) :
      let ctx := runChars ⟨.findwordstart, args, [], argLimit, wordlenLimit⟩ text
      (if ctx.wordbuf ≠ [] then endofword ctx else ctx).arglist = addArgs argLimit wordlenLimit args words := by
    induction line generalizing args with
    | last token => exact run_token_end args argLimit wordlenLimit token
    | @more written meaning text words token rest ih =>
      have split : written ++ 32 :: text = (written ++ [32]) ++ text := by simp
      rw [split, runChars_append, run_token_space args argLimit wordlenLimit token]
      exact ih _
  rw [pconfLine_oneLine (isText_noNul line.isText) fun b member => isText_ne_newline (line.isText b member)]
  exact ended []

def YieldsLine (before after : PconfCtx × CString) : Prop :=
  pconfFileNext before.1 before.2 = (after.1, after.2, 1)

structure Refreshed (argLimit wordlenLimit : Nat) (ctx : PconfCtx) : Prop where
  within : WithinLimits argLimit wordlenLimit ctx
  empty : ctx.wordbuf = []

theorem refreshed_tiedOff {argLimit wordlenLimit : Nat} {ctx : PconfCtx}
    (within : WithinLimits argLimit wordlenLimit ctx) :
    Refreshed argLimit wordlenLimit (if ctx.wordbuf ≠ [] then endofword ctx else ctx) := by
  split
  next => exact ⟨within_endofword within, endofword_empty ctx⟩
  next none_ => exact ⟨within, by simpa using none_⟩

theorem refreshed_next {argLimit wordlenLimit : Nat} {before after : PconfCtx × CString}
    (refreshed : Refreshed argLimit wordlenLimit before.1) (next : YieldsLine before after) :
    Refreshed argLimit wordlenLimit after.1 := by
  have emptied := parseUntilDone_keeps emptied_parseChar fgetcToInt (emptied_startLine refreshed.empty) before.2
  have within := parseUntilDone_keeps within_parseChar fgetcToInt (within_startLine refreshed.within) before.2
  unfold YieldsLine pconfFileNext at next
  split at next
  next ctx rest parsed =>
    rw [parsed] at emptied within
    cases next
    exact ⟨within, emptied_done emptied (parseUntilDone_done parsed)⟩
  next ctx parsed =>
    rw [parsed] at within
    split at next
    next =>
      obtain ⟨same, _⟩ := Prod.mk.inj next
      rw [<- same]
      exact refreshed_tiedOff within
    next => simp at next

theorem refreshed_lines {argLimit wordlenLimit : Nat} {file rest : CString} {ctx : PconfCtx}
    (lines : Relation.ReflTransGen YieldsLine (pconfInitWith argLimit wordlenLimit, file) (ctx, rest)) :
    Refreshed argLimit wordlenLimit ctx := by
  have start : Refreshed argLimit wordlenLimit (pconfInitWith argLimit wordlenLimit) :=
    ⟨within_init argLimit wordlenLimit, rfl⟩
  suffices all : ∀ after, Relation.ReflTransGen YieldsLine (pconfInitWith argLimit wordlenLimit, file) after ->
      Refreshed argLimit wordlenLimit after.1 from all (ctx, rest) lines
  intro after reached
  induction reached with
  | refl => exact start
  | tail _ next ih => exact refreshed_next ih next

def ReadAtEof (argLimit wordlenLimit : Nat) (ctx : PconfCtx) (text : CString) : Prop :=
  ∃ after, pconfFileNext ctx text = (after, [], 1) ∧
    after.arglist = (pconfLine (pconfInitWith argLimit wordlenLimit) text).arglist ∧
    (pconfFileNext after []).2.2 = 0

-- At the end of the file only lines of which a word is complete are read.
theorem readAtEof_iff {argLimit wordlenLimit : Nat} {file text : CString} {ctx : PconfCtx}
    (lines : Relation.ReflTransGen YieldsLine (pconfInitWith argLimit wordlenLimit, file) (ctx, text))
    (noNul : 0 ∉ text) (oneLine : ∀ b ∈ text, b ≠ 10) :
    ReadAtEof argLimit wordlenLimit ctx text ↔ firstWordEnds text = true := by
  have refreshed := refreshed_lines lines
  have reset : startLine ctx = pconfInitWith argLimit wordlenLimit := by
    simp [startLine, pconfInitWith, refreshed.empty, refreshed.within.args, refreshed.within.length]
  have running : lineDone (pconfInitWith argLimit wordlenLimit) = false := rfl
  have parsed := parseUntilDone_oneLine running oneLine
  have byFile : pconfFileNext ctx text =
      if (runChars (pconfInitWith argLimit wordlenLimit) text).arglist ≠ [] then
        (pconfLine (pconfInitWith argLimit wordlenLimit) text, [], 1)
      else (runChars (pconfInitWith argLimit wordlenLimit) text, [], 0) := by
    rw [pconfFileNext, reset, parseUntilDone_fgetc, parsed, pconfLine_oneLine noNul oneLine]
  have start : (pconfInitWith argLimit wordlenLimit).state = .findwordstart := rfl
  rw [<- run_firstWordEnds start rfl oneLine]
  constructor
  · rintro ⟨after, call, _⟩ none_
    rw [byFile, if_neg (by simpa using none_)] at call
    cases call
  · intro committed
    exact ⟨_, by rw [byFile, if_pos committed], rfl, rfl⟩

theorem readAtEof_two : ReadAtEof 32 512 (pconfInitWith 32 512) (cstr "a b") ↔ firstWordEnds (cstr "a b") = true :=
  readAtEof_iff Relation.ReflTransGen.refl (by decide +kernel) (by decide +kernel)

theorem word_lost : (pconfLine (pconfInitWith 32 512) (cstr "a")).arglist = [cstr "a"] ∧
    ¬ ReadAtEof 32 512 (pconfInitWith 32 512) (cstr "a") := by
  refine ⟨by decide, ?_⟩
  rintro ⟨after, call, _⟩
  have nothing : (pconfFileNext (pconfInitWith 32 512) (cstr "a")).2.2 = 0 := by decide
  rw [call] at nothing
  cases nothing

end Nut
