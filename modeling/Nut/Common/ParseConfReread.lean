import Nut.Common.ParseConfGrowth

set_option autoImplicit false

namespace Nut

theorem same_next {args all : List CString} {a b : CString} (first : args ++ [a] <+: all)
    (second : args ++ [b] <+: all) : a = b := by
  obtain ⟨rest, rfl⟩ := first
  obtain ⟨rest', same⟩ := second
  simp only [List.append_assoc, List.append_cancel_left_eq, List.singleton_append, List.cons.injEq] at same
  exact same.1.symm

section Reread

variable {args all : List CString} {argLimit wordlenLimit : Nat}

theorem collect_ends (room : args.length < argLimit) (word : CString) {b : UInt8} (special : b = 32 ∨ b = 35 ∨ b = 61) :
    args ++ [word] <+: (parseChar ⟨.collect, args, word, argLimit, wordlenLimit⟩ (charToInt b)).arglist := by
  have ended : endofword ⟨.collect, args, word, argLimit, wordlenLimit⟩ =
      ⟨.collect, args ++ [word], [], argLimit, wordlenLimit⟩ := by
    rw [endofword_eq, addArg_fits word room]
  obtain rfl | rfl | rfl := special
  · change _ <+: (endofword _).arglist
    simp only [ended, List.prefix_refl]
  · change _ <+: (endofword _).arglist
    simp only [ended, List.prefix_refl]
  · change _ <+: (findwordstart (endofword _) 61).1.arglist
    rw [ended]
    exact (grows_findwordstart ⟨.collect, args ++ [word], [], argLimit, wordlenLimit⟩ 61).args

theorem equals_ends (room : args.length < argLimit) (some : 0 < wordlenLimit) : args ++ [[61]] <+:
      (parseChar ⟨.findwordstart, args, [], argLimit, wordlenLimit⟩ (charToInt 61)).arglist := by
  have whole : clip wordlenLimit [61] = [61] := clip_fits some
  simp only [findwordstart_equals, whole, addArg_fits _ room, List.prefix_refl]

theorem reread_collect {word rest : CString} (isText : ∀ b ∈ rest, isText b = true)
    (room : args.length < argLimit) (short : word.length + rest.length ≤ wordlenLimit)
    (full : content ⟨.collect, args, word, argLimit, wordlenLimit⟩ + rest.length ≤
      content (runChars ⟨.collect, args, word, argLimit, wordlenLimit⟩ rest))
    (later : (runChars ⟨.collect, args, word, argLimit, wordlenLimit⟩ rest).arglist <+: all)
    (same : args ++ [word ++ rest] <+: all) : ∀ b ∈ rest, isBare b = true := by
  induction rest generalizing word with
  | nil => simp
  | cons b rest ih =>
    have text := isText b List.mem_cons_self
    simp only [List.length_cons, runChars_cons] at short full later
    have grows := grows_runChars (parseChar ⟨.collect, args, word, argLimit, wordlenLimit⟩ (charToInt b)) rest
    have step := grows.content
    by_cases escape : b = 92
    · subst escape
      rw [collect_escape] at step full
      simp only [content] at step full
      omega
    by_cases special : b = 32 ∨ b = 35 ∨ b = 61
    · have ends := ((collect_ends room word special).trans grows.args).trans later
      exact absurd (same_next ends same) (by simp)
    · have bare : isBare b = true := by
        simp only [not_or] at special
        exact isBare_iff.mpr ⟨text, special.1, special.2.1, special.2.2, escape⟩
      have raw := collect_raw args word argLimit wordlenLimit bare
      rw [clip_fits (by omega), clip_fits (by simp; omega)] at raw
      rw [raw] at full later
      have more := ih (fun c member => isText c (List.mem_cons_of_mem b member)) (by simp; omega)
        (by simp only [content, List.length_append, List.length_singleton] at full ⊢; omega) later (by simpa using same)
      simpa [bare] using more

theorem reread_word {name : CString} (isText : ∀ b ∈ name, isText b = true) (nonempty : name ≠ [])
    (room : args.length < argLimit) (short : name.length ≤ wordlenLimit)
    (full : content ⟨.findwordstart, args, [], argLimit, wordlenLimit⟩ + name.length ≤
      content (runChars ⟨.findwordstart, args, [], argLimit, wordlenLimit⟩ name))
    (later : (runChars ⟨.findwordstart, args, [], argLimit, wordlenLimit⟩ name).arglist <+: all)
    (same : args ++ [name] <+: all) : BareWord name ∨ name = [61] := by
  cases name with
  | nil => exact absurd rfl nonempty
  | cons b rest =>
    have text := isText b List.mem_cons_self
    simp only [List.length_cons, runChars_cons] at short full later
    have grows := grows_runChars (parseChar ⟨.findwordstart, args, [], argLimit, wordlenLimit⟩ (charToInt b)) rest
    have step := grows.content
    by_cases lost : b = 32 ∨ b = 35 ∨ b = 92 ∨ b = 34
    · have nothing : content (parseChar ⟨.findwordstart, args, [], argLimit, wordlenLimit⟩ (charToInt b)) =
          content ⟨.findwordstart, args, [], argLimit, wordlenLimit⟩ := by
        obtain rfl | rfl | rfl | rfl := lost <;> rfl
      omega
    by_cases equals : b = 61
    · subst equals
      have ends := equals_ends room (show 0 < wordlenLimit by omega)
      exact Or.inr (same_next same ((ends.trans grows.args).trans later))
    · simp only [not_or] at lost
      have bare : isBare b = true := isBare_iff.mpr ⟨text, lost.1, lost.2.1, equals, lost.2.2.1⟩
      have raw := findwordstart_raw args argLimit wordlenLimit bare lost.2.2.2
      rw [clip_fits (by simp; omega)] at raw
      rw [raw] at full later
      have more := reread_collect (fun c member => isText c (List.mem_cons_of_mem b member)) room
        (by simp; omega) (by simp only [content, List.length_singleton, List.length_nil] at full ⊢; omega)
        later (by simpa using same)
      exact Or.inl ⟨by simp, by simpa using lost.2.2.2, by simpa [bare] using more⟩

end Reread

def openQuotes : PconfState -> Nat
  | .quotecollect | .qcLiteral => 1
  | _ => 0

def Quotes (args : List CString) (read : CString) (ctx : PconfCtx) : Prop :=
  ctx.arglist = args -> ctx.state = .findeol ∨
    read.count 34 = ctx.wordbuf.count 34 + openQuotes ctx.state ∧
      (ctx.state = .findwordstart -> ctx.wordbuf = [])

section Quotes

variable {args : List CString} {argLimit wordlenLimit : Nat}

theorem quotes_ended {read word : CString} {ctx : PconfCtx} (ended : args ++ [word] <+: ctx.arglist) :
    Quotes args read ctx := by
  intro same
  have longer := ended.length_le
  rw [same, List.length_append, List.length_singleton] at longer
  omega

theorem quotes_step {state : PconfState} {word read : CString} {b : UInt8} (text : isText b = true)
    (room : args.length < argLimit) (short : word.length < wordlenLimit)
    (running : state ≠ .endofline ∧ state ≠ .parseerr)
    (quotes : Quotes args read ⟨state, args, word, argLimit, wordlenLimit⟩) :
    Quotes args (read ++ [b]) (parseChar ⟨state, args, word, argLimit, wordlenLimit⟩ (charToInt b)) := by
  have whole := clip_fits (Nat.le_of_lt short)
  have longer : clip wordlenLimit (word ++ [b]) = word ++ [b] := clip_fits (by simp; omega)
  obtain comment | ⟨count, start⟩ := quotes rfl
  · have comment : state = .findeol := comment
    subst comment
    exact fun _ => Or.inl (by simp [parseChar, findeol, isText_ne_newline text, enter])
  cases state with
  | findwordstart =>
    obtain rfl : word = [] := start rfl
    by_cases special : b = 32 ∨ b = 35 ∨ b = 61 ∨ b = 92 ∨ b = 34
    · obtain rfl | rfl | rfl | rfl | rfl := special
      · exact fun _ => Or.inr ⟨by simpa [findwordstart_space] using count, fun _ => rfl⟩
      · exact fun _ => Or.inl rfl
      · exact quotes_ended (equals_ends room (by omega))
      · exact fun _ => Or.inr ⟨by simpa [findwordstart_escape, openQuotes] using count, fun _ => rfl⟩
      · exact fun _ => Or.inr ⟨by simpa [findwordstart_quote, openQuotes] using count, fun _ => rfl⟩
    · simp only [not_or] at special
      have bare := isBare_iff.mpr ⟨text, special.1, special.2.1, special.2.2.1, special.2.2.2.1⟩
      have step := findwordstart_raw args argLimit wordlenLimit bare special.2.2.2.2
      rw [<- List.nil_append [b], longer] at step
      rw [step]
      exact fun _ => Or.inr ⟨by simpa [openQuotes, List.count_append] using count, by simp⟩
  | collect =>
    by_cases ends : b = 32 ∨ b = 35 ∨ b = 61
    · exact quotes_ended (collect_ends room word ends)
    by_cases escape : b = 92
    · subst escape
      exact fun _ => Or.inr ⟨by simpa [collect_escape, openQuotes] using count, by simp [collect_escape]⟩
    · simp only [not_or] at ends
      have bare := isBare_iff.mpr ⟨text, ends.1, ends.2.1, ends.2.2, escape⟩
      have step := collect_raw args word argLimit wordlenLimit bare
      rw [whole, longer] at step
      rw [step]
      exact fun _ => Or.inr ⟨by simpa [openQuotes, List.count_append] using count, by simp⟩
  | collectliteral =>
    have step := collectliteral_text args word argLimit wordlenLimit text
    rw [whole, longer] at step
    rw [step]
    exact fun _ => Or.inr ⟨by simpa [openQuotes, List.count_append] using count, by simp⟩
  | quotecollect =>
    by_cases closes : b = 34
    · subst closes
      rw [quotecollect_quote, addArg_fits word room]
      exact quotes_ended (List.prefix_refl _)
    by_cases escape : b = 92
    · subst escape
      exact fun _ => Or.inr ⟨by simpa [quotecollect_escape, openQuotes] using count, by simp [quotecollect_escape]⟩
    · have step := quotecollect_raw args word argLimit wordlenLimit text closes escape
      rw [whole, longer] at step
      rw [step]
      refine fun _ => Or.inr ⟨?_, by simp⟩
      simp only [openQuotes, List.count_append] at count ⊢
      omega
  | qcLiteral =>
    have step := qcLiteral_text args word argLimit wordlenLimit text
    rw [whole, longer] at step
    rw [step]
    refine fun _ => Or.inr ⟨?_, by simp⟩
    simp only [openQuotes, List.count_append] at count ⊢
    omega
  | findeol => exact fun _ => Or.inl (by simp [parseChar, findeol, isText_ne_newline text, enter])
  | endofline => exact absurd rfl running.1
  | parseerr => exact absurd rfl running.2

theorem quotes_run {read : CString} (isText : ∀ b ∈ read, isText b = true) (room : args.length < argLimit)
    (short : read.length ≤ wordlenLimit) :
    Quotes args read (runChars ⟨.findwordstart, args, [], argLimit, wordlenLimit⟩ read) := by
  induction read using List.reverseRecOn with
  | nil => exact fun _ => Or.inr ⟨rfl, fun _ => rfl⟩
  | append_singleton read b ih =>
    have textRead : ∀ c ∈ read, Nut.isText c = true := fun c member => isText c (by simp [member])
    simp only [List.length_append, List.length_singleton] at short
    have before := ih textRead (by omega)
    have grows := grows_runChars ⟨.findwordstart, args, [], argLimit, wordlenLimit⟩ read
    have running : lineDone (runChars ⟨.findwordstart, args, [], argLimit, wordlenLimit⟩ read) = false :=
      runChars_not_done rfl fun c member => isText_ne_newline (textRead c member)
    rw [runChars_append]
    simp only [runChars_cons, runChars_nil]
    generalize runChars ⟨.findwordstart, args, [], argLimit, wordlenLimit⟩ read = ctx at *
    obtain ⟨state, arglist, word, argLimit', wordlenLimit'⟩ := ctx
    obtain rfl : argLimit' = argLimit := grows.argLimit
    obtain rfl : wordlenLimit' = wordlenLimit := grows.wordlenLimit
    by_cases none : arglist = args
    · subst none
      have small := grows.content
      simp only [content, List.length_nil] at small
      exact quotes_step (isText b (by simp)) room (by omega) (by simpa [lineDone] using running) before
    · intro same
      have step := (grows_parseChar ⟨state, arglist, word, argLimit', wordlenLimit'⟩ (charToInt b)).args
      rw [same] at step
      exact absurd (step.eq_of_length_le grows.args.length_le) none

end Quotes

section Names

variable {args words : List CString} {name text : CString} {argLimit wordlenLimit : Nat}

theorem full_of_word {ctx : PconfCtx} (args_ : args <+: ctx.arglist) (later : ctx.arglist <+: args ++ name :: words)
    (grown : ctx.arglist ≠ args) : totalLength args + name.length ≤ content ctx := by
  obtain ⟨more, equal⟩ := args_
  have first : args ++ [name] <+: ctx.arglist := by
    cases more with
    | nil => exact absurd (by simpa using equal.symm) grown
    | cons word more =>
      have started : args ++ [word] <+: args ++ name :: words := by
        rw [<- equal] at later
        exact List.IsPrefix.trans ⟨more, by simp⟩ later
      have same := same_next started (show args ++ [name] <+: args ++ name :: words from ⟨words, by simp⟩)
      exact ⟨more, by rw [<- equal, same]; simp⟩
  have length := totalLength_prefix first
  simp only [totalLength_append, content] at length ⊢
  simp [totalLength] at length ⊢
  omega

structure Inside (args : List CString) (name : CString) (state : PconfState) (word : CString) : Prop where
  shorter : word.length < name.length
  quotes : state = .findeol ∨ name.count 34 = word.count 34 + openQuotes state
  start : state = .findwordstart -> word = []
  inside : state = .collect -> word ≠ []
  running : state ≠ .endofline ∧ state ≠ .parseerr
  literal : state = .collectliteral -> ∃ rest, name = rest ++ [92]

theorem inside_name (isText : ∀ b ∈ name, isText b = true) (nonempty : name ≠ [])
    (short : name.length < wordlenLimit) (room : args.length < argLimit)
    (later : (runChars ⟨.findwordstart, args, [], argLimit, wordlenLimit⟩ name).arglist <+: args ++ name :: words) :
    (BareWord name ∨ name = [61]) ∨ ∃ state word, Inside args name state word ∧
      runChars ⟨.findwordstart, args, [], argLimit, wordlenLimit⟩ name =
        ⟨state, args, word, argLimit, wordlenLimit⟩ := by
  by_cases full : totalLength args + name.length ≤
      content (runChars ⟨.findwordstart, args, [], argLimit, wordlenLimit⟩ name)
  · exact Or.inl (reread_word isText nonempty room (Nat.le_of_lt short) (by simpa [content] using full) later
      ⟨words, by simp⟩)
  refine Or.inr ?_
  have grows := grows_runChars ⟨.findwordstart, args, [], argLimit, wordlenLimit⟩ name
  have quotes := quotes_run isText room (Nat.le_of_lt short)
  have tidy : Tidy (runChars ⟨.findwordstart, args, [], argLimit, wordlenLimit⟩ name) :=
    tidy_run (by simp; omega) ⟨fun _ => rfl, fun same => by cases same⟩ isText
  have running : lineDone (runChars ⟨.findwordstart, args, [], argLimit, wordlenLimit⟩ name) = false :=
    runChars_not_done rfl fun b member => isText_ne_newline (isText b member)
  have literal : (runChars ⟨.findwordstart, args, [], argLimit, wordlenLimit⟩ name).state = .collectliteral ->
      ∃ rest, name = rest ++ [92] := collectliteral_last (by simp)
  generalize runChars ⟨.findwordstart, args, [], argLimit, wordlenLimit⟩ name = ctx at *
  obtain ⟨state, arglist, word, argLimit', wordlenLimit'⟩ := ctx
  obtain rfl : argLimit' = argLimit := grows.argLimit
  obtain rfl : wordlenLimit' = wordlenLimit := grows.wordlenLimit
  obtain rfl : arglist = args := by
    by_contra grown
    exact full (full_of_word grows.args later grown)
  simp only [content] at full
  refine ⟨state, word, ⟨by omega, ?_, tidy.1, tidy.2, by simpa [lineDone] using running, literal⟩, rfl⟩
  obtain comment | ⟨count, _⟩ := quotes rfl
  · exact Or.inl comment
  · exact Or.inr count

theorem totalLength_line :
    totalLength (args ++ name :: words) = totalLength args + name.length + totalLength words := by
  simp [totalLength, Nat.add_assoc]

theorem comment_behind {word : CString} (rest : CString) (oneLine : ∀ b ∈ rest, b ≠ 10)
    (same : (runChars ⟨.findeol, args, word, argLimit, wordlenLimit⟩ (rest ++ [10])).arglist =
      args ++ name :: words) : False := by
  rw [runChars_append, findeol_run rfl oneLine] at same
  have shorter : args = args ++ name :: words := same
  simp at shorter

theorem reread_before_quoted (isText : ∀ b ∈ name, isText b = true) (short : name.length < wordlenLimit)
    (line : LineOf (34 :: text) words) (few : args.length + words.length < argLimit)
    (fits : ∀ word ∈ words, word.length ≤ wordlenLimit)
    (same : (runChars ⟨.findwordstart, args, [], argLimit, wordlenLimit⟩
      (name ++ (32 :: 34 :: text ++ [10]))).arglist = args ++ name :: words) : BareWord name ∨ name = [61] := by
  have room : args.length < argLimit := by omega
  by_cases nonempty : name = []
  · subst nonempty
    have run := run_line args argLimit wordlenLimit line
    simp only [List.nil_append, List.cons_append, runChars_cons, findwordstart_space] at same run
    rw [run, addArgs_fits (by omega) fits] at same
    simpa using congrArg List.length same
  rw [runChars_append] at same
  obtain done | ⟨state, word, here, reached⟩ := inside_name isText nonempty short room
    (same ▸ (grows_runChars _ _).args : _ <+: args ++ name :: words)
  · exact done
  exfalso
  rw [reached] at same
  have shorter := here.shorter
  have whole : clip wordlenLimit word = word := clip_fits (by omega)
  have longer : clip wordlenLimit (word ++ [32]) = word ++ [32] := clip_fits (by simp; omega)
  have space : Nut.isText 32 = true := rfl
  have quoteBare : isBare 34 = true := rfl
  have isNext : args ++ [name] <+: args ++ name :: words := ⟨words, by simp⟩
  have finished (started : List CString) (bound : totalLength started ≤ totalLength args + word.length)
      (equal : addArgs argLimit wordlenLimit started words = args ++ name :: words) : False := by
    have total : totalLength (addArgs argLimit wordlenLimit started words) ≤ _ := totalLength_addArgs started words
    rw [equal, totalLength_line] at total
    omega
  -- the quote in front of the value ends a word that the name has opened
  have closed (equal : (runChars ⟨.findwordstart, args ++ [word ++ [32]], [], argLimit, wordlenLimit⟩
      (text ++ [10])).arglist = args ++ name :: words) (open_ : openQuotes state = 1) : False := by
    have started := (grows_runChars ⟨.findwordstart, args ++ [word ++ [32]], [], argLimit, wordlenLimit⟩
      (text ++ [10])).args
    rw [equal] at started
    have isName := same_next started isNext
    obtain rfl | count := here.quotes
    · cases open_
    · simp [<- isName, open_, List.count_append] at count
  cases state with
  | findwordstart =>
    obtain rfl : word = [] := here.start rfl
    have run := run_line args argLimit wordlenLimit line
    simp only [List.cons_append, runChars_cons, findwordstart_space] at same run
    rw [run] at same
    exact finished args (Nat.le_add_right _ _) same
  | collect =>
    have run := run_line (addArg argLimit args word) argLimit wordlenLimit line
    simp only [List.cons_append, runChars_cons, collect_space] at same run
    rw [run] at same
    apply finished (addArg argLimit args word) ?_ same
    rw [addArg_fits word room, totalLength_append]
    simp [totalLength]
  | findeol =>
    refine comment_behind (32 :: 34 :: text) ?_ same
    intro b member
    obtain rfl | inside := List.mem_cons.mp member
    · decide
    · exact isText_ne_newline (line.isText b inside)
  | quotecollect =>
    have first := quotecollect_raw args word argLimit wordlenLimit space (by decide) (by decide)
    rw [whole, longer] at first
    simp only [List.cons_append, runChars_cons, first, quotecollect_quote, addArg_fits _ room] at same
    exact closed same rfl
  | qcLiteral =>
    have first := qcLiteral_text args word argLimit wordlenLimit space
    rw [whole, longer] at first
    simp only [List.cons_append, runChars_cons, first, quotecollect_quote, addArg_fits _ room] at same
    exact closed same rfl
  | collectliteral =>
    have first := collectliteral_text args word argLimit wordlenLimit space
    have second := collect_raw args (word ++ [32]) argLimit wordlenLimit quoteBare
    rw [whole, longer] at first
    rw [longer, clip_fits (by simp; omega)] at second
    simp only [List.cons_append, runChars_cons, first, second] at same
    have rest := grows_runChars ⟨.collect, args, word ++ [32] ++ [34], argLimit, wordlenLimit⟩ (text ++ [10])
    obtain ⟨none, _⟩ | ⟨more, started⟩ := rest.next room
    · rw [same] at none
      simp at none
    · rw [same] at started
      have isName := same_next started isNext
      obtain comment | count := here.quotes
      · cases comment
      · simp [<- isName, openQuotes, List.count_append] at count
  | endofline => exact here.running.1 rfl
  | parseerr => exact here.running.2 rfl

theorem reread_before_loose (isText : ∀ b ∈ name, isText b = true) (short : name.length < wordlenLimit)
    (room : args.length < argLimit) {rest meaning : CString} (loose : Loose rest meaning)
    (apart : rest = [] ∨ ∃ behind, rest = 32 :: behind) (enough : meaning.length ≤ totalLength words)
    (done : (runChars ⟨.findwordstart, args, [], argLimit, wordlenLimit⟩ (name ++ (rest ++ [10]))).state = .endofline)
    (same : (runChars ⟨.findwordstart, args, [], argLimit, wordlenLimit⟩
      (name ++ (rest ++ [10]))).arglist = args ++ name :: words) : BareWord name ∨ name = [61] := by
  have limit : wordlenLimit ≠ 0 := by omega
  by_cases nonempty : name = []
  · subst nonempty
    obtain ⟨_, more, equal, full⟩ := loose_line ⟨.findwordstart, args, [], argLimit, wordlenLimit⟩ limit
      (Or.inl ⟨rfl, rfl⟩) loose
    rw [List.nil_append, equal, List.append_cancel_left_eq] at same
    simp [same] at full
  rw [runChars_append] at same done
  obtain done' | ⟨state, word, here, reached⟩ := inside_name isText nonempty short room
    (same ▸ (grows_runChars _ _).args : _ <+: args ++ name :: words)
  · exact done'
  exfalso
  rw [reached] at same done
  have shorter := here.shorter
  have unquoted (free : Unquoted ⟨state, args, word, argLimit, wordlenLimit⟩) : False := by
    have total := (loose_line ⟨state, args, word, argLimit, wordlenLimit⟩ limit free loose).1
    simp only [content, same, totalLength_line] at total
    omega
  -- a quoted word that is still open takes the rest of the line, the newline too
  have swallowed {word behind meaning : CString} (loose : Loose behind meaning)
      (done : (runChars ⟨.quotecollect, args, word, argLimit, wordlenLimit⟩ (behind ++ [10])).state = .endofline) :
      False := by
    have open_ := quotecollect_loose ⟨.quotecollect, args, word, argLimit, wordlenLimit⟩ loose rfl
    rw [runChars_append] at done
    simp only [runChars_cons, runChars_nil, parseChar, open_] at done
    cases done
  have whole : clip wordlenLimit word = word := clip_fits (by omega)
  have longer : clip wordlenLimit (word ++ [32]) = word ++ [32] := clip_fits (by simp; omega)
  have space : Nut.isText 32 = true := rfl
  cases state with
  | findwordstart => exact unquoted (Or.inl ⟨rfl, here.start rfl⟩)
  | collect => exact unquoted (Or.inr ⟨rfl, here.inside rfl⟩)
  | findeol => exact comment_behind rest (fun b member => isText_ne_newline (loose.isText b member)) same
  | quotecollect => exact swallowed loose done
  | qcLiteral =>
    obtain rfl | ⟨behind, rfl⟩ := apart
    · cases done
    · have first := qcLiteral_text args word argLimit wordlenLimit space
      simp only [List.cons_append, runChars_cons] at done
      rw [whole] at first
      rw [first] at done
      exact swallowed loose.behind done
  | collectliteral =>
    obtain rfl | ⟨behind, rfl⟩ := apart
    · cases done
    · have first := collectliteral_text args word argLimit wordlenLimit space
      rw [whole, longer] at first
      simp only [List.cons_append, runChars_cons, first] at same
      have free : Unquoted ⟨.collect, args, word ++ [32], argLimit, wordlenLimit⟩ := Or.inr ⟨rfl, by simp⟩
      have total := (loose_line ⟨.collect, args, word ++ [32], argLimit, wordlenLimit⟩ limit free loose.behind).1
      simp only [content, same, totalLength_line, List.length_append, List.length_singleton] at total
      obtain ⟨none, _⟩ | ⟨more, started⟩ :=
        (grows_runChars ⟨.collect, args, word ++ [32], argLimit, wordlenLimit⟩ (behind ++ [10])).next room
      · rw [same] at none
        simp at none
      · -- the name would end in the space behind it, but it ends in a backslash
        rw [same] at started
        have isName := same_next started (show args ++ [name] <+: args ++ name :: words from ⟨words, by simp⟩)
        obtain ⟨body, ends⟩ := here.literal rfl
        have length := congrArg List.length isName
        simp only [List.length_append, List.length_singleton] at length
        have nothing : more = [] := List.eq_nil_of_length_eq_zero (by omega)
        rw [nothing, List.append_nil, ends] at isName
        have last := (List.append_inj' isName rfl).2
        simp at last
  | endofline => exact here.running.1 rfl
  | parseerr => exact here.running.2 rfl

end Names

def EscapedWord (value : CString) : Prop :=
  value ≠ [] ∧ ∀ b ∈ value, b ≠ 32 ∧ b ≠ 61

instance (value : CString) : Decidable (EscapedWord value) :=
  decidable_of_iff (value ≠ [] ∧ value.all (fun b => b ≠ 32 && b ≠ 61) = true) (by simp [EscapedWord])

section Values

variable {args words : List CString} {value : CString} {argLimit wordlenLimit : Nat}

theorem reread_escaped {word rest behind : CString} (isText : ∀ b ∈ rest, isText b = true)
    (room : args.length < argLimit) (short : word.length + rest.length ≤ wordlenLimit)
    (same : args ++ [word ++ rest] <+:
      (runChars ⟨.collect, args, word, argLimit, wordlenLimit⟩ (escapeAll rest ++ behind)).arglist) :
    ∀ b ∈ rest, b ≠ 32 ∧ b ≠ 61 := by
  induction rest generalizing word with
  | nil => simp
  | cons b rest ih =>
    have text := isText b List.mem_cons_self
    simp only [List.length_cons] at short
    have whole : clip wordlenLimit word = word := clip_fits (by omega)
    have longer : clip wordlenLimit (word ++ [b]) = word ++ [b] := clip_fits (by simp; omega)
    have next (step : runChars ⟨.collect, args, word, argLimit, wordlenLimit⟩ (escapeAll (b :: rest) ++ behind) =
        runChars ⟨.collect, args, word ++ [b], argLimit, wordlenLimit⟩ (escapeAll rest ++ behind)) :
        ∀ c ∈ rest, c ≠ 32 ∧ c ≠ 61 := by
      have same' : args ++ [word ++ [b] ++ rest] <+:
          (runChars ⟨.collect, args, word ++ [b], argLimit, wordlenLimit⟩ (escapeAll rest ++ behind)).arglist := by
        rw [<- step]
        simpa using same
      exact ih (fun c member => isText c (List.mem_cons_of_mem b member)) (by simp; omega) same'
    by_cases special : pconfEscape b = true
    · have escaped := collectliteral_text args word argLimit wordlenLimit text
      rw [whole, longer] at escaped
      have notEnd : b ≠ 32 ∧ b ≠ 61 := by
        constructor <;> rintro rfl <;> cases special
      have later := next (by simp [escapeAll_cons, special, collect_escape, escaped])
      simpa [notEnd] using later
    by_cases ends : b = 32 ∨ b = 61
    · exfalso
      have ends' : b = 32 ∨ b = 35 ∨ b = 61 := ends.elim Or.inl fun equals => Or.inr (Or.inr equals)
      have line : escapeAll (b :: rest) ++ behind = b :: (escapeAll rest ++ behind) := by
        simp [escapeAll_cons, special]
      rw [line, runChars_cons] at same
      have grows := grows_runChars (parseChar ⟨.collect, args, word, argLimit, wordlenLimit⟩ (charToInt b))
        (escapeAll rest ++ behind)
      have equal := same_next ((collect_ends room word ends').trans grows.args) same
      simp at equal
    · have plain : b ≠ 35 ∧ b ≠ 92 ∧ b ≠ 34 := by simpa [pconfEscape, and_assoc] using special
      simp only [not_or] at ends
      have raw := collect_raw args word argLimit wordlenLimit
        (isBare_iff.mpr ⟨text, ends.1, plain.1, ends.2, plain.2.1⟩)
      rw [whole, longer] at raw
      have later := next (by simp [escapeAll_cons, special, raw])
      simpa [ends] using later

theorem reread_value (isText : ∀ b ∈ value, isText b = true) (short : value.length ≤ wordlenLimit)
    (limit : wordlenLimit ≠ 0) (room : args.length < argLimit) {rest meaning : CString} (loose : Loose rest meaning)
    (enough : meaning.length ≤ totalLength words) (same : (runChars ⟨.findwordstart, args, [], argLimit, wordlenLimit⟩
      (escapeAll value ++ (rest ++ [10]))).arglist = args ++ value :: words) : EscapedWord value ∨ value = [61] := by
  have isNext : args ++ [value] <+: (runChars ⟨.findwordstart, args, [], argLimit, wordlenLimit⟩
      (escapeAll value ++ (rest ++ [10]))).arglist := by
    rw [same]
    exact ⟨words, by simp⟩
  obtain ⟨inner, escaped, shorter⟩ := loose_escapeAll isText
  have free : Unquoted ⟨.findwordstart, args, [], argLimit, wordlenLimit⟩ := Or.inl ⟨rfl, rfl⟩
  obtain ⟨total, more, equal, full⟩ := loose_line ⟨.findwordstart, args, [], argLimit, wordlenLimit⟩ limit free
    (loose_append escaped loose)
  rw [List.append_assoc, same] at equal
  cases value with
  | nil =>
    rw [List.append_cancel_left_eq] at equal
    simp [<- equal] at full
  | cons b tail =>
    have text := isText b List.mem_cons_self
    have textTail : ∀ c ∈ tail, Nut.isText c = true := fun c member => isText c (List.mem_cons_of_mem b member)
    simp only [List.length_cons] at short
    have longer : clip wordlenLimit [b] = [b] := clip_fits (by simp; omega)
    have next (step : runChars ⟨.findwordstart, args, [], argLimit, wordlenLimit⟩
          (escapeAll (b :: tail) ++ (rest ++ [10])) =
        runChars ⟨.collect, args, [b], argLimit, wordlenLimit⟩ (escapeAll tail ++ (rest ++ [10]))) :
        ∀ c ∈ tail, c ≠ 32 ∧ c ≠ 61 := by
      have isNext' : args ++ [[b] ++ tail] <+: (runChars ⟨.collect, args, [b], argLimit, wordlenLimit⟩
          (escapeAll tail ++ (rest ++ [10]))).arglist := by
        rw [<- step]
        exact isNext
      exact reread_escaped textTail room (by simp; omega) isNext'
    by_cases space : b = 32
    · -- a space in front gets lost
      subst space
      exfalso
      obtain ⟨inner', escaped', shorter'⟩ := loose_escapeAll textTail
      have total' := (loose_line ⟨.findwordstart, args, [], argLimit, wordlenLimit⟩ limit free
        (.space (loose_append escaped' loose))).1
      have line : 32 :: (escapeAll tail ++ rest) ++ [10] = escapeAll (32 :: tail) ++ (rest ++ [10]) := by
        simp [escapeAll_cons, show pconfEscape 32 = false from rfl]
      rw [line] at total'
      simp only [content, same, totalLength_line, List.length_append, List.length_cons] at total'
      simp only [List.length_nil] at total'
      omega
    by_cases equals : b = 61
    · subst equals
      have line : escapeAll (61 :: tail) ++ (rest ++ [10]) = 61 :: (escapeAll tail ++ (rest ++ [10])) := by
        simp [escapeAll_cons, show pconfEscape 61 = false from rfl]
      rw [line, runChars_cons] at isNext
      have ended : args ++ [[61]] <+:
          (parseChar ⟨.findwordstart, args, [], argLimit, wordlenLimit⟩ (charToInt 61)).arglist :=
        equals_ends room (by omega)
      have grows := grows_runChars (parseChar ⟨.findwordstart, args, [], argLimit, wordlenLimit⟩ (charToInt 61))
        (escapeAll tail ++ (rest ++ [10]))
      exact Or.inr (same_next isNext (ended.trans grows.args))
    · refine Or.inl ⟨by simp, ?_⟩
      by_cases special : pconfEscape b = true
      · have first := collectliteral_text args [] argLimit wordlenLimit text
        rw [clip_nil, List.nil_append, longer] at first
        have later := next (by simp [escapeAll_cons, special, findwordstart_escape, first])
        simpa [space, equals] using later
      · have plain : b ≠ 35 ∧ b ≠ 92 ∧ b ≠ 34 := by simpa [pconfEscape, and_assoc] using special
        have raw := findwordstart_raw args argLimit wordlenLimit
          (isBare_iff.mpr ⟨text, space, plain.1, equals, plain.2.1⟩) plain.2.2
        rw [longer] at raw
        have later := next (by simp [escapeAll_cons, special, raw])
        simpa [space, equals] using later

end Values

end Nut
