import Mathlib.Data.List.Induction
import Nut.Common.ParseConfReader

set_option autoImplicit false

namespace Nut

def totalLength (words : List CString) : Nat :=
  (words.map List.length).sum

def content (ctx : PconfCtx) : Nat :=
  totalLength ctx.arglist + ctx.wordbuf.length

structure Grows (added : Nat) (ctx ctx' : PconfCtx) : Prop where
  argLimit : ctx'.argLimit = ctx.argLimit
  wordlenLimit : ctx'.wordlenLimit = ctx.wordlenLimit
  args : ctx.arglist <+: ctx'.arglist
  content : content ctx' ≤ content ctx + added
  next : ctx.arglist.length < ctx.argLimit ->
    ctx'.arglist = ctx.arglist ∧ ctx.wordbuf <+: ctx'.wordbuf ∨
      ∃ more, ctx.arglist ++ [ctx.wordbuf ++ more] <+: ctx'.arglist

section Growth

variable {m n : Nat} {a b c : PconfCtx}

theorem grows_state (ctx : PconfCtx) (state : PconfState) : Grows 0 ctx { ctx with state } :=
  ⟨rfl, rfl, List.prefix_refl _, Nat.le_refl _, fun _ => Or.inl ⟨rfl, List.prefix_refl _⟩⟩

theorem grows_trans (first : Grows m a b) (second : Grows n b c) : Grows (m + n) a c := by
  refine ⟨second.argLimit.trans first.argLimit, second.wordlenLimit.trans first.wordlenLimit,
    first.args.trans second.args, ?_, fun room => ?_⟩
  · have := first.content
    have := second.content
    omega
  · obtain ⟨same, started⟩ | ⟨more, ended⟩ := first.next room
    · obtain ⟨same', started'⟩ | ⟨more', ended'⟩ := second.next (by rw [same, first.argLimit]; exact room)
      · exact Or.inl ⟨same'.trans same, started.trans started'⟩
      · obtain ⟨rest, whole⟩ := started
        refine Or.inr ⟨rest ++ more', ?_⟩
        rw [<- List.append_assoc, whole, <- same]
        exact ended'
    · exact Or.inr ⟨more, ended.trans second.args⟩

theorem grows_le (first : Grows m a b) (less : m ≤ n) : Grows n a b :=
  { first with content := Nat.le_trans first.content (by omega) }

theorem grows_addchar (ctx : PconfCtx) (ch : Int) : Grows 1 ctx (addchar ctx ch) := by
  unfold addchar
  split_ifs
  · exact grows_le (grows_state ctx ctx.state) (by omega)
  · exact grows_le (grows_state ctx ctx.state) (by omega)
  · exact ⟨rfl, rfl, List.prefix_refl _, by simp [content, Nat.add_assoc], fun _ =>
      Or.inl ⟨rfl, List.prefix_append _ _⟩⟩

theorem grows_endofword (ctx : PconfCtx) : Grows 0 ctx (endofword ctx) := by
  unfold endofword
  split_ifs with full
  · exact ⟨rfl, rfl, List.prefix_refl _, by simp [content], fun room => absurd full.2 (by omega)⟩
  · exact ⟨rfl, rfl, List.prefix_append _ _, by simp [content, totalLength], fun _ => Or.inr ⟨[], by simp⟩⟩

theorem grows_findwordstart (ctx : PconfCtx) (ch : Int) : Grows 1 ctx (findwordstart ctx ch).1 := by
  unfold findwordstart
  split_ifs
  all_goals first
    | exact grows_le (grows_state ctx ctx.state) (by omega)
    | exact grows_trans (grows_addchar ctx ch) (grows_endofword _)
    | exact grows_addchar ctx ch

theorem grows_parseChar (ctx : PconfCtx) (ch : Int) : Grows 1 ctx (parseChar ctx ch) := by
  have entered {x : PconfCtx} (grows : Grows 1 ctx x) (state : PconfState) : Grows 1 ctx (enter (x, state)) :=
    grows_trans grows (grows_state x state)
  have same : Grows 1 ctx ctx := grows_le (grows_state ctx ctx.state) (by omega)
  have ended : Grows 1 ctx (endofword ctx) := grows_le (grows_endofword ctx) (by omega)
  have again : Grows 1 ctx (findwordstart (endofword ctx) ch).1 :=
    grows_trans (grows_endofword ctx) (grows_findwordstart _ ch)
  cases state : ctx.state <;>
    simp only [parseChar, state, findeol, quotecollect, qcLiteral, collect, collectliteral]
  all_goals try split_ifs
  all_goals first
    | exact entered same _
    | exact entered (grows_addchar ctx ch) _
    | exact entered ended _
    | exact entered again _
    | exact entered (grows_findwordstart ctx ch) (findwordstart ctx ch).2

theorem grows_runChars (ctx : PconfCtx) (text : CString) : Grows text.length ctx (runChars ctx text) := by
  induction text generalizing ctx with
  | nil => exact grows_state ctx ctx.state
  | cons ch rest ih =>
    have step := grows_trans (grows_parseChar ctx (charToInt ch)) (ih _)
    rwa [Nat.add_comm] at step

end Growth

def Unquoted (ctx : PconfCtx) : Prop :=
  ctx.state = .findwordstart ∧ ctx.wordbuf = [] ∨ ctx.state = .collect ∧ ctx.wordbuf ≠ []

-- Text with no unescaped `"` or `#` in it, and the bytes of it that can get into words.
inductive Loose : CString -> CString -> Prop where
  | nil : Loose [] []
  | space {written meaning : CString} (rest : Loose written meaning) : Loose (32 :: written) meaning
  | raw {b : UInt8} {written meaning : CString} (text : isText b = true)
      (plain : b ≠ 32 ∧ b ≠ 34 ∧ b ≠ 35 ∧ b ≠ 92) (rest : Loose written meaning) :
      Loose (b :: written) (b :: meaning)
  | escaped {b : UInt8} {written meaning : CString} (text : isText b = true)
      (rest : Loose written meaning) : Loose (92 :: b :: written) (b :: meaning)

theorem Loose.isText {written meaning : CString} (loose : Loose written meaning) : ∀ b ∈ written, isText b = true := by
  induction loose with
  | nil => simp
  | space _ ih => simpa [show Nut.isText 32 = true from rfl] using ih
  | raw text _ _ ih => simpa [text] using ih
  | escaped text _ ih => simpa [text, show Nut.isText 92 = true from rfl] using ih

theorem Loose.behind {written meaning : CString} (loose : Loose (32 :: written) meaning) :
    Loose written meaning := by
  cases loose with
  | space rest => exact rest
  | raw _ plain _ => exact absurd rfl plain.1

-- What a stretch of loose text does to the parser: words of its bytes, none of them empty.
structure Loosens (added : Nat) (ctx ctx' : PconfCtx) : Prop where
  unquoted : Unquoted ctx'
  wordlenLimit : ctx'.wordlenLimit = ctx.wordlenLimit
  content : content ctx' ≤ content ctx + added
  words : ∃ more, ctx'.arglist = ctx.arglist ++ more ∧ [] ∉ more

section Loose

theorem loosens_through {m n : Nat} {a b c : PconfCtx} (state : PconfState)
    (first : Loosens m a (enter (b, state))) (second : Loosens n b c) : Loosens (m + n) a c := by
  obtain ⟨more, words, full⟩ := first.words
  obtain ⟨more', words', full'⟩ := second.words
  refine ⟨second.unquoted, second.wordlenLimit.trans first.wordlenLimit, ?_, more ++ more', ?_, ?_⟩
  · have before : content b ≤ content a + m := first.content
    have after := second.content
    omega
  · have between : b.arglist = a.arglist ++ more := words
    rw [words', between, List.append_assoc]
  · simp [full, full']

theorem loosens_trans {m n : Nat} {a b c : PconfCtx} (first : Loosens m a b) (second : Loosens n b c) :
    Loosens (m + n) a c := loosens_through b.state first second

theorem endofword_words {ctx : PconfCtx} (nonempty : ctx.wordbuf ≠ []) :
    ∃ more, (endofword ctx).arglist = ctx.arglist ++ more ∧ [] ∉ more := by
  unfold endofword
  split_ifs
  · exact ⟨[], by simp, by simp⟩
  · exact ⟨[ctx.wordbuf], rfl, by simpa using Ne.symm nonempty⟩

theorem addchar_nonempty {ctx : PconfCtx} (limit : ctx.wordlenLimit ≠ 0) {b : UInt8} (text : isText b = true) :
    (addchar ctx (charToInt b)).wordbuf ≠ [] := by
  have bounds := isText_iff.mp text
  rw [charToInt_text text, addchar, if_neg (by omega)]
  split
  next full =>
      intro none
      rw [none, List.length_nil] at full
      exact limit (Nat.le_zero.mp full.2)
  next => simp

theorem loosens_addchar {ctx : PconfCtx} (limit : ctx.wordlenLimit ≠ 0) {b : UInt8} (text : isText b = true) :
    Loosens 1 ctx (enter (addchar ctx (charToInt b), .collect)) := by
  have grows := grows_addchar ctx (charToInt b)
  have same : (addchar ctx (charToInt b)).arglist = ctx.arglist := by
    unfold addchar
    split_ifs <;> rfl
  exact ⟨Or.inr ⟨rfl, addchar_nonempty limit text⟩, grows.wordlenLimit, grows.content, [], by simp [enter, same],
    by simp⟩

theorem loosens_endofword {ctx : PconfCtx} (nonempty : ctx.wordbuf ≠ []) :
    Loosens 0 ctx (enter (endofword ctx, .findwordstart)) := by
  have grows := grows_endofword ctx
  have emptied : (endofword ctx).wordbuf = [] := by
    unfold endofword
    split_ifs <;> rfl
  exact ⟨Or.inl ⟨rfl, emptied⟩, grows.wordlenLimit, grows.content, endofword_words nonempty⟩

theorem loosens_equals {ctx : PconfCtx} (limit : ctx.wordlenLimit ≠ 0) :
    Loosens 1 ctx (enter (endofword (addchar ctx 61), .findwordstart)) := by
  have text : isText 61 = true := rfl
  have added := loosens_addchar limit text
  have ended := loosens_endofword (addchar_nonempty limit text)
  exact loosens_trans added { ended with }

theorem loosens_space {ctx : PconfCtx} (unquoted : Unquoted ctx) : Loosens 0 ctx (parseChar ctx (charToInt 32)) := by
  obtain ⟨state, empty⟩ | ⟨state, nonempty⟩ := unquoted
  · simp only [parseChar, state]
    exact ⟨Or.inl ⟨rfl, empty⟩, rfl, Nat.le_refl _, [], by simp [enter, findwordstart]; rfl, by simp⟩
  · simp only [parseChar, state]
    exact loosens_endofword nonempty

theorem loosens_escaped {ctx : PconfCtx} (limit : ctx.wordlenLimit ≠ 0) (unquoted : Unquoted ctx) {b : UInt8}
    (text : isText b = true) : Loosens 1 ctx (parseChar (parseChar ctx (charToInt 92)) (charToInt b)) := by
  have literal : parseChar (parseChar ctx (charToInt 92)) (charToInt b) =
      enter (addchar { ctx with state := .collectliteral } (charToInt b), .collect) := by
    have first : parseChar ctx (charToInt 92) = { ctx with state := .collectliteral } := by
      obtain ⟨state, _⟩ | ⟨state, _⟩ := unquoted <;> simp only [parseChar, state] <;> rfl
    rw [first]
    simp [parseChar, collectliteral, isText_ne_newline text]
  have limit' : ({ ctx with state := .collectliteral } : PconfCtx).wordlenLimit ≠ 0 := limit
  have added := loosens_addchar limit' text
  rw [literal]
  exact { added with }

theorem loosens_raw {ctx : PconfCtx} (limit : ctx.wordlenLimit ≠ 0) (unquoted : Unquoted ctx) {b : UInt8}
    (text : isText b = true) (plain : b ≠ 32 ∧ b ≠ 34 ∧ b ≠ 35 ∧ b ≠ 92) :
    Loosens 1 ctx (parseChar ctx (charToInt b)) := by
  obtain ⟨notSpace, notQuote, notHash, notEscape⟩ := plain
  by_cases equals : b = 61
  · subst equals
    obtain ⟨state, _⟩ | ⟨state, nonempty⟩ := unquoted
    · simp only [parseChar, state]
      exact loosens_equals limit
    · simp only [parseChar, state]
      have ended := loosens_endofword nonempty
      have limit' : (endofword ctx).wordlenLimit ≠ 0 := by
        rw [(grows_endofword ctx).wordlenLimit]
        exact limit
      exact loosens_through .findwordstart ended (loosens_equals limit')
  · have added : parseChar ctx (charToInt b) = enter (addchar ctx (charToInt b), .collect) := by
      obtain ⟨state, _⟩ | ⟨state, _⟩ := unquoted <;>
        simp [parseChar, state, findwordstart, collect, notQuote, notHash, equals, notEscape, isText_ne_newline text, isspace_text text notSpace]
    rw [added]
    exact loosens_addchar limit text

theorem loosens_run {written meaning : CString} (loose : Loose written meaning) {ctx : PconfCtx}
    (limit : ctx.wordlenLimit ≠ 0) (unquoted : Unquoted ctx) : Loosens meaning.length ctx (runChars ctx written) := by
  induction loose generalizing ctx with
  | nil => exact ⟨unquoted, rfl, Nat.le_refl _, [], by simp, by simp⟩
  | space rest ih =>
    have step := loosens_space unquoted
    have later := ih (by rw [step.wordlenLimit]; exact limit) step.unquoted
    simpa using loosens_trans step later
  | raw text plain rest ih =>
    have step := loosens_raw limit unquoted text plain
    have later := ih (by rw [step.wordlenLimit]; exact limit) step.unquoted
    simpa [Nat.add_comm] using loosens_trans step later
  | escaped text rest ih =>
    have step := loosens_escaped limit unquoted text
    have later := ih (by rw [step.wordlenLimit]; exact limit) step.unquoted
    simpa [Nat.add_comm] using loosens_trans step later

end Loose

section States

variable {ctx : PconfCtx} {b : UInt8}

theorem parseChar_between (between : ctx.state = .findwordstart) (ch : Int) :
    parseChar ctx ch = enter (findwordstart ctx ch) := by rw [parseChar, between]

theorem parseChar_quote (quoted : ctx.state = .quotecollect) (ch : Int) : parseChar ctx ch = enter (quotecollect ctx ch) := by
  rw [parseChar, quoted]

theorem parseChar_inside (inside : ctx.state = .collect) (ch : Int) : parseChar ctx ch = enter (collect ctx ch) := by
  rw [parseChar, inside]

theorem parseChar_comment (comment : ctx.state = .findeol) (ch : Int) : parseChar ctx ch = enter (findeol ctx ch) := by
  rw [parseChar, comment]

theorem parseChar_quotePlain (quoted : ctx.state = .quotecollect) (quote : b ≠ 34) (escape : b ≠ 92) :
    parseChar ctx (charToInt b) = enter (addchar ctx (charToInt b), .quotecollect) := by
  simp [parseChar, quoted, quotecollect, quote, escape]

theorem parseChar_insidePlain (inside : ctx.state = .collect) (hash : b ≠ 35) (newline : b ≠ 10)
    (space : isspace (charToInt b) = false) (equals : b ≠ 61) (escape : b ≠ 92) :
    parseChar ctx (charToInt b) = enter (addchar ctx (charToInt b), .collect) := by
  simp [parseChar, inside, collect, hash, newline, space, equals, escape]

theorem parseChar_blank (between : ctx.state = .findwordstart) (newline : b ≠ 10) (hash : b ≠ 35)
    (space : isspace (charToInt b) = true) : parseChar ctx (charToInt b) = ctx := by
  obtain ⟨state, _, _, _, _⟩ := ctx
  obtain rfl : state = .findwordstart := between
  simp [parseChar, findwordstart, newline, hash, space, enter]

-- An unquoted word begins as it goes on.
theorem parseChar_begins (between : ctx.state = .findwordstart) (newline : b ≠ 10) (hash : b ≠ 35)
    (space : isspace (charToInt b) = false) (quote : b ≠ 34) (equals : b ≠ 61) :
    parseChar { ctx with state := .collect } (charToInt b) = parseChar ctx (charToInt b) := by
  have same (ch : Int) : addchar { ctx with state := .collect } ch = { addchar ctx ch with state := .collect } := by
    unfold addchar
    split_ifs <;> rfl
  rw [parseChar_inside rfl, parseChar_between between]
  simp only [findwordstart, collect, charToInt_newline, charToInt_hash, charToInt_quote, charToInt_equals, newline, hash,
    space, quote, equals, if_false, Bool.false_eq_true, same]
  split_ifs <;> rfl

theorem endofword_empty (ctx : PconfCtx) : (endofword ctx).wordbuf = [] := by
  unfold endofword
  split_ifs <;> rfl

-- Between two words the buffer is empty, and inside an unquoted one it is not.
def Tidy (ctx : PconfCtx) : Prop :=
  (ctx.state = .findwordstart -> ctx.wordbuf = []) ∧ (ctx.state = .collect -> ctx.wordbuf ≠ [])

theorem tidy_enter {x : PconfCtx} {state : PconfState} (start : state = .findwordstart -> x.wordbuf = [])
    (inside : state = .collect -> x.wordbuf ≠ []) : Tidy (enter (x, state)) := ⟨start, inside⟩

theorem tidy_step (limit : ctx.wordlenLimit ≠ 0) (text : isText b = true) (tidy : Tidy ctx) :
    Tidy (parseChar ctx (charToInt b)) := by
  have added := addchar_nonempty limit text
  have newline := isText_ne_newline text
  cases state : ctx.state
  all_goals
    simp only [parseChar, state, findwordstart, findeol, quotecollect, qcLiteral, collect, collectliteral,
      charToInt_newline, newline, if_false]
  case findwordstart =>
      have empty := tidy.1 state
      split_ifs <;> exact tidy_enter (by simp [empty, endofword_empty]) (by simp [added])
  case collect =>
      split_ifs <;> exact tidy_enter (by simp_all [endofword_empty]) (by simp [added])
  case endofline => exact tidy
  case parseerr => exact tidy
  all_goals
    try split_ifs
    all_goals exact tidy_enter (by simp [endofword_empty]) (by simp [added])

theorem tidy_run (limit : ctx.wordlenLimit ≠ 0) (tidy : Tidy ctx) {text : CString}
    (isText : ∀ b ∈ text, isText b = true) : Tidy (runChars ctx text) := by
  induction text generalizing ctx with
  | nil => exact tidy
  | cons b rest ih =>
    have grows := grows_parseChar ctx (charToInt b)
    apply ih (by rw [grows.wordlenLimit]; exact limit) (tidy_step limit (isText b List.mem_cons_self) tidy)
    exact fun c member => isText c (List.mem_cons_of_mem b member)

theorem findeol_run (comment : ctx.state = .findeol) {text : CString} (oneLine : ∀ b ∈ text, b ≠ 10) :
    runChars ctx text = ctx := by
  induction text with
  | nil => rfl
  | cons b rest ih =>
    have stays : parseChar ctx (charToInt b) = ctx := by
      obtain ⟨state, _, _, _, _⟩ := ctx
      obtain rfl : state = .findeol := comment
      simp [parseChar, findeol, (oneLine b List.mem_cons_self), enter]
    rw [runChars_cons, stays]
    exact ih fun c member => oneLine c (List.mem_cons_of_mem b member)

theorem quotecollect_loose (ctx : PconfCtx) {written meaning : CString} (loose : Loose written meaning)
    (quoted : ctx.state = .quotecollect) : (runChars ctx written).state = .quotecollect := by
  induction loose generalizing ctx with
  | nil => exact quoted
  | space rest ih =>
    apply ih
    simp only [parseChar, quoted]
    rfl
  | @raw b written meaning text plain rest ih =>
    apply ih
    simp [parseChar, quoted, quotecollect, plain.2.1, plain.2.2.2, enter]
  | escaped text rest ih =>
    have literal : parseChar ctx (charToInt 92) = { ctx with state := .qcLiteral } := by
      simp only [parseChar, quoted]
      rfl
    simp only [runChars_cons, literal]
    apply ih
    simp [parseChar, qcLiteral, isText_ne_newline text, enter]

theorem collectliteral_last {text : CString} {ctx : PconfCtx} (started : ctx.state ≠ .collectliteral)
    (literal : (runChars ctx text).state = .collectliteral) : ∃ rest, text = rest ++ [92] := by
  induction text using List.reverseRecOn with
  | nil => exact absurd literal started
  | append_singleton rest b _ =>
    rw [runChars_append] at literal
    simp only [runChars_cons, runChars_nil] at literal
    refine ⟨rest, ?_⟩
    by_cases escape : b = 92
    · rw [escape]
    · exfalso
      generalize runChars ctx rest = before at literal
      cases state : before.state <;>
        simp only [parseChar, state, enter, findwordstart, findeol, quotecollect, qcLiteral, collect,
          collectliteral, charToInt_backslash, escape, if_false] at literal
      all_goals (try split_ifs at literal) <;> simp_all

end States

theorem loosens_newline {ctx : PconfCtx} (unquoted : Unquoted ctx) :
    content (parseChar ctx (charToInt 10)) ≤ content ctx ∧
      ∃ more, (parseChar ctx (charToInt 10)).arglist = ctx.arglist ++ more ∧ [] ∉ more := by
  obtain ⟨state, _⟩ | ⟨state, nonempty⟩ := unquoted
  · simp only [parseChar, state]
    exact ⟨Nat.le_refl _, [], by simp [enter, findwordstart], by simp⟩
  · simp only [parseChar, state]
    exact ⟨(grows_endofword ctx).content, endofword_words nonempty⟩

theorem loose_line (ctx : PconfCtx) (limit : ctx.wordlenLimit ≠ 0) (unquoted : Unquoted ctx)
    {rest meaning : CString} (loose : Loose rest meaning) :
    content (runChars ctx (rest ++ [10])) ≤ content ctx + meaning.length ∧
      ∃ more, (runChars ctx (rest ++ [10])).arglist = ctx.arglist ++ more ∧ [] ∉ more := by
  have run := loosens_run loose limit unquoted
  obtain ⟨total, more, words, full⟩ := loosens_newline run.unquoted
  obtain ⟨more', words', full'⟩ := run.words
  rw [runChars_append]
  refine ⟨Nat.le_trans total run.content, more' ++ more, ?_, by simp [full, full']⟩
  simp only [runChars_cons, runChars_nil, words, words', List.append_assoc]

section Totals

variable {argLimit wordlenLimit : Nat}

theorem totalLength_append (a b : List CString) : totalLength (a ++ b) = totalLength a + totalLength b := by
  simp [totalLength]

theorem totalLength_prefix {a b : List CString} (isPrefix : a <+: b) : totalLength a ≤ totalLength b := by
  obtain ⟨rest, rfl⟩ := isPrefix
  rw [totalLength_append]
  exact Nat.le_add_right _ _

theorem totalLength_addArgs (args words : List CString) :
    totalLength (addArgs argLimit wordlenLimit args words) ≤ totalLength args + totalLength words := by
  induction words generalizing args with
  | nil => exact Nat.le_refl _
  | cons word rest ih =>
    have first : totalLength (addArg argLimit args (clip wordlenLimit word)) ≤ totalLength args + word.length := by
      have shorter : (clip wordlenLimit word).length ≤ word.length := by
        unfold clip
        split
        · exact Nat.le_refl _
        · exact List.length_take_le' _ _
      unfold addArg
      split
      · omega
      · simp only [totalLength_append]
        simp [totalLength]
        omega
    have later := ih (addArg argLimit args (clip wordlenLimit word))
    have whole : totalLength (word :: rest) = word.length + totalLength rest := by simp [totalLength]
    simp only [addArgs, List.foldl_cons] at later ⊢
    omega

end Totals

section Escapes

variable {value : CString}

theorem loose_append {a b meaning meaning' : CString} (first : Loose a meaning) (second : Loose b meaning') :
    Loose (a ++ b) (meaning ++ meaning') := by
  induction first with
  | nil => exact second
  | space _ ih => exact .space ih
  | raw text plain _ ih => exact .raw text plain ih
  | escaped text _ ih => exact .escaped text ih

theorem loose_escapeAll (isText : ∀ b ∈ value, isText b = true) :
    ∃ meaning, Loose (escapeAll value) meaning ∧ meaning.length ≤ value.length := by
  induction value with
  | nil => exact ⟨[], .nil, Nat.le_refl _⟩
  | cons b rest ih =>
    have text := isText b List.mem_cons_self
    obtain ⟨meaning, loose, shorter⟩ := ih fun c member => isText c (List.mem_cons_of_mem b member)
    by_cases special : pconfEscape b = true
    · refine ⟨b :: meaning, ?_, by simpa using shorter⟩
      simp only [escapeAll_cons, special, if_true]
      exact .escaped text loose
    · have plain : b ≠ 35 ∧ b ≠ 92 ∧ b ≠ 34 := by simpa [pconfEscape, and_assoc] using special
      by_cases space : b = 32
      · subst space
        exact ⟨meaning, .space loose, by simp; omega⟩
      · refine ⟨b :: meaning, ?_, by simpa using shorter⟩
        simp only [escapeAll_cons, special, Bool.false_eq_true, if_false]
        exact .raw text ⟨space, plain.2.2, plain.1, plain.2.1⟩ loose

end Escapes

theorem runChars_not_done {ctx : PconfCtx} (running : lineDone ctx = false) {text : CString}
    (oneLine : ∀ b ∈ text, b ≠ 10) : lineDone (runChars ctx text) = false := by
  induction text generalizing ctx with
  | nil => exact running
  | cons b rest ih =>
    exact ih (parseChar_not_done running (oneLine b List.mem_cons_self))
      fun c member => oneLine c (List.mem_cons_of_mem b member)

end Nut
