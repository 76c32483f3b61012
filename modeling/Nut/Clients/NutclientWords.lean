import Nut.Clients.Nutclient
import Nut.Common.ParseConfEof
import Nut.Drivers.DstateLines

set_option autoImplicit false

namespace Nut

inductive Spelling where
  /-- By `pconf_encode` into a buffer of `destsize` bytes that held `old` before. -/
  | encoded (word old : CString) (destsize : Nat) (printable : ∀ b ∈ word, isText b = true)
      (room : (escapeAll word).length < destsize)
  | escaped (word : CString) (printable : ∀ b ∈ word, isText b = true)
  | bare (word : CString) (nonempty : word ≠ []) (name : ∀ b ∈ word, isNameChar b = true)

def Spelling.word : Spelling -> CString
  | encoded word _ _ _ _ | escaped word _ | bare word _ _ => word

def Spelling.text : Spelling -> CString
  | encoded word old destsize _ _ => 34 :: pconfEncode word old destsize ++ [34]
  | escaped word _ => escape word
  | bare word _ _ => word

def spelledLine (words : List Spelling) : CString :=
  ([32] : CString).intercalate (words.map Spelling.text)

-- The sum of a backslash and a `#`.
def garbled (b : UInt8) : UInt8 :=
  if b = 35 then 127 else b

def Spelling.read : Spelling -> CString
  | encoded word _ _ _ _ => word.map garbled
  | escaped word _ | bare word _ _ => word

def Spelling.Known : Spelling -> Prop
  | encoded word _ _ _ _ => 35 ∉ word
  | escaped _ _ | bare _ _ _ => True

theorem pconfEncode_room {destsize : Nat} {src : CString} (room : (escapeAll src).length < destsize) (old : CString) :
    pconfEncode src old destsize = escapeAll src := by
  by_cases wide : 2 ≤ destsize
  · exact pconfEncode_whole room wide old
  · have one : destsize = 1 := by omega
    have nothing : escapeAll src = [] := List.length_eq_zero_iff.mp (by omega)
    rw [escapeAll_eq_nil] at nothing
    subst one nothing
    rfl

section Parser

theorem quotedAs_escape {word : CString} (printable : ∀ b ∈ word, isText b = true) :
    QuotedAs (word.flatMap escapeChar) word := by
  induction word with
  | nil => exact .nil
  | cons b word ih =>
    have head := printable b List.mem_cons_self
    have tail := ih fun c member => printable c (List.mem_cons_of_mem b member)
    rw [List.flatMap_cons, escapeChar]
    split_ifs with quote backslash
    · subst quote
      exact .escaped head tail
    · subst backslash
      exact .escaped head tail
    · exact .raw head quote backslash tail

theorem bareWord_name {word : CString} (nonempty : word ≠ []) (name : ∀ b ∈ word, isNameChar b = true) :
    BareWord word := by
  refine ⟨nonempty, ?_, fun b member => (isBare_nameChar (name b member)).1⟩
  intro first
  exact (isBare_nameChar (name 34 (List.mem_of_mem_head? first))).2 rfl

theorem Spelling.token (s : Spelling) : Token s.text s.word := by
  cases s with
  | encoded word old destsize printable room =>
    rw [text, pconfEncode_room room]
    exact .quoted (quotedAs_escapeAll printable)
  | escaped word printable => exact .quoted (quotedAs_escape printable)
  | bare word nonempty name => exact (bareWord_name nonempty name).token

theorem lineOf_spelled (first : Spelling) (rest : List Spelling) :
    LineOf (spelledLine (first :: rest)) ((first :: rest).map Spelling.word) := by
  induction rest generalizing first with
  | nil => simpa [spelledLine] using LineOf.last first.token
  | cons second rest ih =>
    have more := LineOf.more first.token (ih second)
    simpa [spelledLine, List.intercalate_cons_cons] using more

theorem pconfLine_spelled (argLimit wordlenLimit : Nat) (words : List Spelling) :
    (pconfLine (pconfInitWith argLimit wordlenLimit) (spelledLine words)).arglist =
      addArgs argLimit wordlenLimit [] (words.map Spelling.word) := by
  cases words with
  | nil => rfl
  | cons first rest => exact pconfLine_words argLimit wordlenLimit (lineOf_spelled first rest)

end Parser

section Explode

variable (res : List CString)

theorem explode_encoded (word : CString) :
    explodeChars ⟨.init, [], res⟩ (34 :: escapeAll word ++ [34]) = ⟨.init, [], res ++ [word.map garbled]⟩ := by
  refine explode_quotedWord res (fun temp c => ?_) word
  by_cases special : pconfEscape c = true
  · have which : (c = 35 ∨ c = 92) ∨ c = 34 := by simpa [pconfEscape] using special
    obtain (rfl | rfl) | rfl := which <;> rfl
  · have plain : c ≠ 35 ∧ c ≠ 92 ∧ c ≠ 34 := by simpa [pconfEscape, and_assoc] using special
    simp only [special, Bool.false_eq_true, if_false, explodeChars_cons, explodeChars_nil, garbled, plain.1,
      explode_quotedChar temp res plain.2.2 plain.2.1]

theorem isSimple_name {b : UInt8} (name : isNameChar b = true) : IsSimple b := by
  obtain ⟨bare, noQuote⟩ := isBare_nameChar name
  obtain ⟨_, notSpace, _, _, notEscape⟩ := isBare_iff.mp bare
  exact ⟨notSpace, noQuote, notEscape⟩

theorem explode_spelling (s : Spelling) : explodeChars ⟨.init, [], res⟩ s.text = ⟨.init, [], res ++ [s.read]⟩ ∨
      s.read ≠ [] ∧ explodeChars ⟨.init, [], res⟩ s.text = ⟨.simpleString, s.read, res⟩ := by
  cases s with
  | encoded word old destsize printable room =>
    rw [Spelling.text, pconfEncode_room room]
    exact .inl (explode_encoded res word)
  | escaped word printable => exact .inl (explode_escape res word)
  | bare word nonempty name =>
    exact .inr ⟨nonempty, explode_simpleWord res (fun b member => isSimple_name (name b member)) nonempty⟩

theorem explode_spelling_end (s : Spelling) : (explodeChars ⟨.init, [], res⟩ s.text).finish = res ++ [s.read] := by
  obtain quoted | ⟨nonempty, bare⟩ := explode_spelling res s
  · simp [quoted, Exploder.finish]
  · simp [bare, Exploder.finish, nonempty]

theorem explode_spelling_space (s : Spelling) :
    explodeChars ⟨.init, [], res⟩ (s.text ++ [32]) = ⟨.init, [], res ++ [s.read]⟩ := by
  rw [explodeChars_append]
  obtain quoted | ⟨_, bare⟩ := explode_spelling res s
  · simp [quoted, explode_space]
  · simp [bare, explode_word_space]

theorem explodeChars_spelled (words : List Spelling) :
    (explodeChars ⟨.init, [], res⟩ (spelledLine words)).finish = res ++ words.map Spelling.read := by
  induction words generalizing res with
  | nil => simp [spelledLine, Exploder.finish]
  | cons first rest ih =>
    cases rest with
    | nil => simpa [spelledLine] using explode_spelling_end res first
    | cons second rest =>
      have line : spelledLine (first :: second :: rest) = (first.text ++ [32]) ++ spelledLine (second :: rest) := by
        simp [spelledLine, List.intercalate_cons_cons]
      rw [line, explodeChars_append, explode_spelling_space, ih]
      simp

theorem explode_spelled (words : List Spelling) : explode (spelledLine words) 0 = words.map Spelling.read := by
  simpa [explode] using explodeChars_spelled [] words

theorem map_garbled_iff (word : CString) : word.map garbled = word ↔ 35 ∉ word := by
  have each : word.map garbled = word ↔ ∀ b ∈ word, garbled b = id b := by
    rw [<- List.map_inj_left, List.map_id]
  rw [each]
  constructor
  · intro same member
    cases same 35 member
  · intro free b member
    have other : b ≠ 35 := fun hash => free (hash ▸ member)
    rw [garbled, if_neg other, id]

theorem Spelling.read_iff (s : Spelling) : s.read = s.word ↔ s.Known := by
  cases s with
  | encoded word old destsize printable room => exact map_garbled_iff word
  | escaped | bare => simp [read, Spelling.word, Known]

end Explode

-- `explode` returns the words of the line, and `pconf_line` the same, as far as its limits allow.
def ReadAlike (words : List Spelling) : Prop :=
  explode (spelledLine words) 0 = words.map Spelling.word ∧
    ∀ argLimit wordlenLimit, (pconfLine (pconfInitWith argLimit wordlenLimit) (spelledLine words)).arglist =
      addArgs argLimit wordlenLimit [] (words.map Spelling.word)

-- Only a `#` that `pconf_encode` has escaped comes out as another character.
theorem readAlike_iff (words : List Spelling) : ReadAlike words ↔ ∀ s ∈ words, s.Known := by
  have alike : explode (spelledLine words) 0 = words.map Spelling.word ↔ ∀ s ∈ words, s.Known := by
    rw [explode_spelled, List.map_inj_left]
    simp only [Spelling.read_iff]
  exact ⟨fun read => alike.mp read.1, fun known => ⟨alike.mpr known, fun argLimit wordlenLimit =>
    pconfLine_spelled argLimit wordlenLimit words⟩⟩

theorem not_readAlike_hash :
    explode (spelledLine [.encoded (cstr "#") [] 8 (by decide +kernel) (by decide)]) 0 = [[127]] ∧
      ¬ ReadAlike [.encoded (cstr "#") [] 8 (by decide +kernel) (by decide)] := by
  refine ⟨by decide, fun alike => ?_⟩
  have read := alike.1
  revert read
  decide

end Nut
