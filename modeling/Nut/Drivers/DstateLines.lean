import Nut.Common.Decimal
import Nut.Common.ParseConfReader
import Nut.Drivers.Dstate

set_option autoImplicit false

namespace Nut

def isNameChar (b : UInt8) : Bool :=
  (97 ≤ b && b ≤ 122) || (65 ≤ b && b ≤ 90) || isdigit b || b == 46 || b == 45 || b == 95

def IsName (name : CString) : Prop :=
  name ≠ [] ∧ name.length ≤ 200 ∧ ∀ b ∈ name, isNameChar b = true

instance (name : CString) : Decidable (IsName name) :=
  decidable_of_iff (name ≠ [] ∧ name.length ≤ 200 ∧ name.all isNameChar = true) (by simp [IsName])

theorem isBare_nameChar {b : UInt8} (name : isNameChar b = true) : isBare b = true ∧ b ≠ 34 := by
  simp only [isNameChar, isdigit, Bool.or_eq_true, Bool.and_eq_true, decide_eq_true_eq, beq_iff_eq,
    UInt8.le_iff_toNat_le, <- UInt8.toNat_inj] at name
  simp only [isBare_iff, isText_iff, ne_eq, <- UInt8.toNat_inj]
  simp at name ⊢
  omega

theorem IsName.bareWord {name : CString} (isName : IsName name) : BareWord name := by
  refine ⟨isName.1, ?_, fun b member => (isBare_nameChar (isName.2.2 b member)).1⟩
  intro first
  have member : 34 ∈ name := List.mem_of_mem_head? first
  exact (isBare_nameChar (isName.2.2 34 member)).2 rfl

theorem bareWord_printInt (i : Int) : BareWord (printInt i) := by
  have digit (b : UInt8) (member : b ∈ (Nat.toDigits 10 i.natAbs).map digitByte) : isNameChar b = true := by
    obtain ⟨c, inside, rfl⟩ := List.mem_map.mp member
    have isDigit := isdigit_digitByte (Nat.isDigit_of_mem_toDigits (by decide) (by decide) inside)
    simp [isNameChar, isDigit]
  have name (b : UInt8) (member : b ∈ printInt i) : isNameChar b = true := by
    rw [printInt_eq] at member
    obtain sign | member := List.mem_append.mp member
    · split at sign
      · simp only [List.mem_cons, List.not_mem_nil, or_false] at sign
        subst sign
        rfl
      · cases sign
    · exact digit b member
  refine ⟨?_, ?_, fun b member => (isBare_nameChar (name b member)).1⟩
  · rw [printInt_eq]
    simp [Nat.toDigits_ne_nil]
  · intro first
    exact (isBare_nameChar (name 34 (List.mem_of_mem_head? first))).2 rfl

section Lines

variable {keyword var : CString} (keywordBare : BareWord keyword) (short : keyword.length ≤ 8)
  (isName : IsName var)

include keywordBare short isName

theorem isLine_formatWord : IsLine 32 512 (formatWord keyword var) [keyword, var] ∧
      (formatWord keyword var).length < stSockBufLen := by
  have varLength := isName.2.1
  refine ⟨⟨_, ?_, .ofToken keywordBare.token (.last isName.bareWord.token), by simp, ?_⟩, ?_⟩
  · simp [formatWord, show cstr " " = [32] from rfl, show cstr "\n" = [10] from rfl]
  · simp only [List.forall_mem_cons, List.not_mem_nil, false_imp_iff, implies_true, and_true]
    omega
  · simp only [formatWord, List.length_append, stSockBufLen, show (cstr " ").length = 1 from rfl,
      show (cstr "\n").length = 1 from rfl]
    omega

theorem isLine_formatValue {written meaning : CString} (quoted : QuotedAs written meaning)
    (writtenShort : written.length < stMaxValueLen) (meaningShort : meaning.length < stMaxValueLen) :
    IsLine 32 512 (formatValue keyword var written) [keyword, var, meaning] ∧
      (formatValue keyword var written).length < stSockBufLen := by
  have varLength := isName.2.1
  simp only [stMaxValueLen] at writtenShort meaningShort
  refine ⟨⟨_, ?_, .ofToken keywordBare.token (.ofToken isName.bareWord.token
    (.last (token_quoted quoted))), by simp, ?_⟩, ?_⟩
  · simp [formatValue, show cstr " " = [32] from rfl, show cstr " \"" = [32, 34] from rfl,
      show cstr "\"\n" = [34, 10] from rfl]
  · simp only [List.forall_mem_cons, List.not_mem_nil, false_imp_iff, implies_true, and_true]
    omega
  · simp only [formatValue, List.length_append, stSockBufLen, show (cstr " ").length = 1 from rfl,
      show (cstr " \"").length = 2 from rfl, show (cstr "\"\n").length = 2 from rfl]
    omega

theorem isLine_formatRange (min max : Int32) : IsLine 32 512 (formatRange keyword var min max)
        [keyword, var, printInt min.toInt, printInt max.toInt] ∧
      (formatRange keyword var min max).length < stSockBufLen := by
  have varLength := isName.2.1
  have minLength := printInt_length_int32 min
  have maxLength := printInt_length_int32 max
  refine ⟨⟨_, ?_, .ofToken keywordBare.token (.ofToken isName.bareWord.token
    (.ofToken (bareWord_printInt min.toInt).token (.last (bareWord_printInt max.toInt).token))),
    by simp, ?_⟩, ?_⟩
  · simp [formatRange, show cstr " " = [32] from rfl, show cstr "\n" = [10] from rfl]
  · simp only [List.forall_mem_cons, List.not_mem_nil, false_imp_iff, implies_true, and_true]
    omega
  · simp only [formatRange, List.length_append, stSockBufLen, show (cstr " ").length = 1 from rfl,
      show (cstr "\n").length = 1 from rfl]
    omega

end Lines

theorem isLine_formatAux {var : CString} (isName : IsName var) (aux : Int64) :
    IsLine 32 512 (formatAux var aux) [cstr "SETAUX", var, printInt aux.toInt] ∧
      (formatAux var aux).length < stSockBufLen := by
  have varLength := isName.2.1
  have auxLength := printInt_length_int64 aux
  have keywordBare : BareWord (cstr "SETAUX") := by decide
  refine ⟨⟨_, ?_, .ofToken keywordBare.token (.ofToken isName.bareWord.token
    (.last (bareWord_printInt aux.toInt).token)), by simp, ?_⟩, ?_⟩
  · simp [formatAux, show cstr "SETAUX " = cstr "SETAUX" ++ [32] from rfl,
      show cstr " " = [32] from rfl, show cstr "\n" = [10] from rfl]
  · simp only [List.forall_mem_cons, List.not_mem_nil, false_imp_iff, implies_true, and_true,
      show (cstr "SETAUX").length = 6 from rfl]
    omega
  · simp only [formatAux, List.length_append, stSockBufLen, show (cstr "SETAUX ").length = 7 from rfl,
      show (cstr " ").length = 1 from rfl, show (cstr "\n").length = 1 from rfl]
    omega

theorem line_words {first : CString} {rest : List CString} (firstBare : BareWord first)
    (bare : ∀ word ∈ rest, BareWord word) : LineOf (first ++ rest.flatMap fun word => 32 :: word) (first :: rest) := by
  induction rest generalizing first with
  | nil => simpa using LineOf.last firstBare.token
  | cons word rest ih =>
    have later := ih (bare word (by simp)) (fun other member => bare other (by simp [member]))
    exact .more firstBare.token later

def flagWords (flags : BitVec 32) : List CString :=
  (if flags &&& stFlagRw ≠ 0 then [cstr "RW"] else []) ++
    (if flags &&& stFlagString ≠ 0 then [cstr "STRING"] else []) ++
    (if flags &&& stFlagNumber ≠ 0 then [cstr "NUMBER"] else [])

theorem flagWord_fits {flags flag : BitVec 32} {word flist : CString}
    (fits : flist.length + word.length + 1 < smallbuf) :
    flagWord flags flag word flist = flist ++ (if flags &&& flag ≠ 0 then word else []) := by
  by_cases shown : flags &&& flag ≠ 0
  · rw [flagWord, if_pos shown, if_pos shown, snprintfcat_fits fits]
  · rw [flagWord, if_neg shown, if_neg shown, List.append_nil]

theorem flagList_eq {var : CString} (short : var.length ≤ 200) (flags : BitVec 32) :
    flagList var flags = var ++ (flagWords flags).flatMap fun word => 32 :: word := by
  have optional (shown : Prop) [Decidable shown] (word : CString) :
      (if shown then word else []).length ≤ word.length := by split <;> simp
  have lengthRw := optional (flags &&& stFlagRw ≠ 0) (cstr " RW")
  have lengthString := optional (flags &&& stFlagString ≠ 0) (cstr " STRING")
  rw [show (cstr " RW").length = 3 from rfl] at lengthRw
  rw [show (cstr " STRING").length = 7 from rfl] at lengthString
  have start : snprintf smallbuf var = var := snprintf_fits (by simp only [smallbuf]; omega)
  have first : flagWord flags stFlagRw (cstr " RW") var = var ++ (if flags &&& stFlagRw ≠ 0 then cstr " RW" else []) :=
    flagWord_fits (by simp only [smallbuf, show (cstr " RW").length = 3 from rfl]; omega)
  have second : flagWord flags stFlagString (cstr " STRING")
        (var ++ (if flags &&& stFlagRw ≠ 0 then cstr " RW" else [])) =
      var ++ (if flags &&& stFlagRw ≠ 0 then cstr " RW" else []) ++
        (if flags &&& stFlagString ≠ 0 then cstr " STRING" else []) := by
    apply flagWord_fits
    simp only [List.length_append, smallbuf, show (cstr " STRING").length = 7 from rfl]
    omega
  rw [flagList, start, first, second, flagWord_fits]
  · simp only [flagWords, show cstr " RW" = 32 :: cstr "RW" from rfl,
      show cstr " STRING" = 32 :: cstr "STRING" from rfl, show cstr " NUMBER" = 32 :: cstr "NUMBER" from rfl]
    split_ifs <;> simp
  · simp only [List.length_append, smallbuf, show (cstr " NUMBER").length = 7 from rfl]
    omega

theorem mem_flagWords {flags : BitVec 32} {word : CString} (member : word ∈ flagWords flags) :
    BareWord word ∧ word.length ≤ 6 := by
  have optional {shown : Prop} [Decidable shown] {item word : CString}
      (member : word ∈ if shown then [item] else []) : word = item := by
    split at member <;> simp_all
  simp only [flagWords, List.mem_append] at member
  obtain (member | member) | member := member
  · rw [optional member]; decide
  · rw [optional member]; decide
  · rw [optional member]; decide

theorem isLine_setflags {var : CString} (isName : IsName var) (flags : BitVec 32) :
    IsLine 32 512 (cstr "SETFLAGS " ++ flagList var flags ++ cstr "\n") (cstr "SETFLAGS" :: var :: flagWords flags) ∧
      (cstr "SETFLAGS " ++ flagList var flags ++ cstr "\n").length < stSockBufLen := by
  have varLength := isName.2.1
  have words : ∀ word ∈ cstr "SETFLAGS" :: var :: flagWords flags, BareWord word := by
    intro word member
    simp only [List.mem_cons] at member
    obtain rfl | rfl | member := member
    · decide
    · exact isName.bareWord
    · exact (mem_flagWords member).1
  have line := line_words (words _ List.mem_cons_self)
    fun word member => words word (List.mem_cons_of_mem _ member)
  rw [flagList_eq varLength]
  refine ⟨⟨_, ?_, line, ?_, ?_⟩, ?_⟩
  · simp [show cstr "SETFLAGS " = cstr "SETFLAGS" ++ [32] from rfl, show cstr "\n" = [10] from rfl]
  · simp only [flagWords]
    split_ifs <;> simp
  · intro word member
    simp only [List.mem_cons] at member
    obtain rfl | rfl | member := member
    · decide
    · omega
    · have := (mem_flagWords member).2
      omega
  · have added : ((flagWords flags).flatMap fun word => 32 :: word).length ≤ 17 := by
      simp only [flagWords]
      split_ifs <;> decide
    simp only [List.length_append, stSockBufLen, show (cstr "SETFLAGS ").length = 9 from rfl,
      show (cstr "\n").length = 1 from rfl]
    omega

theorem sockLine_fits {text : CString} (some : text ≠ []) (fits : text.length < stSockBufLen) :
    sockLine text = [text] := by
  rw [sockLine, if_neg some, snprintf_fits fits]

end Nut
