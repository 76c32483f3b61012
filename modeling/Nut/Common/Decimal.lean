import Mathlib.Data.List.TakeWhile
import Nut.Common.ParseConfWords

set_option autoImplicit false

namespace Nut

def digitByte (c : Char) : UInt8 :=
  UInt8.ofNat c.toNat

theorem digitByte_toNat {c : Char} (digit : c.isDigit = true) :
    (digitByte c).toNat = c.toNat ∧ 48 ≤ c.toNat ∧ c.toNat ≤ 57 := by
  have bounds : 48 ≤ c.toNat ∧ c.toNat ≤ 57 := Char.isDigit_iff_toNat.mp digit
  refine ⟨?_, bounds⟩
  rw [digitByte, UInt8.toNat_ofNat']
  omega

theorem isdigit_digitByte {c : Char} (digit : c.isDigit = true) : isdigit (digitByte c) = true := by
  obtain ⟨value, low, high⟩ := digitByte_toNat digit
  simp [isdigit, UInt8.le_iff_toNat_le, value, low, high]

theorem digitsValue_digits {digits : List Char} (allDigits : ∀ c ∈ digits, c.isDigit = true) {rest : CString}
    (stop : rest.takeWhile isdigit = []) :
    digitsValue (digits.map digitByte ++ rest) = Nat.ofDigitChars 10 digits 0 := by
  have whole : (digits.map digitByte ++ rest).takeWhile isdigit = digits.map digitByte := by
    rw [List.takeWhile_append_of_pos, stop, List.append_nil]
    intro b member
    obtain ⟨c, inside, rfl⟩ := List.mem_map.mp member
    exact isdigit_digitByte (allDigits c inside)
  rw [digitsValue, whole, Nat.ofDigitChars_eq_foldl, List.foldl_map]
  apply List.foldl_ext
  intro value c member
  obtain ⟨same, _, _⟩ := digitByte_toNat (allDigits c member)
  rw [same]
  rfl

theorem digitsValue_toDigits (n : Nat) {rest : CString} (stop : rest.takeWhile isdigit = []) :
    digitsValue ((Nat.toDigits 10 n).map digitByte ++ rest) = n := by
  rw [digitsValue_digits (fun c member => Nat.isDigit_of_mem_toDigits (by decide) (by decide) member) stop]
  exact Nat.ofDigitChars_toDigits (by decide) (by decide)

theorem printInt_eq (i : Int) :
    printInt i = (if i < 0 then [45] else []) ++ (Nat.toDigits 10 i.natAbs).map digitByte := by
  unfold printInt digitByte
  split <;> rfl

theorem printInt_digits (n : Nat) : ∀ b ∈ printInt n, isdigit b = true := by
  intro b member
  have digits : printInt n = (Nat.toDigits 10 n).map digitByte := by
    rw [printInt_eq, if_neg (by omega), Int.natAbs_natCast, List.nil_append]
  rw [digits] at member
  obtain ⟨c, inside, rfl⟩ := List.mem_map.mp member
  exact isdigit_digitByte (Nat.isDigit_of_mem_toDigits (by decide) (by decide) inside)

theorem isdigit_notSpace {b : UInt8} (digit : isdigit b = true) : isspace (charToInt b) = false ∧ b ≠ 45 ∧ b ≠ 43 := by
  have bounds : 48 ≤ b.toNat ∧ b.toNat ≤ 57 := by
    simpa [isdigit, UInt8.le_iff_toNat_le] using digit
  have text : isText b = true := isText_iff.mpr (by omega)
  have apart (n : Nat) (low : n < 48) : b ≠ UInt8.ofNat n := by
    intro same
    rw [same, UInt8.toNat_ofNat'] at bounds
    omega
  exact ⟨isspace_text text (apart 32 (by omega)), apart 45 (by omega), apart 43 (by omega)⟩

theorem strtol_digit {b : UInt8} (digit : isdigit b = true) (rest : CString) :
    strtol (b :: rest) = Int64.ofInt (max longMin (min longMax (digitsValue (b :: rest)))) := by
  obtain ⟨skip, notMinus, notPlus⟩ := isdigit_notSpace digit
  simp only [strtol, List.dropWhile_cons, skip, Bool.false_eq_true, if_false]
  split
  next same => exact absurd (List.cons.inj same).1 notMinus
  next same => exact absurd (List.cons.inj same).1 notPlus
  next => rfl

theorem strtol_printInt_append {i : Int} (low : longMin ≤ i) (high : i ≤ longMax) {rest : CString}
    (stop : rest.takeWhile isdigit = []) : strtol (printInt i ++ rest) = Int64.ofInt i := by
  have value := digitsValue_toDigits i.natAbs stop
  have clamp : max longMin (min longMax i) = i := by omega
  rw [printInt_eq]
  by_cases negative : i < 0
  · have skip : isspace (charToInt 45) = false := by decide
    have sign : -(i.natAbs : Int) = i := by omega
    simp only [negative, if_true, strtol, List.cons_append, List.nil_append, List.dropWhile_cons, skip,
      Bool.false_eq_true, if_false, value, sign, clamp]
  · have sign : (i.natAbs : Int) = i := by omega
    cases digits : (Nat.toDigits 10 i.natAbs).map digitByte with
    | nil =>
      have none := List.map_eq_nil_iff.mp digits
      exact absurd none Nat.toDigits_ne_nil
    | cons b more =>
      rw [digits] at value
      have digit : isdigit b = true := by
        have member : b ∈ (Nat.toDigits 10 i.natAbs).map digitByte := by simp [digits]
        obtain ⟨c, inside, rfl⟩ := List.mem_map.mp member
        exact isdigit_digitByte (Nat.isDigit_of_mem_toDigits (by decide) (by decide) inside)
      rw [if_neg negative, List.nil_append, List.cons_append, strtol_digit digit, <- List.cons_append, value, sign, clamp]

theorem strtol_printInt {i : Int} (low : longMin ≤ i) (high : i ≤ longMax) : strtol (printInt i) = Int64.ofInt i := by
  have read := strtol_printInt_append low high (List.takeWhile_nil : ([] : CString).takeWhile isdigit = [])
  simpa using read

theorem strtol_printInt_int64 (x : Int64) : strtol (printInt x.toInt) = x := by
  have low := x.le_toInt
  have high := x.toInt_lt
  rw [strtol_printInt (by simpa [longMin] using low) (by simp only [longMax]; omega)]
  exact Int64.ofInt_toInt x

theorem atoi_printInt (x : Int32) : atoi (printInt x.toInt) = x := by
  have low := x.le_toInt
  have high := x.toInt_lt
  rw [atoi, strtol_printInt (by simp only [longMin]; omega) (by simp only [longMax]; omega)]
  simp

theorem printInt_length {i : Int} {k : Nat} (small : i.natAbs < 10 ^ k) (positive : 0 < k) :
    (printInt i).length ≤ k + 1 := by
  have digits := (Nat.length_toDigits_le_iff (by decide : 1 < 10) positive).mpr small
  rw [printInt_eq, List.length_append, List.length_map]
  split <;> simp only [List.length_cons, List.length_nil] <;> omega

theorem printInt_length_int32 (x : Int32) : (printInt x.toInt).length ≤ 11 := by
  have low := x.le_toInt
  have high := x.toInt_lt
  exact printInt_length (by omega) (by decide)

theorem printInt_length_int64 (x : Int64) : (printInt x.toInt).length ≤ 20 := by
  have low := x.le_toInt
  have high := x.toInt_lt
  exact printInt_length (by omega) (by decide)

end Nut
