import Nut.Drivers.HidValues

set_option autoImplicit false

namespace Nut

def fieldNat (buf : List UInt8) : Nat -> Nat -> Nat
  | 0, _ => 0
  | count + 1, bit => (bitAt buf bit).toNat + 2 * fieldNat buf count (bit + 1)

-- What the bits stand for: a number without a sign, or in two's complement when `LogMin` is negative.
def HIDData.denotes (item : HIDData) (buf : List UInt8) : Int :=
  let bits := fieldNat buf item.size.toNat (item.offset.toNat + 8)
  if 0 ≤ item.logMin.toInt ∨ bits < 2 ^ (item.size.toNat - 1) then bits else (bits : Int) - 2 ^ item.size.toNat

-- `GetValue` finds the sign bit, or does not need it.
def HIDData.Readable (item : HIDData) (value : Int) : Prop :=
  0 ≤ item.logMin.toInt ∨ 0 ≤ value ∨ value = item.logMax.toInt ∨
    -2 ^ (item.size.toNat - 1) ≤ item.logMin.toInt ∧ item.logMax.toInt < 2 ^ (item.size.toNat - 1)

section Bits

variable {buf : List UInt8}

theorem fieldNat_lt (count bit : Nat) : fieldNat buf count bit < 2 ^ count := by
  induction count generalizing bit with
  | zero => simp [fieldNat]
  | succ count ih =>
    have rest := ih (bit + 1)
    have first := Bool.toNat_le (bitAt buf bit)
    rw [fieldNat, Nat.pow_succ]
    omega

theorem fieldNat_testBit (count bit i : Nat) :
    (fieldNat buf count bit).testBit i = (decide (i < count) && bitAt buf (bit + i)) := by
  induction count generalizing bit i with
  | zero => simp [fieldNat]
  | succ count ih =>
    cases i with
    | zero =>
      rw [fieldNat, Nat.testBit_zero]
      cases bitAt buf bit <;> simp
    | succ i =>
      have half : ((bitAt buf bit).toNat + 2 * fieldNat buf count (bit + 1)) / 2 = fieldNat buf count (bit + 1) := by
        have first := Bool.toNat_le (bitAt buf bit)
        omega
      rw [fieldNat, Nat.testBit_succ, half, ih, show bit + 1 + i = bit + (i + 1) by omega]
      simp

end Bits

section Adjust

variable {item : HIDData} {value : BitVec 64}

theorem adjustValue_range (ordered : item.logMin.toInt ≤ item.logMax.toInt) :
    item.logMin.toInt ≤ (adjustValue item value).toInt ∧ (adjustValue item value).toInt ≤ item.logMax.toInt := by
  unfold adjustValue
  dsimp only
  generalize Int64.ofBitVec _ = read
  split
  next => exact ⟨Int.le_refl _, ordered⟩
  next notLess =>
    split
    next => exact ⟨ordered, Int.le_refl _⟩
    next notMore =>
      rw [Int64.lt_iff_toInt_lt] at notLess
      rw [gt_iff_lt, Int64.lt_iff_toInt_lt] at notMore
      omega

theorem adjustValue_small {high : Nat} (sign : signbit item = 1#64 <<< high) (inside : high < 64)
    (small : value.toNat < 2 ^ high) : (adjustValue item value).toInt =
      if (value.toNat : Int) < item.logMin.toInt then item.logMin.toInt
      else if item.logMax.toInt < value.toNat then item.logMax.toInt else value.toNat := by
  have low (i : Nat) (above : high ≤ i) : value.getLsbD i = false :=
    Nat.testBit_lt_two_pow (Nat.lt_of_lt_of_le small (Nat.pow_le_pow_right (by decide) above))
  have masked : value &&& ((signbit item - 1) ||| (if item.logMin < 0 then signbit item else 0)) = value := by
    apply BitVec.eq_of_getLsbD_eq
    intro i _
    rw [BitVec.getLsbD_and, BitVec.getLsbD_or, sign, getLsbD_low_mask inside]
    by_cases below : i < high
    · simp [below]
    · simp [low i (Nat.le_of_not_lt below)]
  have unsigned : value &&& signbit item = 0 := by
    have bit := and_bit value high
    rw [<- sign, low high (Nat.le_refl _)] at bit
    simpa using bit
  have number : (Int64.ofBitVec value).toInt = value.toNat := by
    have bound : 2 ^ high ≤ 2 ^ 63 := Nat.pow_le_pow_right (by decide) (by omega)
    rw [Int64.toInt_ofBitVec, BitVec.toInt_eq_toNat_of_lt (by omega)]
  unfold adjustValue
  simp only [masked, unsigned, ne_eq, not_true_eq_false, and_false, if_false]
  simp only [Int64.lt_iff_toInt_lt, gt_iff_lt, number]
  split
  next => rfl
  next =>
    split
    next => rfl
    next => exact number

end Adjust

section Claims

variable (item : HIDData) (buf : List UInt8)

theorem denotes_range : -2 ^ item.size.toNat ≤ item.denotes buf ∧ item.denotes buf < 2 ^ item.size.toNat := by
  have bound := @fieldNat_lt buf item.size.toNat (item.offset.toNat + 8)
  have cast : ((2 ^ item.size.toNat : Nat) : Int) = 2 ^ item.size.toNat := by norm_cast
  unfold HIDData.denotes
  dsimp only
  split <;> omega

theorem denotes_bits (size : item.size.toNat ≤ 63) {i : Nat} (inside : i < item.size.toNat) :
    (Int64.ofInt (item.denotes buf)).toBitVec.getLsbD i = bitAt buf (item.offset.toNat + 8 + i) := by
  have bound := @fieldNat_lt buf item.size.toNat (item.offset.toNat + 8)
  have bit := @fieldNat_testBit buf item.size.toNat (item.offset.toNat + 8) i
  have cast : ((2 ^ item.size.toNat : Nat) : Int) = 2 ^ item.size.toNat := by norm_cast
  have wide : 2 ^ item.size.toNat ≤ 2 ^ 63 := Nat.pow_le_pow_right (by decide) size
  have range := denotes_range item buf
  have number : (Int64.ofInt (item.denotes buf)).toInt = item.denotes buf :=
    Int64.toInt_ofInt_of_le (by omega) (by omega)
  have value := toNat_long (Int64.ofInt (item.denotes buf))
  rw [decide_eq_true inside, Bool.true_and] at bit
  rw [number] at value
  rw [<- bit, BitVec.getLsbD]
  generalize (Int64.ofInt (item.denotes buf)).toBitVec.toNat = whole at *
  unfold HIDData.denotes at value
  dsimp only at value
  generalize fieldNat buf item.size.toNat (item.offset.toNat + 8) = bits at *
  obtain plain | wrapped : whole = bits ∨ whole + 2 ^ item.size.toNat = bits + 2 ^ 64 := by
    split at value <;> split at value <;> omega
  · rw [plain]
  · have split_ : whole = 2 ^ item.size.toNat * (2 ^ (64 - item.size.toNat) - 1) + bits := by
      have powers : 2 ^ item.size.toNat * 2 ^ (64 - item.size.toNat) = 2 ^ 64 := by
        rw [<- Nat.pow_add]
        congr 1
        omega
      rw [Nat.mul_sub, powers]
      omega
    rw [split_, Nat.testBit_two_pow_mul_add _ bound, if_pos inside]

-- `GetValue` stays in the logical range. A number that the field denotes and that is in the range is the result
-- exactly if its sign bit is where `GetValue` looks for it.
theorem getValue_rule (sizes : 1 ≤ item.size.toNat ∧ item.size.toNat ≤ 32)
    (ordered : item.logMin.toInt ≤ item.logMax.toInt)
    (room : item.offset.toNat + 8 + item.size.toNat ≤ 8 * buf.length) : ∃ result, getValue buf item = some result ∧
      (item.logMin.toInt ≤ result.toInt ∧ result.toInt ≤ item.logMax.toInt) ∧
      (item.logMin.toInt ≤ item.denotes buf ∧ item.denotes buf ≤ item.logMax.toInt ->
        (result.toInt = item.denotes buf ↔ item.Readable (item.denotes buf))) := by
  obtain ⟨read, loop, bits⟩ := @getValueLoop_bits buf item.size.toNat 0 (item.offset.toNat + 8) 0
    (by omega) (by omega) (by simp)
  obtain ⟨high, sign, low, up, least⟩ := signbit_least ordered
  have minLow := item.logMin.le_toInt
  have maxUp := item.logMax.toInt_lt
  have inside : high < 64 := by
    have := least 63 (by omega) (by omega)
    omega
  have number : read.toNat = fieldNat buf item.size.toNat (item.offset.toNat + 8) := by
    apply Nat.eq_of_testBit_eq
    intro i
    have bit := bits i
    rw [if_neg (Nat.not_lt_zero i), Nat.zero_add, Nat.sub_zero] at bit
    rw [fieldNat_testBit, <- bit, BitVec.getLsbD]
  refine ⟨adjustValue item read, by rw [getValue, loop, Option.map_some], adjustValue_range ordered, fun range => ?_⟩
  have cast (k : Nat) : ((2 ^ k : Nat) : Int) = 2 ^ k := by norm_cast
  have bound := @fieldNat_lt buf item.size.toNat (item.offset.toNat + 8)
  by_cases wide : item.logMin.toInt < 0 ∧ high < item.size.toNat
  · have more : 2 ^ high ≤ 2 ^ (item.size.toNat - 1) := Nat.pow_le_pow_right (by decide) (by omega)
    have castHigh := cast high
    have castSign := cast (item.size.toNat - 1)
    have signed : -2 ^ (item.size.toNat - 1) ≤ item.logMin.toInt ∧ item.logMax.toInt < 2 ^ (item.size.toNat - 1) := by
      omega
    have representable : item.Representable := by
      unfold HIDData.Representable
      rw [if_neg (by omega)]
      exact signed
    have value : (Int64.ofInt (item.denotes buf)).toInt = item.denotes buf :=
      Int64.toInt_ofInt_of_le (by omega) (by omega)
    have same : adjustValue item read = Int64.ofInt (item.denotes buf) := by
      refine adjustValue_eq sizes representable (by rw [value]; exact range) fun i => ?_
      have bit := bits i
      rw [if_neg (Nat.not_lt_zero i), Nat.zero_add, Nat.sub_zero] at bit
      rw [bit]
      by_cases within : i < item.size.toNat
      · rw [denotes_bits item buf (by omega) within]
      · simp [within]
    rw [same, value]
    exact iff_of_true rfl (Or.inr (Or.inr (Or.inr signed)))
  · have castHigh := cast high
    have castSize := cast item.size.toNat
    have unsigned : ¬ (item.logMin.toInt < 0 ∧ -2 ^ (item.size.toNat - 1) ≤ item.logMin.toInt ∧
        item.logMax.toInt < 2 ^ (item.size.toNat - 1)) := by
      rintro ⟨negative, fitsLow, fitsUp⟩
      have := least _ fitsLow fitsUp
      omega
    have small : read.toNat < 2 ^ high := by
      rw [number]
      by_cases negative : item.logMin.toInt < 0
      · have narrow : 2 ^ item.size.toNat ≤ 2 ^ high := Nat.pow_le_pow_right (by decide) (by omega)
        omega
      · have upTo := range.2
        rw [HIDData.denotes, if_pos (by omega)] at upTo
        omega
    rw [adjustValue_small sign inside small, number]
    unfold HIDData.Readable
    unfold HIDData.denotes at range ⊢
    dsimp only at range ⊢
    generalize fieldNat buf item.size.toNat (item.offset.toNat + 8) = field at *
    split at range <;> split <;> omega

-- A field of 9 bits across two bytes, and a negative number in it.
theorem getValue_rule_sample : getValue [1, 0xe8, 0x0b] sampleItem = some (-131) := by
  have denoted : sampleItem.denotes [1, 0xe8, 0x0b] = -131 := by decide +kernel
  obtain ⟨result, got, _, rule⟩ := getValue_rule sampleItem [1, 0xe8, 0x0b] (by decide) (by decide) (by decide)
  rw [denoted] at rule
  have value := (rule (by decide)).mpr (by unfold HIDData.Readable; decide)
  rw [got, Int64.toInt_inj.mp (value.trans (by decide : (-131 : Int) = (-131 : Int64).toInt))]

def narrowItem : HIDData :=
  { sampleItem with offset := 0, size := 8, logMin := -1000, logMax := 1000 }

theorem getValue_unsigned :
    narrowItem.denotes [1, 0xff] = -1 ∧ narrowItem.logMin.toInt ≤ -1 ∧ -1 ≤ narrowItem.logMax.toInt ∧
      getValue [1, 0xff] narrowItem = some 255 := by
  decide +kernel

end Claims

end Nut
