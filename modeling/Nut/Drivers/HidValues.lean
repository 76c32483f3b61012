import Nut.Drivers.Hidparser

set_option autoImplicit false

namespace Nut

section Hibit

theorem hibitBits_lt (x : Nat) : x < 2 ^ hibitBits x := by
  induction x using hibitBits.induct with
  | case1 => simp [hibitBits]
  | case2 x nonzero ih =>
    rw [hibitBits, if_neg nonzero, Nat.pow_succ]
    omega

theorem hibitBits_le {x k : Nat} (small : x < 2 ^ k) : hibitBits x ≤ k := by
  induction x using hibitBits.induct generalizing k with
  | case1 => simp [hibitBits]
  | case2 x nonzero ih =>
    rw [hibitBits, if_neg nonzero]
    cases k with
    | zero => omega
    | succ k =>
      have half := @ih k (by rw [Nat.pow_succ] at small; omega)
      omega

theorem hibit_lt (x : Nat) : x < 2 ^ hibit x := by
  induction x using hibit.induct with
  | case1 x large ih =>
    rw [hibit, if_pos large, Nat.pow_add]
    omega
  | case2 x small =>
    rw [hibit, if_neg small]
    exact hibitBits_lt x

theorem hibit_le {x k : Nat} (small : x < 2 ^ k) : hibit x ≤ k := by
  induction x using hibit.induct generalizing k with
  | case1 x large ih =>
    rw [hibit, if_pos large]
    have wide : 8 ≤ k := by
      by_contra narrow
      have := Nat.pow_le_pow_right (show 1 ≤ 2 by decide) (show k ≤ 8 by omega)
      omega
    obtain ⟨k, rfl⟩ := Nat.exists_eq_add_of_le' wide
    have rest := @ih k (by rw [Nat.pow_add] at small; omega)
    omega
  | case2 x few =>
    rw [hibit, if_neg few]
    exact hibitBits_le small

end Hibit

section Loops

variable {buf : List UInt8}

theorem getLsbD_add_bit {value : BitVec 64} {weight : Nat} (low : ∀ i, weight ≤ i -> value.getLsbD i = false)
    (inside : weight < 64) (i : Nat) :
    (value + (1#64 <<< weight)).getLsbD i = (value.getLsbD i || decide (weight = i)) := by
  have apart : value &&& (1#64 <<< weight) = 0#64 := by
    apply BitVec.eq_of_getLsbD_eq
    intro j _
    rw [<- BitVec.twoPow_eq, BitVec.getLsbD_and, BitVec.getLsbD_twoPow]
    by_cases same : weight = j
    · simp [<- same, low weight (Nat.le_refl _)]
    · simp [same]
  rw [BitVec.add_eq_or_of_and_eq_zero _ _ apart, <- BitVec.twoPow_eq, BitVec.getLsbD_or, BitVec.getLsbD_twoPow]
  simp [inside]

theorem getValueLoop_bits {count weight bit : Nat} {value : BitVec 64} (room : bit + count ≤ 8 * buf.length)
    (width : weight + count ≤ 64) (low : ∀ i, weight ≤ i -> value.getLsbD i = false) :
    ∃ read, getValueLoop buf count weight bit value = some read ∧
      ∀ i, read.getLsbD i = if i < weight then value.getLsbD i
        else decide (i < weight + count) && bitAt buf (bit + (i - weight)) := by
  induction count generalizing weight bit value with
  | zero =>
    refine ⟨value, rfl, fun i => ?_⟩
    by_cases below : i < weight
    · rw [if_pos below]
    · simp [below, low i (by omega)]
  | succ count ih =>
    have added := getLsbD_add_bit low (by omega)
    have next : ∀ i, (if bitAt buf bit then value + (1#64 <<< weight) else value).getLsbD i =
        (value.getLsbD i || (decide (weight = i) && bitAt buf bit)) := by
      intro i
      cases bitAt buf bit
      · simp
      · simp [added]
    obtain ⟨read, loop, bits⟩ := @ih (weight + 1) (bit + 1)
      (if bitAt buf bit then value + (1#64 <<< weight) else value) (by omega) (by omega) (by
        intro i above
        have different : weight ≠ i := by omega
        rw [next, low i (by omega)]
        simp [different])
    refine ⟨read, ?_, fun i => ?_⟩
    · rw [getValueLoop, getBit_inside (by omega), Option.bind_some]
      exact loop
    · rw [bits, next]
      obtain below | same | above := Nat.lt_trichotomy i weight
      · have different : weight ≠ i := by omega
        simp [below, show i < weight + 1 by omega, different]
      · subst same
        simp [low i (Nat.le_refl _)]
      · have here : bit + 1 + (i - (weight + 1)) = bit + (i - weight) := by omega
        have bound : (i < weight + 1 + count) = (i < weight + (count + 1)) := by
          apply propext
          omega
        rw [if_neg (by omega), if_neg (by omega), here]
        simp only [bound]

theorem and_bit (value : BitVec 64) (weight : Nat) : (value &&& (1#64 <<< weight) != 0) = value.getLsbD weight := by
  rw [<- BitVec.twoPow_eq, BitVec.and_twoPow]
  cases bit : value.getLsbD weight with
  | false => rfl
  | true =>
    have inside : weight < 64 := BitVec.lt_of_getLsbD bit
    have own : (BitVec.twoPow 64 weight).getLsbD weight = true := by simp [inside]
    rw [if_pos rfl, bne_iff_ne]
    intro zero
    rw [zero] at own
    simp at own

theorem setValueLoop_bits {value : BitVec 64} {count weight bit : Nat} (room : bit + count ≤ 8 * buf.length) :
    ∃ buf', setValueLoop value count weight bit buf = some buf' ∧ buf'.length = buf.length ∧
      ∀ pos, bitAt buf' pos = if bit ≤ pos ∧ pos < bit + count then value.getLsbD (weight + (pos - bit))
        else bitAt buf pos := by
  induction count generalizing weight bit buf with
  | zero =>
    refine ⟨buf, rfl, rfl, fun pos => ?_⟩
    rw [if_neg (by omega)]
  | succ count ih =>
    obtain ⟨buf₁, written, length, bits₁⟩ := setBit_inside (show bit < 8 * buf.length by omega)
      (value &&& (1#64 <<< weight) != 0)
    obtain ⟨buf', loop, length', bits⟩ := @ih buf₁ (weight + 1) (bit + 1) (by omega)
    refine ⟨buf', ?_, by rw [length', length], fun pos => ?_⟩
    · rw [setValueLoop, written, Option.bind_some]
      exact loop
    · rw [bits, bits₁]
      obtain below | same | above := Nat.lt_trichotomy pos bit
      · rw [if_neg (by omega), if_neg (by omega), if_neg (by omega)]
      · subst same
        rw [if_neg (by omega), if_pos rfl, if_pos (by omega), and_bit, Nat.sub_self, Nat.add_zero]
      · have here : weight + 1 + (pos - (bit + 1)) = weight + (pos - bit) := by omega
        by_cases inside : pos < bit + (count + 1)
        · rw [if_pos (by omega), if_pos (by omega), here]
        · rw [if_neg (by omega), if_neg (by omega), if_neg (by omega)]

end Loops

section Adjust

theorem toNat_long (v : Int64) : (v.toBitVec.toNat : Int) = if 0 ≤ v.toInt then v.toInt else v.toInt + 2 ^ 64 := by
  have value : v.toInt = v.toBitVec.toInt := rfl
  rw [BitVec.toInt_eq_toNat_cond] at value
  split at value <;> split <;> omega

theorem magnitude_toNat (limit : Int64) :
    ((magnitude limit).toNat : Int) = if 0 ≤ limit.toInt then limit.toInt else -limit.toInt - 1 := by
  have value := toNat_long limit
  unfold magnitude
  by_cases positive : 0 ≤ limit.toInt
  · have nonneg : limit ≥ 0 := Int64.le_iff_toInt_le.mpr positive
    rw [if_pos nonneg, if_pos positive]
    rwa [if_pos positive] at value
  · have negative : ¬ limit ≥ 0 := fun nonneg => positive (Int64.le_iff_toInt_le.mp nonneg)
    have flipped : (-(limit + 1)).toBitVec = ~~~limit.toBitVec := by
      rw [Int64.toBitVec_neg, Int64.toBitVec_add, BitVec.neg_add, BitVec.not_eq_neg_add]
      rfl
    rw [if_neg positive] at value
    rw [if_neg negative, if_neg positive, flipped, BitVec.toNat_not]
    omega

theorem getLsbD_high {v : Int64} {high : Nat} (low : -2 ^ high ≤ v.toInt) (up : v.toInt < 2 ^ high) {i : Nat}
    (above : high ≤ i) (inside : i < 64) : v.toBitVec.getLsbD i = decide (v.toInt < 0) := by
  have value := toNat_long v
  have wider : 2 ^ high ≤ 2 ^ i := Nat.pow_le_pow_right (by decide) above
  have cast (k : Nat) : ((2 ^ k : Nat) : Int) = 2 ^ k := by norm_cast
  have castHigh := cast high
  by_cases negative : v.toInt < 0
  · have flipped : (~~~v.toBitVec).getLsbD i = false := by
      apply Nat.testBit_lt_two_pow
      rw [if_neg (by omega)] at value
      rw [BitVec.toNat_not]
      omega
    simpa [negative, inside] using flipped
  · have small : v.toBitVec.getLsbD i = false := by
      apply Nat.testBit_lt_two_pow
      rw [if_pos (by omega)] at value
      omega
    simp [negative, small]

theorem getLsbD_low_mask {high : Nat} (inside : high < 64) (i : Nat) :
    ((1#64 <<< high) - 1).getLsbD i = decide (i < high) := by
  have below : 2 ^ high < 2 ^ 64 := Nat.pow_lt_pow_right (by decide) inside
  have positive := Nat.two_pow_pos high
  have value : ((1#64 <<< high) - 1).toNat = 2 ^ high - 1 := by
    rw [<- BitVec.twoPow_eq, BitVec.toNat_sub, BitVec.toNat_twoPow, Nat.mod_eq_of_lt below]
    simp only [BitVec.ofNat_eq_ofNat, BitVec.toNat_ofNat]
    omega
  rw [BitVec.getLsbD, value, Nat.testBit_two_pow_sub_one]

def HIDData.Representable (item : HIDData) : Prop :=
  if 0 ≤ item.logMin.toInt then item.logMax.toInt < 2 ^ item.size.toNat
  else -2 ^ (item.size.toNat - 1) ≤ item.logMin.toInt ∧ item.logMax.toInt < 2 ^ (item.size.toNat - 1)

instance (item : HIDData) : Decidable item.Representable :=
  inferInstanceAs (Decidable (if 0 ≤ item.logMin.toInt then item.logMax.toInt < 2 ^ item.size.toNat
    else -2 ^ (item.size.toNat - 1) ≤ item.logMin.toInt ∧ item.logMax.toInt < 2 ^ (item.size.toNat - 1)))

variable {item : HIDData}

theorem signbit_least (ordered : item.logMin.toInt ≤ item.logMax.toInt) :
    ∃ high, signbit item = 1#64 <<< high ∧ -2 ^ high ≤ item.logMin.toInt ∧ item.logMax.toInt < 2 ^ high ∧
      ∀ k : Nat, -2 ^ k ≤ item.logMin.toInt -> item.logMax.toInt < 2 ^ k -> high ≤ k := by
  have magMax := magnitude_toNat item.logMax
  have magMin := magnitude_toNat item.logMin
  refine ⟨_, rfl, ?_⟩
  generalize larger : (if magnitude item.logMax > magnitude item.logMin then magnitude item.logMax
    else magnitude item.logMin).toNat = largest
  have covers : (magnitude item.logMax).toNat ≤ largest ∧ (magnitude item.logMin).toNat ≤ largest ∧
      (largest = (magnitude item.logMax).toNat ∨ largest = (magnitude item.logMin).toNat) := by
    rw [<- larger]
    split
    next more =>
      have := BitVec.lt_def.mp more
      omega
    next less =>
      have := Nat.le_of_not_lt fun more => less (BitVec.lt_def.mpr more)
      omega
  have within := hibit_lt largest
  have cast (k : Nat) : ((2 ^ k : Nat) : Int) = 2 ^ k := by norm_cast
  have castHigh := cast (hibit largest)
  refine ⟨by split at magMin <;> omega, by split at magMax <;> omega, fun k low up => hibit_le ?_⟩
  have castK := cast k
  split at magMax <;> split at magMin <;> omega

theorem signbit_range (some_ : 1 ≤ item.size.toNat) (ordered : item.logMin.toInt ≤ item.logMax.toInt)
    (representable : item.Representable) : ∃ high, signbit item = 1#64 <<< high ∧ high ≤ item.size.toNat ∧
      (item.logMin.toInt < 0 -> high < item.size.toNat) ∧
      -2 ^ high ≤ item.logMin.toInt ∧ item.logMax.toInt < 2 ^ high := by
  obtain ⟨high, sign, low, up, least⟩ := signbit_least ordered
  have cast (k : Nat) : ((2 ^ k : Nat) : Int) = 2 ^ k := by norm_cast
  refine ⟨high, sign, ?_, fun negative => ?_, low, up⟩
  all_goals unfold HIDData.Representable at representable
  · by_cases unsigned : 0 ≤ item.logMin.toInt
    · rw [if_pos unsigned] at representable
      exact least _ (by omega) representable
    · rw [if_neg unsigned] at representable
      have := least _ representable.1 representable.2
      omega
  · rw [if_neg (by omega)] at representable
    have := least _ representable.1 representable.2
    omega

theorem adjustValue_eq (sizes : 1 ≤ item.size.toNat ∧ item.size.toNat ≤ 32) (representable : item.Representable)
    {v : Int64} (range : item.logMin.toInt ≤ v.toInt ∧ v.toInt ≤ item.logMax.toInt) {value : BitVec 64}
    (read : ∀ i, value.getLsbD i = (decide (i < item.size.toNat) && v.toBitVec.getLsbD i)) :
    adjustValue item value = v := by
  obtain ⟨high, sign, few, fewer, low, up⟩ := signbit_range sizes.1 (by omega) representable
  have inside : high < 64 := by omega
  have upper {i : Nat} (above : high ≤ i) (bound : i < 64) : v.toBitVec.getLsbD i = decide (v.toInt < 0) :=
    getLsbD_high (Int.le_trans low range.1) (Int.lt_of_le_of_lt range.2 up) above bound
  have zero : (0 : Int64).toInt = 0 := rfl
  -- Whether or not there is a sign bit, the bits are those of `v` in the end.
  have bits : (let mask := (signbit item - 1) ||| (if item.logMin < 0 then signbit item else 0)
      let value := value &&& mask
      if item.logMin < 0 ∧ value &&& signbit item ≠ 0 then value ||| ~~~mask else value) = v.toBitVec := by
    by_cases signed : item.logMin.toInt < 0
    · have negative : item.logMin < 0 := Int64.lt_iff_toInt_lt.mpr (by rw [zero]; exact signed)
      have mask (i : Nat) : ((signbit item - 1) ||| signbit item).getLsbD i = decide (i ≤ high) := by
        rw [sign, BitVec.getLsbD_or, getLsbD_low_mask inside, <- BitVec.twoPow_eq, BitVec.getLsbD_twoPow]
        by_cases same : high = i
        · simp [<- same, inside]
        · simp [same, show (i ≤ high) = (i < high) by apply propext; omega]
      have masked (i : Nat) : (value &&& ((signbit item - 1) ||| signbit item)).getLsbD i =
          (decide (i ≤ high) && v.toBitVec.getLsbD i) := by
        rw [BitVec.getLsbD_and, mask, read]
        by_cases below : i ≤ high
        · simp [below, show i < item.size.toNat by omega]
        · simp [below]
      have signSet : (value &&& ((signbit item - 1) ||| signbit item)) &&& signbit item ≠ 0 ↔ v.toInt < 0 := by
        have bit := and_bit (value &&& ((signbit item - 1) ||| signbit item)) high
        rw [<- sign, masked, upper (Nat.le_refl _) inside] at bit
        rw [<- bne_iff_ne, bit]
        simp
      simp only [negative, if_true, true_and, signSet]
      apply BitVec.eq_of_getLsbD_eq
      intro i bound
      by_cases below : i ≤ high
      · split
        · rw [BitVec.getLsbD_or, masked, BitVec.getLsbD_not, mask]
          simp [below]
        · rw [masked]
          simp [below]
      · have same := upper (show high ≤ i by omega) bound
        split
        next minus =>
          rw [BitVec.getLsbD_or, masked, BitVec.getLsbD_not, mask]
          simp [below, same, minus, bound]
        next plus =>
          rw [masked]
          simp [below, same, plus]
    · have positive : ¬ item.logMin < 0 := fun less => signed (by rw [<- zero]; exact Int64.lt_iff_toInt_lt.mp less)
      simp only [positive, if_false, false_and]
      apply BitVec.eq_of_getLsbD_eq
      intro i bound
      rw [show (signbit item - 1) ||| (0 : BitVec 64) = signbit item - 1 by simp, BitVec.getLsbD_and, sign,
        getLsbD_low_mask inside, read]
      by_cases below : i < high
      · simp [below, show i < item.size.toNat by omega]
      · simp [below, upper (by omega) bound]
        omega
  have notLess : ¬ v < item.logMin := fun less => by
    have := Int64.lt_iff_toInt_lt.mp less
    omega
  have notMore : ¬ v > item.logMax := fun more => by
    have := Int64.lt_iff_toInt_lt.mp more
    omega
  simp only at bits
  simp only [adjustValue, bits, Int64.ofBitVec_toBitVec, notLess, notMore, if_false]

end Adjust

-- What is written to a field is read back, and the other bits of the report stay.
theorem setValue_getValue (item : HIDData) (sizes : 1 ≤ item.size.toNat ∧ item.size.toNat ≤ 32)
    (representable : item.Representable) (buf : List UInt8)
    (room : item.offset.toNat + 8 + item.size.toNat ≤ 8 * buf.length) (v : Int64)
    (range : item.logMin.toInt ≤ v.toInt ∧ v.toInt ≤ item.logMax.toInt) :
    ∃ buf', setValue item buf v = some buf' ∧ getValue buf' item = some v ∧ buf'.length = buf.length ∧
      ∀ pos, pos < item.offset.toNat + 8 ∨ item.offset.toNat + 8 + item.size.toNat ≤ pos ->
        bitAt buf' pos = bitAt buf pos := by
  obtain ⟨buf', written, length, bits⟩ := @setValueLoop_bits buf v.toBitVec _ 0 _ room
  obtain ⟨read, loop, values⟩ := @getValueLoop_bits buf' item.size.toNat 0 (item.offset.toNat + 8) 0
    (by omega) (by omega) (by simp)
  have same : ∀ i, read.getLsbD i = (decide (i < item.size.toNat) && v.toBitVec.getLsbD i) := by
    intro i
    rw [values, if_neg (by omega), bits]
    by_cases inside : i < item.size.toNat
    · simp [inside]
    · simp [inside]
  refine ⟨buf', written, ?_, length, fun pos outside => ?_⟩
  · rw [getValue, loop, Option.map_some, adjustValue_eq sizes representable range same]
  · rw [bits, if_neg (by omega)]

def sampleItem : HIDData :=
  { path := { size := 0, node := List.replicate pathSize 0 }, reportID := 1, offset := 3, size := 9, type := 0xb0,
    dataAttribute := 2, unit := 0, unitExp := 0, logMin := -200, logMax := 200, assumedLogMax := false, phyMin := 0,
    phyMax := 0, havePhyMin := false, havePhyMax := false }

theorem setValue_getValue_sample :
    ∃ buf', setValue sampleItem [1, 0xff, 0, 0xff] (-131) = some buf' ∧ getValue buf' sampleItem = some (-131) ∧
      buf'.length = 4 ∧ ∀ pos, pos < 3 + 8 ∨ 3 + 8 + 9 ≤ pos -> bitAt buf' pos = bitAt [1, 0xff, 0, 0xff] pos :=
  setValue_getValue sampleItem (by decide) (by decide) [1, 0xff, 0, 0xff] (by decide) (-131) (by decide)

end Nut
