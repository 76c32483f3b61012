import Mathlib.Data.Nat.Bitwise

set_option autoImplicit false

namespace Nut

def bitAt (buf : List UInt8) (pos : Nat) : Bool :=
  (buf[pos / 8]?.getD 0).toNat.testBit (pos % 8)

def bitMask (pos : Nat) : UInt8 :=
  1 <<< UInt8.ofNat (pos % 8)

def getBit (buf : List UInt8) (pos : Nat) : Option Bool :=
  buf[pos / 8]?.map fun byte => byte &&& bitMask pos != 0

def setBit (buf : List UInt8) (pos : Nat) (state : Bool) : Option (List UInt8) :=
  buf[pos / 8]?.map fun byte =>
    buf.set (pos / 8) (if state then byte ||| bitMask pos else byte &&& ~~~bitMask pos)

section Bits

variable {buf : List UInt8} {pos : Nat}

theorem bitMask_toNat (pos : Nat) : (bitMask pos).toNat = 2 ^ (pos % 8) := by
  have inside : pos % 8 < 8 := Nat.mod_lt _ (by decide)
  have each : ∀ bit < 8, ((1 : UInt8) <<< UInt8.ofNat bit).toNat = 2 ^ bit := by decide
  exact each _ inside

theorem and_bitMask (byte : UInt8) (pos : Nat) : (byte &&& bitMask pos != 0) = byte.toNat.testBit (pos % 8) := by
  have value : (byte &&& bitMask pos).toNat = (byte.toNat.testBit (pos % 8)).toNat * 2 ^ (pos % 8) := by
    rw [UInt8.toNat_and, bitMask_toNat, Nat.and_two_pow]
  cases bit : byte.toNat.testBit (pos % 8)
  · rw [bit] at value
    simpa [<- UInt8.toNat_inj] using value
  · rw [bit] at value
    simp only [bne_iff_ne, ne_eq, <- UInt8.toNat_inj, value]
    simp

theorem testBit_or_bitMask (byte : UInt8) (pos bit : Nat) :
    (byte ||| bitMask pos).toNat.testBit bit = (byte.toNat.testBit bit || decide (pos % 8 = bit)) := by
  rw [UInt8.toNat_or, Nat.testBit_or, bitMask_toNat, Nat.testBit_two_pow]

theorem testBit_clear_bitMask (byte : UInt8) (pos : Nat) {bit : Nat} (inside : bit < 8) :
    (byte &&& ~~~bitMask pos).toNat.testBit bit = (byte.toNat.testBit bit && !decide (pos % 8 = bit)) := by
  have small : (bitMask pos).toNat < 2 ^ 8 := (bitMask pos).toNat_lt
  rw [UInt8.toNat_and, Nat.testBit_and, UInt8.toNat_not, show UInt8.size - 1 - (bitMask pos).toNat =
    2 ^ 8 - ((bitMask pos).toNat + 1) by simp [UInt8.size], Nat.testBit_two_pow_sub_succ small, bitMask_toNat,
    Nat.testBit_two_pow]
  simp [inside]

theorem getBit_inside (inside : pos < 8 * buf.length) : getBit buf pos = some (bitAt buf pos) := by
  have index : pos / 8 < buf.length := by omega
  simp [getBit, bitAt, List.getElem?_eq_getElem index, and_bitMask]

theorem setBit_inside (inside : pos < 8 * buf.length) (state : Bool) :
    ∃ buf', setBit buf pos state = some buf' ∧ buf'.length = buf.length ∧
      ∀ other, bitAt buf' other = if other = pos then state else bitAt buf other := by
  have index : pos / 8 < buf.length := by omega
  refine ⟨_, by rw [setBit, List.getElem?_eq_getElem index]; rfl, List.length_set, fun other => ?_⟩
  by_cases same : pos / 8 = other / 8
  · have bit : other % 8 < 8 := Nat.mod_lt _ (by decide)
    rw [bitAt, bitAt, <- same, List.getElem?_set_self index, List.getElem?_eq_getElem index, Option.getD_some,
      Option.getD_some]
    have here : (other = pos) = (pos % 8 = other % 8) := by
      apply propext
      omega
    simp only [here]
    cases state
    · simp only [Bool.false_eq_true, if_false, testBit_clear_bitMask _ _ bit]
      split <;> simp_all
    · simp only [if_true, testBit_or_bitMask]
      split <;> simp_all
  · have different : other ≠ pos := fun equal => same (by rw [equal])
    rw [if_neg different, bitAt, bitAt, List.getElem?_set_ne same]

end Bits

theorem mask_add {width : Nat} (x mask : BitVec width) : (x &&& mask) + (x &&& ~~~mask) = x := by
  rw [BitVec.add_eq_or_of_and_eq_zero]
  · ext i inside
    simp only [BitVec.getElem_or, BitVec.getElem_and, BitVec.getElem_not]
    cases x[i] <;> cases mask[i] <;> rfl
  · ext i inside
    simp only [BitVec.getElem_and, BitVec.getElem_not, BitVec.getElem_zero]
    cases x[i] <;> cases mask[i] <;> rfl

end Nut
