import Mathlib.Algebra.Order.Group.Nat
import Mathlib.Data.List.Induction
import Mathlib.Tactic.Ring

set_option autoImplicit false

namespace Nut

def beValue (bytes : List UInt8) : Nat :=
  bytes.foldl (fun value byte => value * 256 + byte.toNat) 0

def beBytes : Nat -> Nat -> List UInt8
  | 0, _ => []
  | width + 1, value => beBytes width (value / 256) ++ [UInt8.ofNat value]

structure Address (width : Nat) where
  bytes : List UInt8
  length : bytes.length = width

def Address.value {width : Nat} (address : Address width) : Nat :=
  beValue address.bytes

section Bytes

theorem beValue_append_single (bytes : List UInt8) (byte : UInt8) :
    beValue (bytes ++ [byte]) = beValue bytes * 256 + byte.toNat := by
  simp [beValue]

theorem beValue_append (first second : List UInt8) :
    beValue (first ++ second) = beValue first * 256 ^ second.length + beValue second := by
  induction second using List.reverseRecOn with
  | nil => simp [beValue]
  | append_singleton second byte ih =>
    rw [<- List.append_assoc, beValue_append_single, ih, beValue_append_single, List.length_append, List.length_singleton,
      Nat.pow_succ]
    ring

theorem beValue_cons (byte : UInt8) (rest : List UInt8) :
    beValue (byte :: rest) = byte.toNat * 256 ^ rest.length + beValue rest := by
  have split := beValue_append [byte] rest
  simpa [beValue] using split

theorem beValue_lt (bytes : List UInt8) : beValue bytes < 256 ^ bytes.length := by
  induction bytes using List.reverseRecOn with
  | nil => simp [beValue]
  | append_singleton bytes byte ih =>
    have small := byte.toNat_lt
    rw [beValue_append_single, List.length_append, List.length_singleton, Nat.pow_succ]
    omega

theorem beBytes_length (width value : Nat) : (beBytes width value).length = width := by
  induction width generalizing value with
  | zero => rfl
  | succ width ih => simp [beBytes, ih]

theorem beValue_beBytes {width value : Nat} (small : value < 256 ^ width) : beValue (beBytes width value) = value := by
  induction width generalizing value with
  | zero =>
    have zero : value = 0 := by simpa using small
    simp [beBytes, beValue, zero]
  | succ width ih =>
    have high : value / 256 < 256 ^ width := by
      rw [Nat.div_lt_iff_lt_mul (by decide), <- Nat.pow_succ]
      exact small
    rw [beBytes, beValue_append_single, ih high, UInt8.toNat_ofNat']
    omega

theorem beValue_injective {first second : List UInt8} (length : first.length = second.length)
    (same : beValue first = beValue second) : first = second := by
  induction first using List.reverseRecOn generalizing second with
  | nil => exact (List.length_eq_zero_iff.mp length.symm).symm
  | append_singleton first byte ih =>
    rcases List.eq_nil_or_concat second with rfl | ⟨second, other, rfl⟩
    · simp at length
    · rw [List.concat_eq_append] at length same ⊢
      rw [beValue_append_single, beValue_append_single] at same
      have low := byte.toNat_lt
      have otherLow := other.toNat_lt
      have bytes : byte = other := by
        rw [<- UInt8.toNat_inj]
        omega
      rw [ih (by simpa using length) (by omega), bytes]

def firstGreater : List UInt8 -> List UInt8 -> Bool
  | a :: as, b :: bs => if a ≠ b then b < a else firstGreater as bs
  | _, _ => false

theorem firstGreater_iff {first second : List UInt8} (length : first.length = second.length) :
    firstGreater first second = true ↔ beValue second < beValue first := by
  induction first generalizing second with
  | nil =>
    obtain rfl : second = [] := List.length_eq_zero_iff.mp length.symm
    simp [firstGreater]
  | cons a as ih =>
    cases second with
    | nil => simp at length
    | cons b bs =>
      have rest : as.length = bs.length := Nat.succ.inj length
      have low := beValue_lt as
      have otherLow := beValue_lt bs
      rw [firstGreater, beValue_cons, beValue_cons, rest]
      rw [rest] at low
      by_cases same : a = b
      · rw [if_neg (not_not.mpr same), ih rest, same]
        omega
      · rw [if_pos same, decide_eq_true_iff, UInt8.lt_iff_toNat_lt]
        have apart : a.toNat ≠ b.toNat := fun equal => same (UInt8.toNat_inj.mp equal)
        constructor
        · intro greater
          have scaled := Nat.mul_le_mul_right (256 ^ bs.length) (Nat.succ_le_of_lt greater)
          rw [Nat.succ_mul] at scaled
          omega
        · intro greater
          by_contra less
          have scaled := Nat.mul_le_mul_right (256 ^ bs.length) (show a.toNat + 1 ≤ b.toNat by omega)
          rw [Nat.succ_mul] at scaled
          omega

end Bytes

section Masks

variable {value bits : Nat}

theorem or_lowBits (value bits : Nat) : value ||| (2 ^ bits - 1) = value / 2 ^ bits * 2 ^ bits + (2 ^ bits - 1) := by
  have low : 2 ^ bits - 1 < 2 ^ bits := Nat.sub_lt (Nat.two_pow_pos bits) Nat.one_pos
  rw [Nat.mul_comm, Nat.two_pow_add_eq_or_of_lt low]
  apply Nat.eq_of_testBit_eq
  intro i
  rw [Nat.testBit_or, Nat.testBit_or, Nat.testBit_two_pow_sub_one, Nat.testBit_two_pow_mul, Nat.testBit_div_two_pow]
  by_cases inside : i < bits
  · simp [inside]
  · have kept := Nat.not_lt.mp inside
    simp [inside, kept, Nat.sub_add_cancel kept]

theorem and_highBits {width : Nat} (small : value < 2 ^ width) (inside : bits ≤ width) :
    value &&& (2 ^ width - 1 - (2 ^ bits - 1)) = value / 2 ^ bits * 2 ^ bits := by
  have low : 2 ^ bits - 1 < 2 ^ width :=
    Nat.lt_of_lt_of_le (Nat.sub_lt (Nat.two_pow_pos bits) Nat.one_pos) (Nat.pow_le_pow_right (by decide) inside)
  have mask : 2 ^ width - 1 - (2 ^ bits - 1) = 2 ^ width - (2 ^ bits - 1 + 1) := by omega
  apply Nat.eq_of_testBit_eq
  intro i
  rw [mask, Nat.testBit_and, Nat.testBit_two_pow_sub_succ low, Nat.testBit_two_pow_sub_one, Nat.testBit_mul_two_pow,
    Nat.testBit_div_two_pow]
  by_cases outside : width ≤ i
  · have clear : value.testBit i = false :=
      Nat.testBit_lt_two_pow (Nat.lt_of_lt_of_le small (Nat.pow_le_pow_right (by decide) outside))
    simp only [clear, Bool.false_and, Nat.sub_add_cancel (Nat.le_trans inside outside), Bool.and_false]
  · by_cases kept : bits ≤ i
    · simp [kept, Nat.not_le.mp outside, Nat.sub_add_cancel kept]
    · simp [kept, Nat.not_le.mp kept]

theorem beValue_replicate_zero (n : Nat) : beValue (List.replicate n 0) = 0 := by
  induction n with
  | zero => rfl
  | succ n ih => simp [List.replicate_succ, beValue_cons, ih]

theorem beValue_replicate_max (n : Nat) : beValue (List.replicate n 0xff) = 256 ^ n - 1 := by
  induction n with
  | zero => rfl
  | succ n ih =>
    rw [List.replicate_succ, beValue_cons, ih, List.length_replicate, Nat.pow_succ]
    change 255 * 256 ^ n + (256 ^ n - 1) = 256 ^ n * 256 - 1
    omega

theorem high_bytes {front byte rest width : Nat} (small : rest < 256 ^ width) (inside : bits ≤ 8) :
    ((front * 256 + byte) * 256 ^ width + rest) / 2 ^ (8 * width + bits) * 2 ^ (8 * width + bits) =
      (front * 256 + byte / 2 ^ bits * 2 ^ bits) * 256 ^ width := by
  have whole : (2 : Nat) ^ (8 * width + bits) = 256 ^ width * 2 ^ bits := by
    rw [Nat.pow_add, Nat.pow_mul]
  have parts : (256 : Nat) = 2 ^ (8 - bits) * 2 ^ bits := by
    rw [<- Nat.pow_add, Nat.sub_add_cancel inside]
  have some_ : 0 < 256 ^ width := Nat.pow_pos (by decide)
  have shifted : (front * 256 + byte) / 2 ^ bits = front * 2 ^ (8 - bits) + byte / 2 ^ bits := by
    rw [parts, <- Nat.mul_assoc, Nat.add_comm, Nat.add_mul_div_right _ _ (Nat.two_pow_pos bits), Nat.add_comm]
  have top : ((front * 256 + byte) * 256 ^ width + rest) / 256 ^ width = front * 256 + byte := by
    rw [Nat.add_comm, Nat.add_mul_div_right _ _ some_, Nat.div_eq_of_lt small, Nat.zero_add]
  rw [whole, <- Nat.div_div_eq_div_mul, top, shifted]
  calc (front * 2 ^ (8 - bits) + byte / 2 ^ bits) * (256 ^ width * 2 ^ bits)
      = (front * (2 ^ (8 - bits) * 2 ^ bits) + byte / 2 ^ bits * 2 ^ bits) * 256 ^ width := by ring
    _ = (front * 256 + byte / 2 ^ bits * 2 ^ bits) * 256 ^ width := by rw [<- parts]

end Masks

section Addresses

variable {width : Nat}

def Address.ofNat (width value : Nat) : Address width :=
  ⟨beBytes width value, beBytes_length width value⟩

theorem Address.value_lt (address : Address width) : address.value < 256 ^ width := by
  have bound := beValue_lt address.bytes
  rwa [address.length] at bound

theorem Address.value_ofNat {value : Nat} (small : value < 256 ^ width) : (Address.ofNat width value).value = value :=
  beValue_beBytes small

theorem Address.value_injective {first second : Address width} (same : first.value = second.value) : first = second := by
  have bytes := beValue_injective (first.length.trans second.length.symm) same
  cases first
  cases second
  cases bytes
  rfl

theorem Address.ofNat_value (address : Address width) : Address.ofNat width address.value = address :=
  Address.value_injective (Address.value_ofNat address.value_lt)

theorem Address.value_inj {first second : Address width} : first.value = second.value ↔ first = second :=
  ⟨Address.value_injective, congrArg Address.value⟩

end Addresses

end Nut
