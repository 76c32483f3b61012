import Nut.Library.BitField

set_option autoImplicit false

namespace Nut

-- A shift register that takes the lowest bit first; `poly` is what feeds back, the highest power left out.
def crcStep {width : Nat} (poly crc : BitVec width) : BitVec width :=
  if crc.getLsbD 0 then (crc >>> 1) ^^^ poly else crc >>> 1

def crcSteps {width : Nat} (poly : BitVec width) : Nat -> BitVec width -> BitVec width
  | 0, crc => crc
  | count + 1, crc => crcSteps poly count (crcStep poly crc)

-- The bits come in at the low end.
def packBits (width : Nat) : List Bool -> BitVec width
  | [] => 0
  | bit :: rest => (BitVec.ofBool bit).setWidth width ^^^ (packBits width rest <<< 1)

def crcBits {width : Nat} (poly : BitVec width) (crc : BitVec width) (bits : List Bool) : BitVec width :=
  bits.foldl (fun crc bit => crcStep poly (crc ^^^ (BitVec.ofBool bit).setWidth width)) crc

def byteBits (byte : UInt8) : List Bool :=
  (List.range 8).map byte.toNat.testBit

def serialBits (bytes : List UInt8) : List Bool :=
  bytes.flatMap byteBits

section Crc

variable {width : Nat} (poly : BitVec width)

theorem xor_cancel_right (a b p : BitVec width) : (a ^^^ p) ^^^ (b ^^^ p) = a ^^^ b := by
  rw [BitVec.xor_comm b p, BitVec.xor_assoc, <- BitVec.xor_assoc p p b, BitVec.xor_self, BitVec.zero_xor]

theorem crcStep_xor (a b : BitVec width) : crcStep poly (a ^^^ b) = crcStep poly a ^^^ crcStep poly b := by
  unfold crcStep
  simp only [BitVec.getLsbD_xor, BitVec.ushiftRight_xor_distrib]
  cases a.getLsbD 0 <;> cases b.getLsbD 0
  case true.true => simp [xor_cancel_right]
  all_goals
    simp
    try ac_rfl

@[simp] theorem crcStep_zero : crcStep poly (BitVec.ofNat width 0) = BitVec.ofNat width 0 := by
  simp [crcStep]

@[simp] theorem crcSteps_zero (count : Nat) : crcSteps poly count (BitVec.ofNat width 0) = BitVec.ofNat width 0 := by
  induction count with
  | zero => rfl
  | succ count ih => rw [crcSteps, crcStep_zero, ih]

theorem crcStep_eq_zero_iff (top : poly.msb = true) (crc : BitVec width) :
    crcStep poly crc = BitVec.ofNat width 0 ↔ crc = BitVec.ofNat width 0 := by
  constructor
  · intro vanishes
    have positive : 0 < width := by
      rcases Nat.eq_zero_or_pos width with rfl | positive
      · simp [BitVec.of_length_zero] at top
      · exact positive
    have shifted : (crc >>> 1).getLsbD (width - 1) = false := by
      rw [BitVec.getLsbD_ushiftRight]
      exact BitVec.getLsbD_of_ge _ _ (by omega)
    by_cases low : crc.getLsbD 0 = true
    · rw [crcStep, if_pos low] at vanishes
      have high := congrArg (fun crc => crc.getLsbD (width - 1)) vanishes
      rw [BitVec.msb_eq_getLsbD_last] at top
      simp [shifted, top] at high
    · rw [crcStep, if_neg low] at vanishes
      apply BitVec.eq_of_getLsbD_eq
      intro i inside
      cases i with
      | zero => simpa using low
      | succ i =>
        have bit := congrArg (fun crc => crc.getLsbD i) vanishes
        simpa [BitVec.getLsbD_ushiftRight, Nat.add_comm 1 i] using bit
  · rintro rfl
    exact crcStep_zero poly

theorem crcSteps_eq_zero_iff (top : poly.msb = true) (count : Nat) (crc : BitVec width) :
    crcSteps poly count crc = BitVec.ofNat width 0 ↔ crc = BitVec.ofNat width 0 := by
  induction count generalizing crc with
  | zero => rfl
  | succ count ih => rw [crcSteps, ih, crcStep_eq_zero_iff poly top]

theorem packBits_getLsbD (bits : List Bool) (i : Nat) :
    (packBits width bits).getLsbD i = (decide (i < width) && bits[i]?.getD false) := by
  induction bits generalizing i with
  | nil => simp [packBits]
  | cons bit rest ih =>
    cases i with
    | zero => cases bit <;> simp [packBits]
    | succ i =>
      have alone : ((BitVec.ofBool bit).setWidth width).getLsbD (i + 1) = false := by
        cases bit <;> simp
      rw [packBits, BitVec.getLsbD_xor, alone, BitVec.getLsbD_shiftLeft, Nat.add_sub_cancel, ih, List.getElem?_cons_succ]
      by_cases inside : i + 1 < width
      · simp [inside, Nat.lt_of_succ_lt inside]
      · simp [inside]

theorem crcStep_shiftLeft {crc : BitVec width} (low : crc.msb = false) : crcStep poly (crc <<< 1) = crc := by
  have even : (crc <<< 1).getLsbD 0 = false := by simp
  rw [crcStep, even, if_neg (by decide)]
  apply BitVec.eq_of_getLsbD_eq
  intro i inside
  rw [BitVec.getLsbD_ushiftRight, BitVec.getLsbD_shiftLeft]
  by_cases last : i + 1 < width
  · simp [Nat.add_comm 1 i, last]
  · have same : i = width - 1 := by omega
    rw [BitVec.msb_eq_getLsbD_last, <- same] at low
    simp [low]

theorem crcBits_packed (crc : BitVec width) {bits : List Bool} (short : bits.length ≤ width) :
    crcBits poly crc bits = crcSteps poly bits.length (crc ^^^ packBits width bits) := by
  induction bits generalizing crc with
  | nil => simp [crcBits, crcSteps, packBits]
  | cons bit rest ih =>
    have shorter : rest.length < width := short
    have low : (packBits width rest).msb = false := by
      rw [BitVec.msb_eq_getLsbD_last, packBits_getLsbD, List.getElem?_eq_none (by omega)]
      simp
    have next := ih (crcStep poly (crc ^^^ (BitVec.ofBool bit).setWidth width)) (Nat.le_of_lt shorter)
    calc crcBits poly crc (bit :: rest)
        = crcBits poly (crcStep poly (crc ^^^ (BitVec.ofBool bit).setWidth width)) rest := rfl
      _ = crcSteps poly rest.length
            (crcStep poly (crc ^^^ (BitVec.ofBool bit).setWidth width) ^^^ packBits width rest) := next
      _ = crcSteps poly rest.length
            (crcStep poly ((crc ^^^ (BitVec.ofBool bit).setWidth width) ^^^ (packBits width rest <<< 1))) := by
          rw [crcStep_xor poly _ (packBits width rest <<< 1), crcStep_shiftLeft poly low]
      _ = crcSteps poly (bit :: rest).length (crc ^^^ packBits width (bit :: rest)) := by
          rw [BitVec.xor_assoc]
          rfl

theorem crcBits_append (crc : BitVec width) (first second : List Bool) :
    crcBits poly crc (first ++ second) = crcBits poly (crcBits poly crc first) second := by
  simp [crcBits]

theorem ofBool_xor_setWidth (a b : Bool) :
    (BitVec.ofBool (a ^^ b)).setWidth width = (BitVec.ofBool a).setWidth width ^^^ (BitVec.ofBool b).setWidth width := by
  cases a <;> cases b <;> simp

theorem crcBits_xor (a b : BitVec width) {first second : List Bool} (same : first.length = second.length) :
    crcBits poly (a ^^^ b) (List.zipWith xor first second) = crcBits poly a first ^^^ crcBits poly b second := by
  induction first generalizing a b second with
  | nil =>
    obtain rfl : second = [] := List.length_eq_zero_iff.mp same.symm
    rfl
  | cons x first ih =>
    cases second with
    | nil => simp at same
    | cons y second =>
      have next := ih (crcStep poly (a ^^^ (BitVec.ofBool x).setWidth width))
        (crcStep poly (b ^^^ (BitVec.ofBool y).setWidth width)) (Nat.succ.inj same)
      simp only [crcBits, List.zipWith_cons_cons, List.foldl_cons] at next ⊢
      rw [<- next, <- crcStep_xor, ofBool_xor_setWidth]
      congr 2
      ac_rfl

theorem crcBits_false (crc : BitVec width) {bits : List Bool} (zeros : ∀ bit ∈ bits, bit = false) :
    crcBits poly crc bits = crcSteps poly bits.length crc := by
  induction bits generalizing crc with
  | nil => rfl
  | cons bit rest ih =>
    obtain rfl : bit = false := zeros bit List.mem_cons_self
    have next := ih (crcStep poly (crc ^^^ (BitVec.ofBool false).setWidth width))
      fun b member => zeros b (List.mem_cons_of_mem _ member)
    calc crcBits poly crc (false :: rest)
        = crcSteps poly rest.length (crcStep poly (crc ^^^ (BitVec.ofBool false).setWidth width)) := next
      _ = crcSteps poly (false :: rest).length crc := by simp [crcSteps]

theorem crcBits_burst (top : poly.msb = true) {bits : List Bool} {start : Nat}
    (burst : ∀ pos, bits[pos]?.getD false = true -> start ≤ pos ∧ pos < start + width)
    (changed : ∃ pos : Nat, bits[pos]?.getD false = true) :
    crcBits poly (BitVec.ofNat width 0) bits ≠ BitVec.ofNat width 0 := by
  have split : bits = bits.take start ++ ((bits.drop start).take width ++ (bits.drop start).drop width) := by
    rw [List.take_append_drop, List.take_append_drop]
  have before : ∀ bit ∈ bits.take start, bit = false := by
    intro bit member
    obtain ⟨pos, inside, rfl⟩ := List.mem_take_iff_getElem.mp member
    rw [Bool.eq_false_iff]
    intro set
    have position := burst pos (by rw [List.getElem?_eq_getElem (by omega)]; exact set)
    omega
  have behind : ∀ bit ∈ (bits.drop start).drop width, bit = false := by
    intro bit member
    rw [List.drop_drop] at member
    obtain ⟨pos, inside, rfl⟩ := List.mem_drop_iff_getElem.mp member
    rw [Bool.eq_false_iff]
    intro set
    have position := burst (start + width + pos) (by rw [List.getElem?_eq_getElem (by omega)]; exact set)
    omega
  have short : ((bits.drop start).take width).length ≤ width := by
    rw [List.length_take]
    exact Nat.min_le_left _ _
  have packed : packBits width ((bits.drop start).take width) ≠ BitVec.ofNat width 0 := by
    obtain ⟨pos, set⟩ := changed
    obtain ⟨lower, upper⟩ := burst pos set
    intro vanishes
    have bit : (packBits width ((bits.drop start).take width)).getLsbD (pos - start) = false := by
      simp [vanishes]
    have index : start + (pos - start) = pos := by omega
    have inside : pos - start < width := by omega
    rw [packBits_getLsbD, List.getElem?_take_of_lt inside, List.getElem?_drop, index, set] at bit
    simp [inside] at bit
  rw [Ne, split, crcBits_append, crcBits_append, crcBits_false poly _ before, crcBits_packed poly _ short,
    crcBits_false poly _ behind, crcSteps_eq_zero_iff poly top, crcSteps_eq_zero_iff poly top]
  rwa [crcSteps_zero, BitVec.zero_xor]

theorem crcBits_differ (top : poly.msb = true) (crc : BitVec width) {first second : List Bool}
    (same : first.length = second.length) {start : Nat}
    (burst : ∀ pos, first[pos]?.getD false ≠ second[pos]?.getD false -> start ≤ pos ∧ pos < start + width)
    (changed : first ≠ second) : crcBits poly crc first ≠ crcBits poly crc second := by
  have bit (pos : Nat) : (List.zipWith xor first second)[pos]?.getD false = true ↔
      first[pos]?.getD false ≠ second[pos]?.getD false := by
    by_cases inside : pos < first.length
    · have inside' : pos < second.length := by omega
      rw [List.getElem?_zipWith]
      simp [inside, inside']
    · have outside : second.length ≤ pos := by omega
      simp [List.getElem?_zipWith, List.getElem?_eq_none (Nat.not_lt.mp inside), List.getElem?_eq_none outside]
  have differs : ∃ pos : Nat, first[pos]?.getD false ≠ second[pos]?.getD false := by
    by_contra none_
    refine changed (List.ext_getElem same fun pos inside inside' => ?_)
    have equal := not_not.mp (not_exists.mp none_ pos)
    simpa [inside, inside'] using equal
  have lost := @crcBits_burst _ poly top (List.zipWith xor first second) start
    (fun pos set => burst pos ((bit pos).mp set)) (differs.imp fun pos => (bit pos).mpr)
  intro equal
  apply lost
  have cancel := crcBits_xor poly crc crc same
  rw [equal, BitVec.xor_self, BitVec.xor_self] at cancel
  exact cancel

end Crc

section Bytes

theorem byteBits_length (byte : UInt8) : (byteBits byte).length = 8 := by
  simp [byteBits]

theorem serialBits_cons (byte : UInt8) (rest : List UInt8) : serialBits (byte :: rest) = byteBits byte ++ serialBits rest := rfl

theorem serialBits_length (bytes : List UInt8) : (serialBits bytes).length = 8 * bytes.length := by
  induction bytes with
  | nil => rfl
  | cons byte rest ih =>
    rw [serialBits_cons, List.length_append, byteBits_length, ih, List.length_cons]
    omega

theorem serialBits_getElem? (bytes : List UInt8) (pos : Nat) : (serialBits bytes)[pos]?.getD false = bitAt bytes pos := by
  induction bytes generalizing pos with
  | nil => simp [serialBits, bitAt]
  | cons byte rest ih =>
    rw [serialBits_cons]
    by_cases here : pos < 8
    · have byte_ : pos / 8 = 0 := by omega
      have bit : pos % 8 = pos := by omega
      rw [List.getElem?_append_left (by rw [byteBits_length]; exact here)]
      simp [byteBits, bitAt, byte_, bit, here]
    · have byte_ : pos / 8 = (pos - 8) / 8 + 1 := by omega
      have bit : pos % 8 = (pos - 8) % 8 := by omega
      rw [List.getElem?_append_right (by rw [byteBits_length]; omega), byteBits_length, ih, bitAt, bitAt, byte_, bit,
        List.getElem?_cons_succ]

theorem serialBits_injective {first second : List UInt8} (same : first.length = second.length)
    (bits : serialBits first = serialBits second) : first = second := by
  refine List.ext_getElem same fun index inside inside' => ?_
  rw [<- UInt8.toNat_inj]
  apply Nat.eq_of_testBit_eq
  intro i
  by_cases low : i < 8
  · have bit := (serialBits_getElem? first (8 * index + i)).symm.trans (bits ▸ serialBits_getElem? second (8 * index + i))
    have byte_ : (8 * index + i) / 8 = index := by omega
    have offset : (8 * index + i) % 8 = i := by omega
    simpa [bitAt, byte_, offset, inside, inside'] using bit
  · have high (byte : UInt8) : byte.toNat.testBit i = false :=
      Nat.testBit_lt_two_pow (Nat.lt_of_lt_of_le byte.toNat_lt (Nat.pow_le_pow_right (by decide) (Nat.not_lt.mp low)))
    rw [high, high]

end Bytes

end Nut
