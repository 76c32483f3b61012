import Nut.Library.Crc
import Nut.Drivers.EcoflowCdc

set_option autoImplicit false

namespace Nut.EcoflowCdc

def number : List UInt8 -> Nat
  | [] => 0
  | byte :: rest => byte.toNat + 256 * number rest

def crcPoly : BitVec 16 := 0xa001

structure Segment where
  type : UInt16
  data : List UInt8
  short : data.length < 256

def Segment.bytes (segment : Segment) : List UInt8 :=
  [segment.type.toUInt8, (segment.type >>> 8).toUInt8, UInt8.ofNat segment.data.length] ++ segment.data

def Segmented (bytes : List UInt8) : Prop :=
  ∃ segments : List Segment, bytes = segments.flatMap Segment.bytes

def payload (frame : List UInt8) : List UInt8 :=
  ((frame.take (frame.length - 2)).drop 22).map (· ^^^ frame[6]?.getD 0)

structure Intact (frame : List UInt8) (sequence : UInt32) : Prop where
  lengths : 24 ≤ frame.length ∧ frame.length ≤ 4096
  preamble : number (frame.take 2) = 0x03aa
  size : 20 + number ((frame.drop 2).take 2) = frame.length
  residue : crcBits crcPoly 0 (serialBits frame) = 0
  sequence : number ((frame.drop 6).take 4) = sequence.toNat
  segments : Segmented (payload frame)

structure Burst (frame other : List UInt8) : Prop where
  length : other.length = frame.length
  changed : other ≠ frame
  within : ∃ start, ∀ pos, bitAt other pos ≠ bitAt frame pos -> start ≤ pos ∧ pos < start + 16

def Accepts (frame : List UInt8) (sequence : UInt32) : Prop :=
  ∀ metrics, ∃ filled, parseFrame frame frame.length sequence metrics = .ok (0, filled)

section Numbers

theorem le16_toNat (low high : UInt8) : (low.toUInt16 ||| (high.toUInt16 <<< 8)).toNat = low.toNat + 256 * high.toNat := by
  have lowBound := low.toNat_lt
  have highBound := high.toNat_lt
  have shifted : (high.toUInt16 <<< 8).toNat = 2 ^ 8 * high.toNat := by
    simp [Nat.shiftLeft_eq]
    omega
  rw [UInt16.toNat_or, shifted, UInt8.toNat_toUInt16, Nat.or_comm, <- Nat.two_pow_add_eq_or_of_lt lowBound]
  omega

theorem le32_toNat (first second third fourth : UInt8) :
    (first.toUInt32 ||| (second.toUInt32 <<< 8) ||| (third.toUInt32 <<< 16) ||| (fourth.toUInt32 <<< 24)).toNat =
      number [first, second, third, fourth] := by
  have firstBound := first.toNat_lt
  have secondBound := second.toNat_lt
  have thirdBound := third.toNat_lt
  have fourthBound := fourth.toNat_lt
  have shifted2 : (second.toUInt32 <<< 8).toNat = 2 ^ 8 * second.toNat := by
    simp [Nat.shiftLeft_eq]
    omega
  have shifted3 : (third.toUInt32 <<< 16).toNat = 2 ^ 16 * third.toNat := by
    simp [Nat.shiftLeft_eq]
    omega
  have shifted4 : (fourth.toUInt32 <<< 24).toNat = 2 ^ 24 * fourth.toNat := by
    simp [Nat.shiftLeft_eq]
    omega
  simp only [UInt32.toNat_or, shifted2, shifted3, shifted4, UInt8.toNat_toUInt32]
  rw [Nat.or_comm first.toNat, <- Nat.two_pow_add_eq_or_of_lt firstBound, Nat.or_comm _ (2 ^ 16 * _),
    <- Nat.two_pow_add_eq_or_of_lt (by omega), Nat.or_comm _ (2 ^ 24 * _), <- Nat.two_pow_add_eq_or_of_lt (by omega)]
  simp only [number]
  omega

theorem number_two (low high : UInt8) : number [low, high] = low.toNat + 256 * high.toNat := by
  simp [number]

end Numbers

section Reads

variable {data : List UInt8} {offset : Nat}

theorem loadLe16_inside (inside : offset + 1 < data.length) :
    ∃ value, loadLe16 data offset = .ok value ∧ value.toNat = number ((data.drop offset).take 2) := by
  have slice : (data.drop offset).take 2 = [data[offset], data[offset + 1]] := by
    rw [List.drop_eq_getElem_cons (by omega), List.drop_eq_getElem_cons inside]
    rfl
  rw [slice, number_two, <- le16_toNat]
  unfold loadLe16
  rw [readAt_inside (show offset < data.length by omega), readAt_inside inside]
  exact ⟨_, rfl, rfl⟩

theorem loadLe32_inside (inside : offset + 3 < data.length) :
    ∃ value, loadLe32 data offset = .ok value ∧ value.toNat = number ((data.drop offset).take 4) := by
  have slice : (data.drop offset).take 4 = [data[offset], data[offset + 1], data[offset + 2], data[offset + 3]] := by
    rw [List.drop_eq_getElem_cons (by omega), List.drop_eq_getElem_cons (by omega), List.drop_eq_getElem_cons (by omega),
      List.drop_eq_getElem_cons inside]
    rfl
  rw [slice, <- le32_toNat]
  unfold loadLe32
  rw [readAt_inside (show offset < data.length by omega), readAt_inside (show offset + 1 < data.length by omega),
    readAt_inside (show offset + 2 < data.length by omega), readAt_inside inside]
  exact ⟨_, rfl, rfl⟩

end Reads

section Residue

theorem crcShift_toBitVec (crc : UInt16) : (crcShift crc).toBitVec = crcStep crcPoly crc.toBitVec := by
  have low : (crc &&& 1 ≠ 0) ↔ crc.toBitVec.getLsbD 0 = true := by
    have bit : (crc &&& 1).toBitVec = (BitVec.ofBool (crc.toBitVec.getLsbD 0)).setWidth 16 := by
      rw [UInt16.toBitVec_and]
      exact BitVec.and_one_eq_setWidth_ofBool_getLsbD
    rw [Ne, <- UInt16.toBitVec_inj, bit]
    cases crc.toBitVec.getLsbD 0 <;> decide
  unfold crcShift crcStep
  simp only [low]
  split <;> simp [crcPoly]

theorem crcShifts_toBitVec (count : Nat) (crc : UInt16) :
    (crcShifts count crc).toBitVec = crcSteps crcPoly count crc.toBitVec := by
  induction count generalizing crc with
  | zero => rfl
  | succ count ih => rw [crcShifts, ih, crcShift_toBitVec, crcSteps]

theorem packBits_byte (byte : UInt8) : packBits 16 (byteBits byte) = byte.toUInt16.toBitVec := by
  apply BitVec.eq_of_getLsbD_eq
  intro i inside
  rw [packBits_getLsbD]
  by_cases low : i < 8
  · have same : byte.toNat.testBit i = byte.toBitVec.getLsbD i := rfl
    simp [byteBits, low, inside, same]
  · have high : byte.toBitVec.getLsbD i = false := BitVec.getLsbD_of_ge _ _ (by omega)
    simp [byteBits, low, inside, high]

theorem crcByte_toBitVec (crc : UInt16) (byte : UInt8) :
    (crcByte crc byte).toBitVec = crcBits crcPoly crc.toBitVec (byteBits byte) := by
  have short : (byteBits byte).length ≤ 16 := by simp [byteBits_length]
  rw [crcByte, crcShifts_toBitVec, crcBits_packed _ _ short, byteBits_length, packBits_byte, UInt16.toBitVec_xor]

theorem crcBytes_toBitVec (crc : UInt16) (bytes : List UInt8) :
    (bytes.foldl crcByte crc).toBitVec = crcBits crcPoly crc.toBitVec (serialBits bytes) := by
  induction bytes generalizing crc with
  | nil => rfl
  | cons byte rest ih => rw [List.foldl_cons, ih, crcByte_toBitVec, serialBits_cons, crcBits_append]

theorem crc16_reads (data : List UInt8) {length : Nat} (inside : length ≤ data.length) :
    crc16 data length = .ok ((data.take length).foldl crcByte 0) := by
  induction length with
  | zero => rfl
  | succ length ih =>
    have earlier := ih (by omega)
    have last : (data.take (length + 1)).foldl crcByte 0 = crcByte ((data.take length).foldl crcByte 0) data[length] := by
      rw [<- List.take_concat_get inside, List.concat_eq_append, List.foldl_append]
      rfl
    rw [last]
    unfold crc16 at earlier ⊢
    rw [List.range_succ, List.foldlM_append, earlier]
    simp [readAt_inside (show length < data.length by omega), Bind.bind, Except.bind, Pure.pure, Except.pure]

theorem residue_iff (frame : List UInt8) : frame.foldl crcByte 0 = 0 ↔ crcBits crcPoly 0 (serialBits frame) = 0 := by
  rw [<- UInt16.toBitVec_inj, crcBytes_toBitVec]
  rfl

end Residue

section Payload

theorem copyFrame_inside {frame : List UInt8} {count : Nat} (inside : count ≤ frame.length) (fits : count ≤ maxFrameSize) :
    copyFrame frame count = .ok (frame.take count) := if_pos ⟨inside, fits⟩

theorem xorFrom_reads (key : UInt8) (before decoded : List UInt8) :
    xorFrom key before.length decoded.length (before ++ decoded) = .ok (before ++ decoded.map (· ^^^ key)) := by
  induction decoded generalizing before with
  | nil => simp [xorFrom, Pure.pure, Except.pure]
  | cons byte rest ih =>
    have inside : before.length < (before ++ byte :: rest).length := by simp
    have here : (before ++ byte :: rest)[before.length] = byte := by simp
    have next := ih (before ++ [byte ^^^ key])
    have written : (before ++ byte :: rest).set before.length (byte ^^^ key) = before ++ [byte ^^^ key] ++ rest := by simp
    rw [List.length_append, List.length_singleton] at next
    unfold xorFrom at next ⊢
    rw [List.length_cons, List.range'_succ, List.foldlM_cons, readAt_inside inside, here, ok_bind,
      writeAt_inside inside, written, ok_bind, next]
    simp

theorem segmented_nil : Segmented [] := ⟨[], rfl⟩

theorem segment_type_bytes (low high : UInt8) : ∃ type : UInt16, type.toUInt8 = low ∧ (type >>> 8).toUInt8 = high := by
  have lowBound := low.toNat_lt
  have highBound := high.toNat_lt
  refine ⟨low.toUInt16 ||| (high.toUInt16 <<< 8), ?_, ?_⟩
  · rw [<- UInt8.toNat_inj, UInt16.toNat_toUInt8, le16_toNat]
    omega
  · rw [<- UInt8.toNat_inj, UInt16.toNat_toUInt8, UInt16.toNat_shiftRight, le16_toNat]
    simp [Nat.shiftRight_eq_div_pow]
    omega

theorem segmented_cons (low high length : UInt8) (rest : List UInt8) :
    Segmented (low :: high :: length :: rest) ↔ length.toNat ≤ rest.length ∧ Segmented (rest.drop length.toNat) := by
  constructor
  · rintro ⟨segments, split⟩
    cases segments with
    | nil => simp at split
    | cons segment segments =>
      have short := segment.short
      rw [List.flatMap_cons, Segment.bytes] at split
      simp only [List.cons_append, List.nil_append, List.cons.injEq] at split
      obtain ⟨-, -, size, rest_⟩ := split
      have count : length.toNat = segment.data.length := by
        rw [size, UInt8.toNat_ofNat_of_lt' (by simpa using short)]
      rw [count, rest_]
      exact ⟨by simp, segments, by simp⟩
  · rintro ⟨inside, segments, split⟩
    obtain ⟨type, isLow, isHigh⟩ := segment_type_bytes low high
    have bound := length.toNat_lt
    have count : (rest.take length.toNat).length = length.toNat := by
      rw [List.length_take]
      omega
    refine ⟨⟨type, rest.take length.toNat, by omega⟩ :: segments, ?_⟩
    rw [List.flatMap_cons, <- split]
    simp only [Segment.bytes, isLow, isHigh, count]
    simp

theorem segmented_short {bytes : List UInt8} (nonempty : bytes ≠ []) (short : bytes.length < 3) : ¬Segmented bytes := by
  rintro ⟨segments, split⟩
  cases segments with
  | nil => exact nonempty split
  | cons segment segments =>
    have length := congrArg List.length split
    simp [Segment.bytes] at length
    omega

theorem parseSegment_reads (type : UInt16) {data : List UInt8} {offset length : Nat} (inside : offset + length ≤ data.length)
    (metrics : Metrics) : ∃ filled, parseSegment type data offset length metrics = .ok filled := by
  have byte {i : Nat} (within : i < length) : ∃ value, readAt data (offset + i) = .ok value :=
    ⟨_, readAt_inside (show offset + i < data.length by omega)⟩
  have word16 (within : 2 ≤ length) : ∃ value, loadLe16 data offset = .ok value :=
    (loadLe16_inside (show offset + 1 < data.length by omega)).imp fun _ read => read.1
  have word32 (within : 4 ≤ length) : ∃ value, loadLe32 data offset = .ok value :=
    (loadLe32_inside (show offset + 3 < data.length by omega)).imp fun _ read => read.1
  have done (metrics : Metrics) : ∃ filled : Metrics, (.ok metrics : Checked Metrics) = .ok filled := ⟨metrics, rfl⟩
  unfold parseSegment
  split
  case h_2 =>
    split
    next enough =>
      obtain ⟨system, first⟩ := byte (show 0 < length by omega)
      obtain ⟨battery, second⟩ := byte (show 1 < length by omega)
      rw [Nat.add_zero] at first
      rw [first, ok_bind, second]
      exact done _
    next => exact done _
  case h_6 =>
    split
    next enough =>
      obtain ⟨minutes, read⟩ := word16 enough
      rw [read, ok_bind]
      split <;> exact done _
    next => exact done _
  case h_7 =>
    split
    next enough =>
      obtain ⟨first, read0⟩ := byte (show 0 < length by omega)
      obtain ⟨second, read1⟩ := byte (show 1 < length by omega)
      obtain ⟨third, read2⟩ := byte (show 2 < length by omega)
      obtain ⟨fourth, read3⟩ := byte (show 3 < length by omega)
      rw [Nat.add_zero] at read0
      rw [read0, ok_bind, read1, ok_bind, read2, ok_bind, read3]
      exact done _
    next => exact done _
  case h_8 =>
    split
    next member sign _ =>
      unfold parseFloat
      split
      next enough =>
        obtain ⟨bits, read⟩ := word32 (Nat.le_of_eq enough.symm)
        rw [read, ok_bind]
        split <;> exact done _
      next => exact done _
    next => exact done _
  all_goals
    split
    next enough =>
      first
        | obtain ⟨value, read⟩ := word32 (by omega)
          rw [read]
          exact done _
        | obtain ⟨value, read⟩ := word16 (by omega)
          rw [read]
          exact done _
    next => exact done _

theorem parseSegments_reads (decoded : List UInt8) (offset : Nat) (metrics : Metrics) :
    ∃ code filled, parseSegments decoded decoded.length offset metrics = .ok (code, filled) ∧
      (code = 0 ↔ Segmented (decoded.drop offset)) := by
  generalize left : decoded.length - offset = count
  induction count using Nat.strongRecOn generalizing offset metrics with
  | ind count ih =>
    rw [parseSegments]
    by_cases more : offset < decoded.length
    · rw [if_pos more]
      by_cases short : decoded.length - offset < 3
      · rw [if_pos short]
        have nonempty : decoded.drop offset ≠ [] := by simpa using more
        have fails := segmented_short nonempty (by simpa using short)
        exact ⟨-6, metrics, rfl, by simp [fails]⟩
      · rw [if_neg short]
        obtain ⟨type, isType, -⟩ := loadLe16_inside (show offset + 1 < decoded.length by omega)
        have inside : offset + 2 < decoded.length := by omega
        have split : decoded.drop offset =
            decoded[offset] :: decoded[offset + 1] :: decoded[offset + 2] :: decoded.drop (offset + 3) := by
          rw [List.drop_eq_getElem_cons more, List.drop_eq_getElem_cons (by omega), List.drop_eq_getElem_cons inside]
        rw [isType, ok_bind, readAt_inside inside, ok_bind, split, segmented_cons, List.length_drop, List.drop_drop]
        by_cases large : decoded[offset + 2].toNat > decoded.length - (offset + 3)
        · rw [if_pos large]
          refine ⟨-7, metrics, rfl, ?_⟩
          constructor
          · intro zero
            cases zero
          · rintro ⟨fits, -⟩
            omega
        · rw [if_neg large]
          obtain ⟨filled, parsed⟩ := parseSegment_reads type
            (show offset + 3 + decoded[offset + 2].toNat ≤ decoded.length by omega) metrics
          obtain ⟨code, final, result, iff⟩ := ih (decoded.length - (offset + 3 + decoded[offset + 2].toNat)) (by omega)
            (offset + 3 + decoded[offset + 2].toNat) filled rfl
          rw [parsed, ok_bind, result]
          refine ⟨code, final, rfl, ?_⟩
          rw [iff, and_iff_right (by omega)]
    · rw [if_neg more, List.drop_eq_nil_of_le (by omega)]
      exact ⟨0, metrics, rfl, by simp [segmented_nil]⟩

end Payload

section Frames

theorem key_eq {frame : List UInt8} {sequence : UInt32} (inside : 9 < frame.length)
    (isSequence : sequence.toNat = number ((frame.drop 6).take 4)) :
    (sequence &&& 0xff).toUInt8 = frame[6]?.getD 0 := by
  have low := frame[6].toNat_lt
  have slice : (frame.drop 6).take 4 = frame[6] :: (frame.drop 7).take 3 := by
    rw [List.drop_eq_getElem_cons (by omega)]
    rfl
  rw [slice, number] at isSequence
  have masked : (sequence &&& 0xff).toNat = sequence.toNat % 256 := by
    rw [UInt32.toNat_and]
    exact Nat.and_two_pow_sub_one_eq_mod sequence.toNat 8
  rw [List.getElem?_eq_getElem (by omega), Option.getD_some, <- UInt8.toNat_inj, UInt32.toNat_toUInt8, masked]
  omega

theorem parseFrame_reads (frame : List UInt8) (sequence : UInt32) (metrics : Metrics) :
    ∃ code filled, parseFrame frame frame.length sequence metrics = .ok (code, filled) ∧
      (code = 0 ↔ Intact frame sequence) := by
  unfold parseFrame
  by_cases sized : frame.length < segmentOffset + 2 ∨ frame.length > maxFrameSize
  · rw [if_pos sized]
    refine ⟨-1, metrics, rfl, ?_⟩
    constructor
    · intro zero
      cases zero
    · intro intact
      have lengths := intact.lengths
      simp only [segmentOffset, maxFrameSize] at sized
      omega
  rw [if_neg sized]
  have lengths : 24 ≤ frame.length ∧ frame.length ≤ 4096 := by
    simp only [segmentOffset, maxFrameSize] at sized
    omega
  obtain ⟨start, isStart, startValue⟩ := loadLe16_inside (show 0 + 1 < frame.length by omega)
  obtain ⟨size, isSize, sizeValue⟩ := loadLe16_inside (show 2 + 1 < frame.length by omega)
  obtain ⟨found, isFound, foundValue⟩ := loadLe32_inside (show 6 + 3 < frame.length by omega)
  rw [isStart, ok_bind]
  by_cases wrongStart : start ≠ preamble
  · rw [if_pos wrongStart]
    refine ⟨-2, metrics, rfl, ?_⟩
    simp only [Int.reduceNeg, reduceCtorEq, false_iff]
    intro intact
    apply wrongStart
    rw [<- UInt16.toNat_inj, startValue]
    exact intact.preamble
  rw [if_neg wrongStart, isSize, ok_bind]
  by_cases wrongSize : 20 + size.toNat ≠ frame.length
  · rw [if_pos wrongSize]
    refine ⟨-3, metrics, rfl, ?_⟩
    simp only [Int.reduceNeg, reduceCtorEq, false_iff]
    intro intact
    exact wrongSize (sizeValue ▸ intact.size)
  rw [if_neg wrongSize, crc16_reads frame (Nat.le_refl _), List.take_length, ok_bind]
  by_cases wrongCrc : frame.foldl crcByte 0 ≠ 0
  · rw [if_pos wrongCrc]
    refine ⟨-4, metrics, rfl, ?_⟩
    simp only [Int.reduceNeg, reduceCtorEq, false_iff]
    intro intact
    exact wrongCrc ((residue_iff frame).mpr intact.residue)
  rw [if_neg wrongCrc, isFound, ok_bind]
  by_cases wrongSequence : found ≠ sequence
  · rw [if_pos wrongSequence]
    refine ⟨-5, metrics, rfl, ?_⟩
    simp only [Int.reduceNeg, reduceCtorEq, false_iff]
    intro intact
    apply wrongSequence
    rw [<- UInt32.toNat_inj, foundValue]
    exact intact.sequence
  rw [if_neg wrongSequence, copyFrame_inside (Nat.sub_le _ _) (by simp only [maxFrameSize]; omega), ok_bind,
    key_eq (by omega) foundValue]
  have header : (frame.take 18).length = xorOffset := by
    rw [List.length_take, xorOffset]
    omega
  have rest : ((frame.take (frame.length - 2)).drop 18).length = frame.length - 2 - xorOffset := by
    rw [List.length_drop, List.length_take, xorOffset]
    omega
  have parts : frame.take (frame.length - 2) = frame.take 18 ++ (frame.take (frame.length - 2)).drop 18 := by
    conv => lhs; rw [<- List.take_append_drop 18 (frame.take (frame.length - 2)), List.take_take]
    rw [Nat.min_eq_left (by omega)]
  have decoded := xorFrom_reads (frame[6]?.getD 0) (frame.take 18) ((frame.take (frame.length - 2)).drop 18)
  rw [header, rest, <- parts] at decoded
  rw [decoded, ok_bind]
  have length : (frame.take 18 ++ ((frame.take (frame.length - 2)).drop 18).map (· ^^^ frame[6]?.getD 0)).length =
      frame.length - 2 := by
    rw [List.length_append, List.length_map, header, rest, xorOffset]
    omega
  have walked := parseSegments_reads
    (frame.take 18 ++ ((frame.take (frame.length - 2)).drop 18).map (· ^^^ frame[6]?.getD 0)) segmentOffset .empty
  rw [length] at walked
  obtain ⟨code, filled, result, iff⟩ := walked
  have behind : (frame.take 18 ++ ((frame.take (frame.length - 2)).drop 18).map (· ^^^ frame[6]?.getD 0)).drop
      segmentOffset = payload frame := by
    have more : segmentOffset = (frame.take 18).length + 4 := by
      rw [header]
      rfl
    rw [more, List.drop_append, List.drop_eq_nil_of_le (Nat.le_add_right _ _), List.nil_append, Nat.add_sub_cancel_left,
      <- List.map_drop, List.drop_drop]
    rfl
  rw [behind] at iff
  refine ⟨code, filled, result, iff.trans ⟨fun segments => ?_, Intact.segments⟩⟩
  exact
    { lengths
      preamble := by
        rw [<- List.drop_zero (l := frame), <- startValue, not_ne_iff.mp wrongStart]
        rfl
      size := by rw [<- sizeValue, not_ne_iff.mp wrongSize]
      residue := (residue_iff frame).mp (not_ne_iff.mp wrongCrc)
      sequence := by rw [<- foundValue, not_ne_iff.mp wrongSequence]
      segments }

theorem accepts_iff (frame : List UInt8) (sequence : UInt32) : Accepts frame sequence ↔ Intact frame sequence := by
  constructor
  · intro accepts
    obtain ⟨filled, accepted⟩ := accepts .empty
    obtain ⟨code, filled', result, iff⟩ := parseFrame_reads frame sequence .empty
    rw [accepted, Except.ok.injEq, Prod.mk.injEq] at result
    exact iff.mp result.1.symm
  · intro intact metrics
    obtain ⟨code, filled, result, iff⟩ := parseFrame_reads frame sequence metrics
    rw [iff.mpr intact] at result
    exact ⟨filled, result⟩

theorem residue_burst {frame other : List UInt8} (burst : Burst frame other)
    (residue : crcBits crcPoly 0 (serialBits frame) = 0) : crcBits crcPoly 0 (serialBits other) ≠ 0 := by
  obtain ⟨start, within⟩ := burst.within
  have same : (serialBits other).length = (serialBits frame).length := by
    rw [serialBits_length, serialBits_length, burst.length]
  have apart : serialBits other ≠ serialBits frame := fun equal => burst.changed (serialBits_injective burst.length equal)
  have differ := crcBits_differ crcPoly (by decide) 0 same
    (fun pos differs => within pos (by rwa [serialBits_getElem?, serialBits_getElem?] at differs)) apart
  rwa [residue] at differ

end Frames

-- Frames are accepted exactly when they are intact, without a read outside, and a burst never goes unnoticed.
theorem frames_intact (frame : List UInt8) :
    (∀ sequence metrics, ∃ code filled, parseFrame frame frame.length sequence metrics = .ok (code, filled)) ∧
      (∀ sequence, Accepts frame sequence ↔ Intact frame sequence) ∧
      ∀ sequence, Accepts frame sequence -> ∀ other, Burst frame other -> ∀ sequence', ¬Accepts other sequence' := by
  refine ⟨fun sequence metrics => ?_, accepts_iff frame, fun sequence accepts other burst sequence' accepted => ?_⟩
  · obtain ⟨code, filled, result, -⟩ := parseFrame_reads frame sequence metrics
    exact ⟨code, filled, result⟩
  · have intact := (accepts_iff frame sequence).mp accepts
    have intact' := (accepts_iff other sequence').mp accepted
    exact residue_burst burst intact.residue intact'.residue

end Nut.EcoflowCdc
