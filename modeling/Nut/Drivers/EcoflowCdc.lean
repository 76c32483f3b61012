import Mathlib.Logic.Function.Basic
import Nut.Library.Checked

set_option autoImplicit false

namespace Nut.EcoflowCdc

inductive FloatMember where
  | outputPower
  | inputPower
  | acInputPower
  | acInputVoltage
  | solarInputPower
  | acOutputPower
  | dcOutputPower
  | usbAOutputPower
  | usbCOutputPower
  | extraBatteryInputPower
  | extraBatteryOutputPower
  deriving DecidableEq, Repr

structure Metrics where
  designCapacityMah : Option UInt32
  systemTemperature : Option UInt8
  batteryTemperature : Option UInt8
  floats : FloatMember -> Option Dyadic
  acInputFrequency : Option UInt16
  ratedOutputPower : Option UInt32
  acOutputFrequency : Option UInt16
  chargingRuntime : Option UInt32
  emsVersion : Option (List UInt8)

def Metrics.empty : Metrics :=
  { designCapacityMah := none, systemTemperature := none, batteryTemperature := none, floats := fun _ => none
    acInputFrequency := none, ratedOutputPower := none, acOutputFrequency := none, chargingRuntime := none
    emsVersion := none }

def maxFrameSize : Nat := 4096
def preamble : UInt16 := 0x03aa
def xorOffset : Nat := 18
def segmentOffset : Nat := 22

def loadLe16 (data : List UInt8) (offset : Nat) : Checked UInt16 := do
  let low <- readAt data offset
  let high <- readAt data (offset + 1)
  return low.toUInt16 ||| (high.toUInt16 <<< 8)

def loadLe32 (data : List UInt8) (offset : Nat) : Checked UInt32 := do
  let first <- readAt data offset
  let second <- readAt data (offset + 1)
  let third <- readAt data (offset + 2)
  let fourth <- readAt data (offset + 3)
  return first.toUInt32 ||| (second.toUInt32 <<< 8) ||| (third.toUInt32 <<< 16) ||| (fourth.toUInt32 <<< 24)

-- A `binary32` as the number it stands for; infinities and NaN are none.
def floatOfBits (bits : UInt32) : Option Dyadic :=
  let fraction := (bits &&& 0x007fffff).toNat
  let exponent := ((bits &&& 0x7f800000) >>> 23).toNat
  let decoded :=
    if exponent = 0 then Dyadic.ofIntWithPrec fraction 149
    else Dyadic.ofIntWithPrec (fraction + 0x00800000) (150 - exponent)
  if exponent = 0xff then none
  else if bits &&& 0x80000000 ≠ 0 then some (-decoded) else some decoded

def absolute (value : Dyadic) : Dyadic :=
  if value < 0 then -value else value

def floatSegment : Nat -> Option (FloatMember × (Dyadic -> Dyadic))
  | 7 => some (.outputPower, id)
  | 8 => some (.inputPower, id)
  | 9 => some (.acInputPower, id)
  | 11 => some (.acInputVoltage, id)
  | 12 => some (.solarInputPower, id)
  | 14 => some (.acOutputPower, absolute)
  | 16 => some (.dcOutputPower, absolute)
  | 17 => some (.usbAOutputPower, absolute)
  | 18 => some (.usbCOutputPower, absolute)
  | 20 => some (.extraBatteryInputPower, id)
  | 21 => some (.extraBatteryOutputPower, absolute)
  | _ => none

def parseFloat (member : FloatMember) (sign : Dyadic -> Dyadic) (data : List UInt8) (offset length : Nat)
    (metrics : Metrics) : Checked Metrics :=
  if length = 4 then do
    match floatOfBits (<- loadLe32 data offset) with
    | some value => return { metrics with floats := Function.update metrics.floats member (some (sign value)) }
    | none => return metrics
  else .ok metrics

def parseSegment (type : UInt16) (data : List UInt8) (offset length : Nat) (metrics : Metrics) : Checked Metrics :=
  match type.toNat with
  | 3 =>
    if length = 4 then do
      return { metrics with designCapacityMah := some (<- loadLe32 data offset) }
    else .ok metrics
  | 4 =>
    if length ≥ 2 then do
      let system <- readAt data offset
      let battery <- readAt data (offset + 1)
      return { metrics with systemTemperature := some system, batteryTemperature := some battery }
    else .ok metrics
  | 10 =>
    if length = 4 then do
      return { metrics with acInputFrequency := some (<- loadLe16 data offset) }
    else .ok metrics
  | 13 =>
    if length = 4 then do
      return { metrics with ratedOutputPower := some (<- loadLe32 data offset) }
    else .ok metrics
  | 15 =>
    if length = 4 then do
      return { metrics with acOutputFrequency := some (<- loadLe16 data offset) }
    else .ok metrics
  | 23 =>
    if length ≥ 2 then do
      let minutes <- loadLe16 data offset
      if minutes ≠ 0x1733 then return { metrics with chargingRuntime := some (minutes.toUInt32 * 60) }
      else return metrics
    else .ok metrics
  | 25 =>
    if length = 4 then do
      let first <- readAt data offset
      let second <- readAt data (offset + 1)
      let third <- readAt data (offset + 2)
      let fourth <- readAt data (offset + 3)
      return { metrics with emsVersion := some [first, second, third, fourth] }
    else .ok metrics
  | other =>
    match floatSegment other with
    | some (member, sign) => parseFloat member sign data offset length metrics
    | none => .ok metrics

def crcShift (crc : UInt16) : UInt16 :=
  if crc &&& 1 ≠ 0 then (crc >>> 1) ^^^ 0xa001 else crc >>> 1

def crcShifts : Nat -> UInt16 -> UInt16
  | 0, crc => crc
  | count + 1, crc => crcShifts count (crcShift crc)

def crcByte (crc : UInt16) (byte : UInt8) : UInt16 :=
  crcShifts 8 (crc ^^^ byte.toUInt16)

def crc16 (data : List UInt8) (length : Nat) : Checked UInt16 :=
  (List.range length).foldlM (fun crc i => do return crcByte crc (<- readAt data i)) 0

-- What lies behind the bytes that are copied was never written, and reading it is as bad as reading outside.
def copyFrame (frame : List UInt8) (count : Nat) : Checked (List UInt8) :=
  if count ≤ frame.length ∧ count ≤ maxFrameSize then .ok (frame.take count) else .error .outOfBounds

def xorFrom (key : UInt8) (offset count : Nat) (decoded : List UInt8) : Checked (List UInt8) :=
  (List.range' offset count).foldlM
    (fun decoded i => do
      let byte <- readAt decoded i
      writeAt decoded i (byte ^^^ key)) decoded

def parseSegments (decoded : List UInt8) (payloadEnd offset : Nat) (metrics : Metrics) : Checked (Int × Metrics) :=
  if offset < payloadEnd then
    if payloadEnd - offset < 3 then .ok (-6, metrics)
    else do
      let type <- loadLe16 decoded offset
      let segmentLength <- readAt decoded (offset + 2)
      if segmentLength.toNat > payloadEnd - (offset + 3) then return (-7, metrics)
      else
        let metrics <- parseSegment type decoded (offset + 3) segmentLength.toNat metrics
        parseSegments decoded payloadEnd (offset + 3 + segmentLength.toNat) metrics
  else .ok (0, metrics)
termination_by payloadEnd - offset

def parseFrame (frame : List UInt8) (length : Nat) (expectedSequence : UInt32) (metrics : Metrics) :
    Checked (Int × Metrics) :=
  if length < segmentOffset + 2 ∨ length > maxFrameSize then .ok (-1, metrics)
  else do
    let start <- loadLe16 frame 0
    if start ≠ preamble then return (-2, metrics)
    else
      let size <- loadLe16 frame 2
      if 20 + size.toNat ≠ length then return (-3, metrics)
      else
        let crc <- crc16 frame length
        if crc ≠ 0 then return (-4, metrics)
        else
          let sequence <- loadLe32 frame 6
          if sequence ≠ expectedSequence then return (-5, metrics)
          else
            let copied <- copyFrame frame (length - 2)
            let decoded <- xorFrom (sequence &&& 0xff).toUInt8 xorOffset (length - 2 - xorOffset) copied
            parseSegments decoded (length - 2) segmentOffset .empty

end Nut.EcoflowCdc
