import Mathlib.Logic.Function.Basic
import Nut.Drivers.Hidparser

set_option autoImplicit false

namespace Nut

def maxReportAlloc : Nat := 256

structure ReportBuf where
  ts : UInt8 -> Int
  len : UInt8 -> Nat
  cap : UInt8 -> Nat
  data : UInt8 -> Option (List UInt8)

def ReportBuf.empty : ReportBuf :=
  { ts := fun _ => 0, len := fun _ => 0, cap := fun _ => 0, data := fun _ => none }

-- An item of the loop in `new_report_buffer`; the tweak asks for more than was declared.
def allocReport (maxReportSize : Nat) (desc : HIDDesc) (rbuf : ReportBuf) (pData : HIDData) : ReportBuf :=
  let id := pData.reportID
  if (rbuf.data id).isSome then rbuf
  else
    let len := desc.replen[id.toNat]?.getD 0 + 1
    let cap := if maxReportSize ≠ 0 then maxReportAlloc else len
    { rbuf with
      len := Function.update rbuf.len id len
      cap := Function.update rbuf.cap id cap
      data := Function.update rbuf.data id (some (List.replicate cap 0)) }

def newReportBuffer (maxReportSize : Nat) (desc : HIDDesc) : ReportBuf :=
  desc.item.foldl (allocReport maxReportSize desc) .empty

-- `none` for a write outside the memory.
def memcpy (dest src : List UInt8) : Option (List UInt8) :=
  if src.length ≤ dest.length then some (src ++ dest.drop src.length) else none

structure Transfer where
  now : Int
  bytes : List UInt8
  ret : Int

-- `interrupt_only`, and the size that a transfer can have on this platform
structure HidSetup where
  interruptOnly : Bool
  charbufsizeMax : Nat

def refreshReportBuffer (setup : HidSetup) (transfer : Transfer) (age : Int) (pData : HIDData) (rbuf : ReportBuf) :
    Option (ReportBuf × Bool) :=
  let id := pData.reportID
  if setup.interruptOnly ∨ rbuf.ts id + age > transfer.now then some (rbuf, true)
  else
    let r :=
      if rbuf.cap id > setup.charbufsizeMax then min (setup.charbufsizeMax - 1) (rbuf.cap id) else rbuf.cap id
    (rbuf.data id).bind fun data =>
      (memcpy data (transfer.bytes.take r)).map fun data =>
        let rbuf := { rbuf with data := Function.update rbuf.data id (some data) }
        if transfer.ret ≤ 0 then (rbuf, false)
        else ({ rbuf with ts := Function.update rbuf.ts id transfer.now }, true)

def getItemBuffered (setup : HidSetup) (transfer : Transfer) (age : Int) (pData : HIDData) (rbuf : ReportBuf) :
    Option (ReportBuf × Option Int64) :=
  (refreshReportBuffer setup transfer age pData rbuf).bind fun
    | (rbuf, false) => some (rbuf, none)
    | (rbuf, true) =>
      (rbuf.data pData.reportID).bind fun data =>
        (getValue data pData).map fun value => (rbuf, some value)

def setItemBuffered (setup : HidSetup) (transfer : Transfer) (pData : HIDData) (value : Int64) (rbuf : ReportBuf) :
    Option ReportBuf :=
  let id := pData.reportID
  let r := if rbuf.len id > setup.charbufsizeMax then setup.charbufsizeMax - 1 else rbuf.len id
  (rbuf.data id).bind fun data =>
    (setValue pData data value).bind fun data =>
      if data.length < r then none
      else
        let rbuf := { rbuf with data := Function.update rbuf.data id (some data) }
        if transfer.ret ≤ 0 then some rbuf else some { rbuf with ts := Function.update rbuf.ts id 0 }

-- Nothing is copied for a report that was not declared.
def fileReportBuffer (transfer : Transfer) (id : UInt8) (rest : List UInt8) (rbuf : ReportBuf) : Option ReportBuf :=
  let filed := { rbuf with ts := Function.update rbuf.ts id transfer.now }
  match rbuf.data id with
  | none => if rbuf.len id = 0 then some filed else none
  | some data =>
    (memcpy data ((id :: rest).take (rbuf.len id))).map fun data =>
      { filed with data := Function.update rbuf.data id (some data) }

inductive ReportOp where
  | getItem (pData : HIDData) (age : Int) (transfer : Transfer)
  | setItem (pData : HIDData) (value : Int64) (transfer : Transfer)
  | fileReport (id : UInt8) (rest : List UInt8) (transfer : Transfer)

def reportStep (setup : HidSetup) (rbuf : ReportBuf) : ReportOp -> Option ReportBuf
  | .getItem pData age transfer => (getItemBuffered setup transfer age pData rbuf).map Prod.fst
  | .setItem pData value transfer => setItemBuffered setup transfer pData value rbuf
  | .fileReport id rest transfer => fileReportBuffer transfer id rest rbuf

-- `none` as soon as a byte outside the memory of a report is read or written.
def reportRun (setup : HidSetup) (rbuf : ReportBuf) (ops : List ReportOp) : Option ReportBuf :=
  ops.foldlM (reportStep setup) rbuf

end Nut
