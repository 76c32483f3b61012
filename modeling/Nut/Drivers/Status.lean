import Nut.Common.TokenList
import Nut.Drivers.DstateRun
import Nut.Server.User

set_option autoImplicit false

namespace Nut

-- The part of dstate.c that manages `ups.status` and `ups.alarm`; `published` is what `ups.status` was set to.
structure Status where
  dstate : Dstate
  ignorelb : Bool
  statusBuf : CString
  alarmBuf : CString
  alarmActive : Bool
  alarmStatus : Bool
  alarmLegacyStatus : Bool
  published : List CString

-- How `battery.charge` compares to its value at the last change, as far as both are known and below 100.
inductive Trend where
  | unknown
  | rising
  | falling
  deriving DecidableEq, Repr

namespace Status

def start : Status :=
  { dstate := .empty, ignorelb := false, statusBuf := [], alarmBuf := [], alarmActive := false, alarmStatus := false,
    alarmLegacyStatus := false, published := [] }

def getinfo (s : Status) (var : String) : Option CString :=
  stateGetinfo s.dstate.dtreeRoot (cstr var)

def statusInit (s : Status) : Status :=
  { s with
    ignorelb := (s.getinfo "driver.flag.ignorelb").isSome
    statusBuf := []
    alarmStatus := false
    alarmLegacyStatus := false }

def statusGet (s : Status) (word : String) : Bool :=
  strContainsToken s.statusBuf (cstr word)

def statusAccepts (ignorelb : Bool) (token : CString) : Bool :=
  !(ignorelb && isCommand token "LB") && !isCommand token "ALARM"

def statusSet (buf : CString) (s : Status) : Status :=
  { s with
    statusBuf := (strAddUniqueToken s.statusBuf stMaxValueLen buf (statusAccepts s.ignorelb)).1
    alarmLegacyStatus := s.alarmLegacyStatus || (strtok 32 buf).any fun token => isCommand token "ALARM" }

def isBelow (s : Status) (var low : String) : Bool :=
  match s.getinfo var, s.getinfo low with
  | some val, some low => strtol val < strtol low
  | _, _ => false

def isLow (s : Status) : Bool :=
  s.isBelow "battery.charge" "battery.charge.low" || s.isBelow "battery.runtime" "battery.runtime.low"

def appendLB (s : Status) : Status :=
  if s.ignorelb && s.isLow then { s with statusBuf := snprintfcat s.statusBuf stMaxValueLen (cstr " LB") } else s

def chargeWord (trend : Trend) (reportsDISCHRG reportsCHRG : Bool) : Option CString :=
  match trend with
  | .unknown => none
  | .rising => if (!reportsDISCHRG && !reportsCHRG) || reportsDISCHRG then some (cstr "CHRG") else none
  | .falling => if (!reportsDISCHRG && !reportsCHRG) || reportsCHRG then some (cstr "DISCHRG") else none

def addCharge (trend : Trend) (s : Status) : Status :=
  if (s.getinfo "battery.charge").isSome then
    match chargeWord trend (s.statusGet "DISCHRG") (s.statusGet "CHRG") with
    | some word => s.statusSet word
    | none => s
  else s

def statusText (s : Status) : CString :=
  if s.alarmActive || s.alarmLegacyStatus then
    if s.statusBuf ≠ [] then cstr "ALARM " ++ s.statusBuf else cstr "ALARM"
  else s.statusBuf

def statusCommit (now : Int) (trend : Trend) (s : Status) : Status :=
  let s := s.appendLB.addCharge trend
  { s with
    dstate := (Dstate.vdstateSetinfo now (cstr "ups.status") s.statusText s.dstate).1
    published := s.published ++ [snprintf stMaxValueLen s.statusText] }

def alarmInit (s : Status) : Status :=
  { s with alarmActive := false, alarmBuf := [] }

def alarmSet (buf : CString) (s : Status) : Status :=
  if s.alarmBuf.length < 1 ∨ (s.alarmStatus = true ∧ s.alarmBuf = cstr "[N/A]") then
    { s with alarmBuf := snprintf stMaxValueLen buf }
  else { s with alarmBuf := snprintfcat s.alarmBuf stMaxValueLen (cstr " " ++ buf) }

def alarmCommit (now : Int) (s : Status) : Status :=
  if s.alarmBuf.length > 0 then
    { s with
      dstate := (Dstate.vdstateSetinfo now (cstr "ups.alarm") s.alarmBuf s.dstate).1
      alarmActive := true }
  else { s with dstate := (Dstate.dstateDelinfo (cstr "ups.alarm") s.dstate).1, alarmActive := false }

end Status

-- A driver calls one of these functions, or changes something else that it publishes.
inductive StatusOp where
  | dstate (now : Int) (op : DstateOp)
  | statusInit
  | statusSet (buf : CString)
  | statusCommit (now : Int) (trend : Trend)
  | alarmInit
  | alarmSet (buf : CString)
  | alarmCommit (now : Int)

def Status.perform (s : Status) : StatusOp -> Status
  | .dstate now op => { s with dstate := (op.apply now s.dstate).1 }
  | .statusInit => s.statusInit
  | .statusSet buf => s.statusSet buf
  | .statusCommit now trend => s.statusCommit now trend
  | .alarmInit => s.alarmInit
  | .alarmSet buf => s.alarmSet buf
  | .alarmCommit now => s.alarmCommit now

end Nut
