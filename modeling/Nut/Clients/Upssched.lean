import Nut.Common.CString

set_option autoImplicit false

namespace Nut

def emptyWait : Nat := 15

def timeMax : Int := 2 ^ 63 - 1

-- `ttype_t`; `id` stands for the address of the record.
structure Timer where
  id : Nat
  name : CString
  etime : Int
  upsnames : List CString
  notifytypes : List CString
  notifymsgs : List CString
  deriving DecidableEq, Repr

inductive Executed where
  | timer (item : Timer)
  | cancelled (cname : CString)
  deriving DecidableEq, Repr

structure Upssched where
  thead : List Timer
  nextId : Nat
  emptyctr : Nat
  exited : Bool
  executed : List Executed
  deriving DecidableEq, Repr

def Upssched.started : Upssched :=
  { thead := [], nextId := 0, emptyctr := 0, exited := false, executed := [] }

def execCmdTimer (s : Upssched) (item : Timer) : Upssched :=
  if item.name = [] then s else { s with executed := s.executed ++ [.timer item] }

def removetimer (s : Upssched) (id : Nat) : Upssched :=
  { s with thead := s.thead.eraseP fun tmp => tmp.id == id }

-- The successor is read before the record goes.
def checktimersLoop (now : Int) : List Timer -> Upssched -> Upssched
  | [], s => s
  | tmp :: tmpnext, s =>
    if now ≥ tmp.etime then checktimersLoop now tmpnext (removetimer (execCmdTimer s tmp) tmp.id)
    else checktimersLoop now tmpnext s

def checktimers (now : Int) (s : Upssched) : Upssched :=
  if s.thead = [] then
    { s with emptyctr := s.emptyctr + 1, exited := decide (emptyWait ≤ s.emptyctr + 1) }
  else checktimersLoop now s.thead { s with emptyctr := 0 }

def pointerSize : Nat := 8

def firstString (val : CString) : List CString :=
  if val = [] then [] else [val]

-- `none` stands for undefined behaviour: an entry or the NULL behind it is written outside of the array. A longer array
-- gets as many bytes as it should have pointers.
def addString (list : List CString) (val : CString) : Option (List CString) :=
  if val = [] ∨ val ∈ list then some list
  else if list = [] then some [val]
  else if list.length + 2 ≤ (list.length + 2) / pointerSize then some (list ++ [val])
  else none

def Timer.share (notifytype upsname notifymsg : CString) (tmp : Timer) : Option Timer := do
  let notifytypes <- addString tmp.notifytypes notifytype
  let notifymsgs <- addString tmp.notifymsgs notifymsg
  let upsnames <- addString tmp.upsnames upsname
  return { tmp with notifytypes, notifymsgs, upsnames }

def shareTimer (name notifytype upsname notifymsg : CString) : List Timer -> Option (List Timer)
  | [] => some []
  | tmp :: rest =>
    if tmp.name = name then (tmp.share notifytype upsname notifymsg).map (· :: rest)
    else (shareTimer name notifytype upsname notifymsg rest).map (tmp :: ·)

-- The sum of `now` and the offset may overflow, too.
def startTimer (now : Int) (name ofsstr notifytype upsname notifymsg : CString) (sharedTimer : Bool)
    (s : Upssched) : Option Upssched :=
  let ofs := (strtol ofsstr).toInt
  if ofs < 0 then some s
  else if sharedTimer && s.thead.any fun tmp => tmp.name == name then
    (shareTimer name notifytype upsname notifymsg s.thead).map fun thead => { s with thead }
  else if now + ofs > timeMax then none
  else
    let tmp : Timer :=
      { id := s.nextId, name, etime := now + ofs, upsnames := firstString upsname,
        notifytypes := firstString notifytype, notifymsgs := firstString notifymsg }
    some { s with thead := s.thead ++ [tmp], nextId := s.nextId + 1 }

-- What a CANCEL is about; the strings that it does not come with are `none`.
structure Cancel where
  name : CString
  cname : Option CString
  notifytype : Option CString
  upsname : Option CString
  doCancelMatched : Bool

def blank (str : Option CString) : Bool :=
  str.getD [] == []

def Cancel.hits (cancel : Cancel) (tmp : Timer) : Bool :=
  tmp.name == cancel.name &&
    (!cancel.doCancelMatched || blank cancel.notifytype && blank cancel.upsname ||
      cancel.notifytype.all (tmp.notifytypes.contains ·) && cancel.upsname.all (tmp.upsnames.contains ·))

def cancelLoop (kept : Nat -> Bool) (cancel : Cancel) : List Timer -> Upssched -> Option Upssched
  | [], s => some s
  | tmp :: rest, s =>
    if cancel.hits tmp then
      if kept tmp.id then cancelLoop kept cancel rest (removetimer s tmp.id) else none
    else cancelLoop kept cancel rest s

def cancelTimer (kept : Nat -> Bool) (cancel : Cancel) (s : Upssched) : Option Upssched :=
  (cancelLoop kept cancel s.thead s).map fun s' =>
    -- Nothing was removed: the timer may have passed.
    if s.thead.any cancel.hits then s'
    else if blank cancel.cname then s'
    else { s' with executed := s'.executed ++ [.cancelled (cancel.cname.getD [])] }

inductive TimerRequest where
  | list
  | cancel (cancel : Cancel)
  | start (name ofsstr notifytype upsname notifymsg : CString) (sharedTimer : Bool)
  -- a CANCEL without a name, which is read all the same
  | noName
  | unknown

def cancelRequest (doCancelMatched : Bool) : List CString -> TimerRequest
  | [] => .noName
  | [name] => .cancel { name, cname := none, notifytype := none, upsname := none, doCancelMatched }
  | name :: cname :: notifytype :: upsname :: _ :: _ =>
    .cancel { name, cname := some cname, notifytype := some notifytype, upsname := some upsname, doCancelMatched }
  | name :: cname :: _ => .cancel { name, cname := some cname, notifytype := none, upsname := none, doCancelMatched }

-- How `sock_arg` of the daemon takes a line.
def timerRequest : List CString -> TimerRequest
  | [] => .unknown
  | cmd :: args =>
    if cmd = cstr "LIST-TIMERS" then .list
    else if cmd = cstr "CANCEL" then cancelRequest false args
    else if cmd = cstr "CANCEL-MATCHED" then cancelRequest true args
    else match args with
      | name :: ofsstr :: notifytype :: upsname :: notifymsg :: _ =>
        if cmd = cstr "START" then .start name ofsstr notifytype upsname notifymsg false
        else if cmd = cstr "START-SHARED" then .start name ofsstr notifytype upsname notifymsg true
        else .unknown
      | _ => .unknown

def upsschedSockArg (now : Int) (kept : Nat -> Bool) (arglist : List CString) (s : Upssched) :
    Option (Upssched × Bool) :=
  match timerRequest arglist with
  | .list => some (s, true)
  | .cancel cancel => (cancelTimer kept cancel s).map fun s => (s, true)
  | .start name ofsstr notifytype upsname notifymsg sharedTimer =>
    (startTimer now name ofsstr notifytype upsname notifymsg sharedTimer s).map fun s => (s, true)
  | .noName => none
  | .unknown => some (s, false)

-- What keeps the daemon busy: a line of a client, or the next look at the clock.
inductive TimerInput where
  | request (now : Int) (kept : Nat -> Bool) (arglist : List CString)
  | check (now : Int)

def timerStep (s : Upssched) : TimerInput -> Option Upssched
  | .request now kept arglist =>
    if s.exited then some s else (upsschedSockArg now kept arglist s).map Prod.fst
  | .check now => if s.exited then some s else some (checktimers now s)

def timerRun (s : Option Upssched) (input : TimerInput) : Option Upssched :=
  s.bind fun s => timerStep s input

end Nut
