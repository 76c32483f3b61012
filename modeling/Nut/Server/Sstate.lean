import Nut.Common.State
import Nut.Common.ParseConfReader
import Nut.Server.User

set_option autoImplicit false

namespace Nut

-- STAT_PENDING (-1) to STAT_CONVERSION_FAILED (4)
structure TrackingEntry where
  id : CString
  status : Int32
  requestTime : Int
  deriving DecidableEq, Repr

abbrev TrackingList := List TrackingEntry

def trackingSet (id value : CString) : TrackingList -> TrackingList
  | [] => []
  | item :: rest =>
    if strcasecmp item.id id = .eq then { item with status := atoi value } :: rest
    else item :: trackingSet id value rest

-- `upstype_t`, as far as the driver socket is concerned.
structure Upstype where
  name : CString
  fn : CString
  desc : Option CString
  -- whether `sock_fd` is valid
  connected : Bool
  stale : Bool
  dumpdone : Bool
  dataOk : Bool
  lastHeard : Int
  lastPing : Int
  sockCtx : PconfCtx
  inforoot : StTree
  cmdlist : CmdList
  numlogins : Int
  fsd : Bool
  retain : Bool
  deriving DecidableEq

def parseArgs (now : Int) (ups : Upstype) (tracking : TrackingList) (arg : List CString) :
    Upstype × TrackingList × Int :=
  match arg with
  | [] => (ups, tracking, 0)
  | arg0 :: args =>
    if isCommand arg0 "PONG" then (ups, tracking, 1)
    else if isCommand arg0 "DUMPDONE" then ({ ups with dumpdone := true }, tracking, 1)
    else if isCommand arg0 "DATASTALE" then ({ ups with dataOk := false }, tracking, 1)
    else if isCommand arg0 "DATAOK" then ({ ups with dataOk := true }, tracking, 1)
    else match args with
    | [] => (ups, tracking, 0)
    | arg1 :: args =>
      if isCommand arg0 "ADDCMD" then
        ({ ups with cmdlist := (stateAddcmd arg1 ups.cmdlist).1 }, tracking, 1)
      else if isCommand arg0 "DELCMD" then
        ({ ups with cmdlist := (stateDelcmd arg1 ups.cmdlist).1 }, tracking, 1)
      else if isCommand arg0 "DELINFO" then
        ({ ups with inforoot := (stateDelinfo arg1 ups.inforoot).1 }, tracking, 1)
      else match args with
      | [] => (ups, tracking, 0)
      | arg2 :: args =>
        if isCommand arg0 "SETFLAGS" then
          ({ ups with inforoot := stateSetflags now arg1 (arg2 :: args) ups.inforoot }, tracking, 1)
        else if isCommand arg0 "SETINFO" then
          ({ ups with inforoot := (stateSetinfo now arg1 arg2 ups.inforoot).1 }, tracking, 1)
        else if isCommand arg0 "ADDENUM" then
          ({ ups with inforoot := (stateAddenum now arg1 arg2 ups.inforoot).1 }, tracking, 1)
        else if isCommand arg0 "DELENUM" then
          ({ ups with inforoot := (stateDelenum now arg1 arg2 ups.inforoot).1 }, tracking, 1)
        else if isCommand arg0 "SETAUX" then
          ({ ups with inforoot := (stateSetaux now arg1 arg2 ups.inforoot).1 }, tracking, 1)
        else if isCommand arg0 "TRACKING" then (ups, trackingSet arg1 arg2 tracking, 1)
        else match args with
        | [] => (ups, tracking, 0)
        | arg3 :: _ =>
          if isCommand arg0 "ADDRANGE" then
            ({ ups with inforoot := (stateAddrange now arg1 (atoi arg2) (atoi arg3) ups.inforoot).1 },
              tracking, 1)
          else if isCommand arg0 "DELRANGE" then
            ({ ups with inforoot := (stateDelrange now arg1 (atoi arg2) (atoi arg3) ups.inforoot).1 },
              tracking, 1)
          else (ups, tracking, 0)

def sstateLine (now : Int) (s : Upstype × TrackingList) (arg : List CString) : Upstype × TrackingList :=
  let (ups, tracking, ret) := parseArgs now s.1 s.2 arg
  (if ret ≠ 0 then { ups with lastHeard := now } else ups, tracking)

def sstateReadline (now : Int) (ups : Upstype) (tracking : TrackingList) (buf : CString) :
    Upstype × TrackingList :=
  let (sockCtx, ups, tracking) := readChars (sstateLine now) (ups.sockCtx, ups, tracking) buf
  ({ ups with sockCtx }, tracking)

def sstateConnect (now : Int) (ups : Upstype) : Upstype :=
  { ups with
    connected := true
    sockCtx := pconfInit
    dumpdone := false
    stale := false
    lastHeard := now
    inforoot := (stateSetinfo now (cstr "ups.status") (cstr "WAIT") ups.inforoot).1 }

def sstateDisconnect (ups : Upstype) : Upstype :=
  if ups.connected then { ups with inforoot := .nil, cmdlist := [], connected := false } else ups

end Nut
