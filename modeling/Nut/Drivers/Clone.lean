import Nut.Drivers.Main
import Nut.Drivers.Status

set_option autoImplicit false

namespace Nut

-- What the driver needs of `double`: `strtod`, `<` and `%f`.
class CDouble (D : Type) where
  zero : D
  strtod : CString -> D
  less : D -> D -> Bool
  print : D -> CString

inductive CloneAct where
  -- a shutdown command, whether the outlet was on and whether a countdown began
  | accepted (stayoff outlet started : Bool) (now : Int)
  -- the off countdown has ended
  | expired (now : Int)
  | loadOff (now : Int)
  | loadOn (now : Int)
  -- an update that found the upstream `OL` or not, and one that returned early
  | checked (online : Bool) (now : Int)
  | gaveUp (now : Int)
  deriving DecidableEq, Repr

structure CloneLevel (D : Type) where
  act : D
  low : D

-- The globals of clone.c; `own` is what the driver itself publishes.
structure Clone (D : Type) where
  timerStart : Int
  timerShutdown : Int
  loadOff : Option CString
  loadOn : Option CString
  loadStatus : Option CString
  status : CString
  charge : CloneLevel D
  runtime : CloneLevel D
  dumpdone : Bool
  online : Bool
  outlet : Bool
  offdelay : Int
  ondelay : Int
  sockCtx : PconfCtx
  lastPoll : Int
  lastHeard : Int
  lastPing : Int
  -- `VALID_FD(upsfd)`
  connected : Bool
  own : Status
  -- The time as dstate.c takes it, and how the charge has changed at the commits to come.
  clock : Int
  trends : List Trend
  -- the lines written to the upstream driver, and what happened
  sent : List CString
  journal : List CloneAct

-- How the upstream driver can be reached.
structure CloneContact where
  connects : Bool
  heardTime : Int

inductive CloneRead where
  | failed
  -- `EINTR` or `EAGAIN`
  | later
  | bytes (buf : CString)

structure CloneRound where
  now : Int
  later : Int
  deadTime : Int
  pings : Bool
  contact : CloneContact
  read : CloneRead
  lineTime : Int
  clock : Int
  trends : List Trend
  -- whether `load.off` or `load.on` can be written
  sends : Bool

inductive CloneAnswer where
  | handled
  | unknown
  deriving DecidableEq

namespace Clone

variable {D : Type}

def call (w : Clone D) (op : StatusOp) : Clone D :=
  { w with own := w.own.perform op }

def dstate (w : Clone D) (op : DstateOp) : Clone D :=
  w.call (.dstate w.clock op)

def statusCommit (w : Clone D) : Clone D :=
  { w.call (.statusCommit w.clock (w.trends.headD .unknown)) with trends := w.trends.tail }

def note (w : Clone D) (act : CloneAct) : Clone D :=
  { w with journal := w.journal ++ [act] }

def isDriverSetting (var : CString) : Bool :=
  Main.startsWith (cstr "driver.") var || isCommand var "battery.charge.low" || isCommand var "battery.runtime.low" ||
    Main.startsWith (cstr "ups.delay.") var || Main.startsWith (cstr "ups.timer.") var

def noteOutlet (val : CString) (w : Clone D) : Clone D :=
  let w := if isCommand val "off" || isCommand val "no" then { w with outlet := false } else w
  if isCommand val "on" || isCommand val "yes" then { w with outlet := true } else w

def publishLow [CDouble D] (w : Clone D) (var : String) (low : D) (aux : Int64) : Clone D :=
  let w := w.dstate (.setinfo (cstr var) (CDouble.print low))
  let w := w.dstate (.setflags (cstr var) (stFlagRw ||| stFlagString))
  w.dstate (.setaux (cstr var) aux)

def setinfo [CDouble D] (w : Clone D) (var val : CString) : Clone D :=
  if isDriverSetting var then w
  else if isCommand var "ups.status" then { w with status := snprintf stMaxValueLen val }
  else
    let w := if w.loadStatus.any fun name => strcasecmp var name = .eq then w.noteOutlet val else w
    let w := if isCommand var "battery.charge" then
        { w with charge.act := CDouble.strtod val }.publishLow "battery.charge.low" w.charge.low 3
      else w
    let w := if isCommand var "battery.runtime" then
        { w with runtime.act := CDouble.strtod val }.publishLow "battery.runtime.low" w.runtime.low 4
      else w
    w.dstate (.setinfo var val)

def parseArgs [CDouble D] (w : Clone D) (arg : List CString) : Clone D × Bool :=
  match arg with
  | [] => (w, false)
  | keyword :: arg =>
    if isCommand keyword "PONG" then (w, true)
    else if isCommand keyword "DUMPDONE" then ({ w with dumpdone := true }, true)
    else if isCommand keyword "DATASTALE" then (w.dstate .datastale, true)
    else if isCommand keyword "DATAOK" then (w.dstate .dataok, true)
    else match arg with
    | [] => (w, false)
    | var :: arg =>
      if isCommand keyword "DELINFO" then (w.dstate (.delinfo var), true)
      else match arg with
      | [] => (w, false)
      | val :: _ => if isCommand keyword "SETINFO" then (w.setinfo var val, true) else (w, false)

def readBytes [CDouble D] (lineTime : Int) : CString -> Clone D -> Clone D × Int
  | [], w => (w, 0)
  | b :: bytes, w =>
    let (ctx, parsed) := pconfChar w.sockCtx b
    let w := { w with sockCtx := ctx }
    if parsed = 1 then
      let (w, understood) := w.parseArgs ctx.arglist
      let w := if understood then { w with lastHeard := lineTime } else w
      readBytes lineTime bytes w
    else if parsed = 0 then readBytes lineTime bytes w
    else (w, -1)

def sstateReadline [CDouble D] (w : Clone D) (read : CloneRead) (lineTime : Int) : Clone D × Int :=
  if w.connected = false then (w, -1)
  else match read with
  | .failed => (w, -1)
  | .later => (w, 0)
  | .bytes buf => readBytes lineTime buf w

def sstateConnect (w : Clone D) (contact : CloneContact) : Clone D :=
  if contact.connects then
    let w := { w with connected := true, sockCtx := pconfInit, lastHeard := contact.heardTime, dumpdone := false }
    ((w.call .statusInit).call (.statusSet (cstr "WAIT"))).statusCommit
  else { w with connected := false }

def sstateDisconnect (w : Clone D) : Clone D :=
  { w with connected := false }

def sstateSendline (w : Clone D) (buf : CString) (sends : Bool) : Clone D × Int :=
  if w.connected && sends then ({ w with sent := w.sent ++ [buf] }, 0) else (w, -1)

def sstateDead (w : Clone D) (maxage : Int) (now : Int) (sends : Bool) : Clone D × Bool :=
  if w.connected = false then (w, true)
  else if w.dumpdone && w.own.dstate.stale then (w, true)
  else
    let elapsed := now - w.lastHeard
    let w := if elapsed > maxage / 3 ∧ now - w.lastPing > maxage / 3 then
        { (w.sstateSendline (cstr "PING\n") sends).1 with lastPing := now }
      else w
    (w, elapsed > maxage)

def startShutdown (w : Clone D) : Clone D :=
  if w.outlet ∧ w.timerShutdown < 0 then
    ({ w with timerShutdown := w.offdelay }.call (.statusSet (cstr "FSD"))).statusCommit
  else w

def startsCountdown (w : Clone D) : Bool :=
  w.outlet && decide (w.timerShutdown < 0) && decide (0 ≤ w.offdelay)

def instcmd (w : Clone D) (cmdname : CString) (_extra : Option CString) (now : Int) : Clone D × CloneAnswer :=
  if isCommand cmdname "shutdown.return" then
    ({ w.startShutdown with timerStart := w.ondelay }.note (.accepted false w.outlet w.startsCountdown now), .handled)
  else if isCommand cmdname "shutdown.stayoff" then
    ({ w.startShutdown with timerStart := -1 }.note (.accepted true w.outlet w.startsCountdown now), .handled)
  else (w, .unknown)

def setvar [CDouble D] (w : Clone D) (varname val : CString) : Clone D × CloneAnswer :=
  if isCommand varname "battery.charge.low" then
    ({ w with charge.low := CDouble.strtod val }.dstate
      (.setinfo (cstr "battery.charge.low") (CDouble.print (CDouble.strtod val : D))), .handled)
  else if isCommand varname "battery.runtime.low" then
    ({ w with runtime.low := CDouble.strtod val }.dstate
      (.setinfo (cstr "battery.runtime.low") (CDouble.print (CDouble.strtod val : D))), .handled)
  else (w, .unknown)

def upsdrvInitups (w : Clone D) (contact : CloneContact) : Clone D :=
  w.sstateConnect contact

def publishTimers (w : Clone D) : Clone D :=
  let w := w.dstate (.setinfo (cstr "ups.timer.shutdown") (printInt w.timerShutdown))
  w.dstate (.setinfo (cstr "ups.timer.start") (printInt w.timerStart))

def upsdrvInitinfo [CDouble D] (w : Clone D) (getval : String -> Option CString) (now : Int) : Clone D :=
  let w := { w with lastPoll := now }
  let w := w.dstate (.addcmd (cstr "shutdown.return"))
  let w := w.dstate (.addcmd (cstr "shutdown.stayoff"))
  let w := { w with
    offdelay := match getval "offdelay" with
      | some val => (strtol val).toInt
      | none => w.offdelay
    ondelay := match getval "ondelay" with
      | some val => (strtol val).toInt
      | none => w.ondelay
    charge.low := match getval "mincharge" with
      | some val => CDouble.strtod val
      | none => w.charge.low
    runtime.low := match getval "minruntime" with
      | some val => CDouble.strtod val
      | none => w.runtime.low
    loadOff := getval "load.off"
    loadOn := getval "load.on"
    loadStatus := getval "load.status" }
  let w := w.dstate (.setinfo (cstr "ups.delay.shutdown") (printInt w.offdelay))
  let w := w.dstate (.setinfo (cstr "ups.delay.start") (printInt w.ondelay))
  w.publishTimers

def polledAt (w : Clone D) (round : CloneRound) : Int :=
  if w.lastPoll > 0 ∧ round.now - w.lastPoll < 1 then round.later else round.now

-- The part of `upsdrv_updateinfo` that can return early, and whether it goes on.
def listen [CDouble D] (w : Clone D) (round : CloneRound) : Clone D × Bool :=
  match w.sstateDead 15 round.deadTime round.pings with
  | (w, true) => (w.sstateDisconnect.sstateConnect round.contact, false)
  | (w, false) =>
    match w.sstateReadline round.read round.lineTime with
    | (w, ret) => if ret ≠ 0 then (w.sstateDisconnect, false) else (w, true)

def reportStatus (w : Clone D) (now : Int) : Clone D :=
  let w := (w.call .statusInit).call (.statusSet w.status)
  let w := { w with online := w.own.statusGet "OL" }
  let w := w.note (.checked w.online now)
  if w.outlet then w else w.call (.statusSet (cstr "OFF"))

def sendLoad (w : Clone D) (load : Option CString) (act : CloneAct) (sends : Bool) : Clone D :=
  match load with
  | none => w
  | some cmd =>
    match w.sstateSendline (snprintf smallbuf (cstr "INSTCMD " ++ cmd ++ cstr "\n")) sends with
    | (w, ret) => if ret = 0 then w.note act else w

def endShutdown (w : Clone D) (now : Int) (sends : Bool) : Clone D :=
  let w := ({ w with timerShutdown := -1 }.note (.expired now)).sendLoad w.loadOff (.loadOff now) sends
  if w.loadStatus.isNone then { w with outlet := false } else w

def countShutdown (w : Clone D) (now : Int) (sends : Bool) : Clone D :=
  let w := w.call (.statusSet (cstr "FSD"))
  if w.timerShutdown - (now - w.lastPoll) < 0 then w.endShutdown now sends
  else { w with timerShutdown := w.timerShutdown - (now - w.lastPoll) }

def endStart (w : Clone D) (now : Int) (sends : Bool) : Clone D :=
  let w := { w with timerStart := -1 }.sendLoad w.loadOn (.loadOn now) sends
  if w.loadStatus.isNone then { w with outlet := true } else w

def startLeft (w : Clone D) (now : Int) : Int :=
  if w.online then w.timerStart - (now - w.lastPoll) else w.ondelay

def countStart (w : Clone D) (now : Int) (sends : Bool) : Clone D :=
  if w.startLeft now < 0 then w.endStart now sends else { w with timerStart := w.startLeft now }

def isLow [CDouble D] (w : Clone D) : Bool :=
  CDouble.less w.charge.act w.charge.low || CDouble.less w.runtime.act w.runtime.low

def watchBattery [CDouble D] (w : Clone D) (now : Int) : Clone D :=
  if !w.online && w.outlet && w.isLow then (w.instcmd (cstr "shutdown.return") none now).1 else w

def countTimers [CDouble D] (w : Clone D) (now : Int) (sends : Bool) : Clone D :=
  if w.timerShutdown ≥ 0 then w.countShutdown now sends
  else if w.timerStart ≥ 0 then w.countStart now sends
  else w.watchBattery now

def finishUpdate (w : Clone D) (now : Int) : Clone D :=
  { w.publishTimers.statusCommit with lastPoll := now }

def opened (w : Clone D) (clock : Int) (trends : List Trend) : Clone D :=
  { w with clock := clock, trends := trends }

def upsdrvUpdateinfo [CDouble D] (w : Clone D) (round : CloneRound) : Clone D :=
  match (w.opened round.clock round.trends).listen round with
  | (w', false) => w'.note (.gaveUp (w.polledAt round))
  | (w', true) => ((w'.reportStatus (w.polledAt round)).countTimers (w.polledAt round) round.sends).finishUpdate
      (w.polledAt round)

def globals [CDouble D] (own : Status) : Clone D :=
  { timerStart := -1, timerShutdown := -1, loadOff := none, loadOn := none, loadStatus := none, status := cstr "WAIT"
    charge := ⟨CDouble.zero, CDouble.zero⟩, runtime := ⟨CDouble.zero, CDouble.zero⟩, dumpdone := false
    online := true, outlet := true, offdelay := 120, ondelay := 30, sockCtx := pconfInit, lastPoll := 0
    lastHeard := 0, lastPing := 0, connected := false, own := own, clock := 0, trends := [], sent := [], journal := [] }

def start [CDouble D] (own : Status) (contact : CloneContact) (getval : String -> Option CString) (now : Int) :
    Clone D :=
  (((globals own).opened now []).upsdrvInitups contact).upsdrvInitinfo getval now

end Clone

end Nut
