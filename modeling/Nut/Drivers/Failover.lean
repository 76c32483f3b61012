import Nut.Drivers.Sock
import Nut.Drivers.Status

set_option autoImplicit false

namespace Nut

def alarmPropagTime : Int := 15

inductive UpsPriority where
  | skipped
  | forced
  | statusfilters
  | online
  | battery
  | stale
  deriving DecidableEq, Repr

def UpsPriority.toInt : UpsPriority -> Int
  | skipped => -1
  | forced => 0
  | statusfilters => 1
  | online => 2
  | battery => 3
  | stale => 4

structure UpsVar where
  key : CString
  value : CString
  enumList : List CString
  rangeList : List (Int32 × Int32)
  aux : Int64
  flags : BitVec 32
  needsExport : Bool
  deriving DecidableEq

structure UpsCmd where
  value : CString
  needsExport : Bool
  deriving DecidableEq

structure UpsDevice where
  socketname : CString
  connected : Bool
  parseCtx : PconfCtx
  varList : List UpsVar
  cmdList : List UpsCmd
  status : Option CString
  lastHeardTime : Int
  lastPingedTime : Int
  lastFailureTime : Int
  forceIgnoreTime : Int
  forcePrimaryTime : Int
  -- the flags
  alive : Bool
  dumped : Bool
  dataOk : Bool
  online : Bool
  primary : Bool
  priority : UpsPriority
  runtime : Int
  runtimeLow : Int
  forceIgnore : Int
  forcePrimary : Int
  forceDstateExport : Bool
  failureCount : Int
  deriving DecidableEq

structure StatusFilters where
  haveAny : List CString
  haveAll : List CString
  nothaveAny : List CString
  nothaveAll : List CString

structure FailoverArgs where
  statusFilters : StatusFilters
  initTimeout : Int
  deadTimeout : Int
  noprimaryTimeout : Int
  maxconnfails : Int
  coolofftimeout : Int
  fsdmode : Int
  strictFiltering : Int
  checkRuntime : Int

-- The globals of failover.c, with what the driver itself publishes in `own`.
structure Failover where
  args : FailoverArgs
  initTimeElapsed : Bool
  primariesGone : Bool
  drvStartupTime : Int
  primariesGoneTime : Int
  upsList : List UpsDevice
  primaryUps : Option Nat
  upsAliveCount : Nat
  upsOnlineCount : Nat
  upsPrimaryCount : Nat
  own : Status
  -- The time as dstate.c takes it, and how the charge has changed at the commits to come.
  clock : Int
  trends : List Trend

def strToLong (string : CString) : Option Int64 :=
  let blank (b : UInt8) : Bool := isspace (charToInt b)
  let trimmed := ((string.dropWhile blank).reverse.dropWhile blank).reverse
  let digits := match trimmed with
    | 45 :: rest => rest
    | 43 :: rest => rest
    | rest => rest
  if digits = [] ∨ digits.all isdigit = false then none
  else
    let value : Int := if trimmed.head? = some 45 then -(digitsValue digits : Int) else digitsValue digits
    if value < longMin ∨ value > longMax then none else some (Int64.ofInt value)

def rewriteDriverPrefix (name : CString) : CString :=
  if (cstr "driver.").isPrefixOf name then snprintf smallbuf (cstr "upstream." ++ name) else name

def upstreamCmd (cmdname : CString) : CString :=
  snprintf smallbuf (cstr "upstream." ++ cmdname)

namespace UpsDevice

def getVar (ups : UpsDevice) (key : CString) : Option UpsVar :=
  ups.varList.find? fun var => var.key = key

def modifyVar (key : CString) (change : UpsVar -> UpsVar) : List UpsVar -> List UpsVar
  | [] => []
  | var :: rest => if var.key = key then change var :: rest else var :: modifyVar key change rest

def updateVar (ups : UpsDevice) (key : CString) (change : UpsVar -> UpsVar) : UpsDevice :=
  { ups with varList := modifyVar key change ups.varList }

def hasCmd (ups : UpsDevice) (cmd : CString) : Bool :=
  ups.cmdList.any fun entry => entry.value = cmd

def addCmd (val : CString) (ups : UpsDevice) : UpsDevice :=
  if ups.hasCmd val then ups
  else { ups with cmdList := ups.cmdList ++ [{ value := val, needsExport := true }] }

def delCmd (val : CString) (ups : UpsDevice) : UpsDevice :=
  { ups with cmdList := ups.cmdList.eraseP fun entry => entry.value = val }

def setVar (key value : CString) (ups : UpsDevice) : UpsDevice :=
  match ups.getVar key with
  | some var =>
    if var.value = value then ups else ups.updateVar key fun var => { var with value := value, needsExport := true }
  | none =>
    { ups with
      varList := ups.varList ++
        [{ key := key, value := value, enumList := [], rangeList := [], aux := 0, flags := 0, needsExport := true }] }

def delVar (key : CString) (ups : UpsDevice) : UpsDevice :=
  { ups with varList := ups.varList.eraseP fun var => var.key = key }

def setVarFlags (key : CString) (flags : BitVec 32) (ups : UpsDevice) : UpsDevice :=
  ups.updateVar key fun var =>
    if var.flags = flags then var else { var with flags := flags, needsExport := true }

def setVarAux (key : CString) (aux : Int64) (ups : UpsDevice) : UpsDevice :=
  ups.updateVar key fun var => if var.aux = aux then var else { var with aux := aux, needsExport := true }

def addRange (key : CString) (min max : Int32) (ups : UpsDevice) : UpsDevice :=
  ups.updateVar key fun var =>
    if (min, max) ∈ var.rangeList then var
    else { var with rangeList := var.rangeList ++ [(min, max)], needsExport := true }

def delRange (key : CString) (min max : Int32) (ups : UpsDevice) : UpsDevice :=
  ups.updateVar key fun var => { var with rangeList := var.rangeList.erase (min, max) }

def addEnum (key val : CString) (ups : UpsDevice) : UpsDevice :=
  ups.updateVar key fun var =>
    if val ∈ var.enumList then var else { var with enumList := var.enumList ++ [val], needsExport := true }

def delEnum (key val : CString) (ups : UpsDevice) : UpsDevice :=
  ups.updateVar key fun var => { var with enumList := var.enumList.erase val }

def freeState (ups : UpsDevice) : UpsDevice :=
  { ups with varList := [], cmdList := [], status := none }

end UpsDevice

namespace Failover

def modifyUps (w : Failover) (i : Nat) (change : UpsDevice -> UpsDevice) : Failover :=
  { w with upsList := w.upsList.modify i change }

def call (w : Failover) (op : StatusOp) : Failover :=
  { w with own := w.own.perform op }

def dstate (w : Failover) (op : DstateOp) : Failover :=
  w.call (.dstate w.clock op)

def statusCommit (w : Failover) : Failover :=
  { w.call (.statusCommit w.clock (w.trends.headD .unknown)) with trends := w.trends.tail }

def alarmCommit (w : Failover) : Failover :=
  w.call (.alarmCommit w.clock)

def ifPrimary (w : Failover) (i : Nat) (change : Failover -> Failover) : Failover :=
  if w.primaryUps = some i then change w else w

def upsDelCmd (w : Failover) (i : Nat) (val : CString) : Failover :=
  match w.upsList[i]? with
  | none => w
  | some ups =>
    if ups.hasCmd val then (w.ifPrimary i fun w => w.dstate (.delcmd val)).modifyUps i (UpsDevice.delCmd val) else w

def clearVar (w : Failover) (key : CString) : Failover :=
  let w := if key = cstr "ups.alarm" then ((w.call .alarmInit).alarmCommit).statusCommit else w
  let w := if key = cstr "ups.status" then (w.call .statusInit).statusCommit else w
  w.dstate (.delinfo key)

def upsDelVar (w : Failover) (i : Nat) (key : CString) : Failover :=
  match w.upsList[i]? with
  | none => w
  | some ups =>
    match ups.getVar key with
    | none => w
    | some _ => (w.ifPrimary i fun w => w.clearVar key).modifyUps i (UpsDevice.delVar key)

def upsDelRange (w : Failover) (i : Nat) (key : CString) (min max : Int32) : Failover :=
  match w.upsList[i]?.bind fun ups => ups.getVar key with
  | none => w
  | some var =>
    if (min, max) ∈ var.rangeList then
      (w.ifPrimary i fun w => w.dstate (.delrange key min max)).modifyUps i (UpsDevice.delRange key min max)
    else w

def upsDelEnum (w : Failover) (i : Nat) (key val : CString) : Failover :=
  match w.upsList[i]?.bind fun ups => ups.getVar key with
  | none => w
  | some var =>
    if val ∈ var.enumList then
      (w.ifPrimary i fun w => w.dstate (.delenum key val)).modifyUps i (UpsDevice.delEnum key val)
    else w

def has (w : Failover) (i : Nat) (flag : UpsDevice -> Bool) : Bool :=
  w.upsList[i]?.any flag

def upsIsAlive (w : Failover) (i : Nat) : Failover :=
  if w.has i UpsDevice.alive then w
  else { w.modifyUps i fun ups => { ups with alive := true } with upsAliveCount := w.upsAliveCount + 1 }

def upsIsDead (w : Failover) (i : Nat) : Failover :=
  let w := if w.has i UpsDevice.alive then { w with upsAliveCount := w.upsAliveCount - 1 } else w
  if w.has i UpsDevice.online then { w with upsOnlineCount := w.upsOnlineCount - 1 } else w

def upsIsOnline (w : Failover) (i : Nat) : Failover :=
  if w.has i UpsDevice.online then w
  else { w.modifyUps i fun ups => { ups with online := true } with upsOnlineCount := w.upsOnlineCount + 1 }

def upsIsOffline (w : Failover) (i : Nat) : Failover :=
  if w.has i UpsDevice.online then
    { w.modifyUps i fun ups => { ups with online := false } with upsOnlineCount := w.upsOnlineCount - 1 }
  else w

def upsDisconnect (w : Failover) (i : Nat) : Failover :=
  (w.upsIsDead i).modifyUps i fun ups =>
    { ups with
      alive := false, dumped := false, dataOk := false, online := false, primary := false
      connected := false }

def noteVar (w : Failover) (i : Nat) (name value : CString) : Failover :=
  let w :=
    if name = cstr "ups.status" then
      let w := w.modifyUps i fun ups => { ups with status := some value }
      if strContainsToken value (cstr "OL") then w.upsIsOnline i else w.upsIsOffline i
    else w
  let number := (strToInt value).1.getD (-1)
  let w := if name = cstr "battery.runtime" then w.modifyUps i fun ups => { ups with runtime := number } else w
  if name = cstr "battery.runtime.low" then w.modifyUps i fun ups => { ups with runtimeLow := number } else w

end Failover

inductive UpsLine where
  | pong
  | dumpdone
  | datastale
  | dataok
  | delcmd (cmdname : CString)
  | addcmd (cmdname : CString)
  | delinfo (name : CString)
  | setflags (name : CString) (flags : BitVec 32)
  | setaux (name : CString) (aux : Int64)
  | delenum (name value : CString)
  | addenum (name value : CString)
  | setinfo (name value : CString)
  | delrange (name : CString) (min max : Int32)
  | addrange (name : CString) (min max : Int32)
  -- SETAUX, DELRANGE or ADDRANGE without the numbers
  | nonNumeric
  deriving DecidableEq

namespace UpsLine

def varFlags (words : List CString) : BitVec 32 :=
  words.foldl (fun flags word =>
    if isCommand word "RW" then flags ||| stFlagRw
    else if isCommand word "STRING" then flags ||| stFlagString
    else if isCommand word "NUMBER" then flags ||| stFlagNumber
    else flags) 0

def aux (name value : CString) : UpsLine :=
  match strToLong value with
  | some aux => .setaux name aux
  | none => .nonNumeric

def range (line : CString -> Int32 -> Int32 -> UpsLine) (name min max : CString) : UpsLine :=
  match (strToInt min).1, (strToInt max).1 with
  | some min, some max => line name (Int32.ofInt min) (Int32.ofInt max)
  | _, _ => .nonNumeric

-- The tests of `ups_parse_protocol`; nothing for a line that is ignored.
def of (arg : List CString) : Option UpsLine :=
  match arg with
  | [] => none
  | keyword :: arg =>
    if isCommand keyword "PONG" then some .pong
    else if isCommand keyword "DUMPDONE" then some .dumpdone
    else if isCommand keyword "DATASTALE" then some .datastale
    else if isCommand keyword "DATAOK" then some .dataok
    else match arg with
    | [] => none
    | name :: arg =>
      if isCommand keyword "DELCMD" then some (.delcmd name)
      else if isCommand keyword "ADDCMD" then some (.addcmd name)
      else if isCommand keyword "DELINFO" then some (.delinfo name)
      else match arg with
      | [] => none
      | value :: more =>
        if isCommand keyword "SETFLAGS" then some (.setflags name (varFlags (value :: more)))
        else if isCommand keyword "SETAUX" then some (aux name value)
        else if isCommand keyword "DELENUM" then some (.delenum name value)
        else if isCommand keyword "ADDENUM" then some (.addenum name value)
        else if isCommand keyword "SETINFO" then some (.setinfo name value)
        else match more with
        | [] => none
        | max :: _ =>
          if isCommand keyword "DELRANGE" then some (range .delrange name value max)
          else if isCommand keyword "ADDRANGE" then some (range .addrange name value max)
          else none

end UpsLine

namespace Failover

def followLine (w : Failover) (i : Nat) : UpsLine -> Failover
  | .pong => w
  | .dumpdone => w.modifyUps i fun ups => { ups with dumped := true }
  | .datastale => w.modifyUps i fun ups => { ups with dataOk := false }
  | .dataok => w.modifyUps i fun ups => { ups with dataOk := true }
  | .delcmd cmdname => w.upsDelCmd i (upstreamCmd cmdname)
  | .addcmd cmdname => w.modifyUps i (UpsDevice.addCmd (upstreamCmd cmdname))
  | .delinfo name => w.upsDelVar i (rewriteDriverPrefix name)
  | .setflags name flags => w.modifyUps i (UpsDevice.setVarFlags (rewriteDriverPrefix name) flags)
  | .setaux name aux => w.modifyUps i (UpsDevice.setVarAux (rewriteDriverPrefix name) aux)
  | .delenum name value => w.upsDelEnum i (rewriteDriverPrefix name) value
  | .addenum name value => w.modifyUps i (UpsDevice.addEnum (rewriteDriverPrefix name) value)
  | .setinfo name value => (w.noteVar i name value).modifyUps i (UpsDevice.setVar (rewriteDriverPrefix name) value)
  | .delrange name min max => w.upsDelRange i (rewriteDriverPrefix name) min max
  | .addrange name min max => w.modifyUps i (UpsDevice.addRange (rewriteDriverPrefix name) min max)
  | .nonNumeric => w

def upsParseProtocol (w : Failover) (i : Nat) (arg : List CString) : Failover × Bool :=
  match UpsLine.of arg with
  | some line => (w.followLine i line, true)
  | none => (w, false)

end Failover

inductive UpsRead where
  | failed
  | timedOut
  | bytes (buf : CString)

-- How a driver behaves when it is looked after, and the clock at each `time` of it.
structure Contact where
  connectTime : Int
  connects : Bool
  -- whether `DUMPALL` was sent
  asked : Bool
  heardTime : Int
  aliveTime : Int
  read : UpsRead
  lineTime : Int

namespace Failover

def coolingOff (args : FailoverArgs) (now : Int) (ups : UpsDevice) : Bool :=
  ups.failureCount > args.maxconnfails && now - ups.lastFailureTime ≤ args.coolofftimeout

def noteFailure (now : Int) (ups : UpsDevice) : UpsDevice :=
  { ups with failureCount := ups.failureCount + 1, lastFailureTime := now }

def upsConnect (w : Failover) (i : Nat) (contact : Contact) : Failover × Bool :=
  if w.has i (coolingOff w.args contact.connectTime) then (w, false)
  else if contact.connects then
    let w := w.modifyUps i fun ups => { ups with parseCtx := pconfInit, connected := true }
    if contact.asked then
      let w := w.modifyUps i fun ups => { ups.freeState with forceDstateExport := true, runtime := -1, runtimeLow := -1 }
      let w := (w.upsIsAlive i).modifyUps i fun ups =>
        { ups with lastHeardTime := contact.heardTime, failureCount := 0, lastFailureTime := 0 }
      (w, true)
    else ((w.upsDisconnect i).modifyUps i (noteFailure contact.connectTime), false)
  else (w.modifyUps i (noteFailure contact.connectTime), false)

def readBytes (i : Nat) (lineTime : Int) : CString -> Failover -> Failover × Int
  | [], w => (w, 0)
  | b :: bytes, w =>
    match w.upsList[i]? with
    | none => (w, -1)
    | some ups =>
      let (ctx, parsed) := pconfChar ups.parseCtx b
      let w := w.modifyUps i fun ups => { ups with parseCtx := ctx }
      if parsed = 1 then
        let (w, understood) := w.upsParseProtocol i ctx.arglist
        let w := if understood then w.modifyUps i fun ups => { ups with lastHeardTime := lineTime } else w
        readBytes i lineTime bytes w
      else if parsed = 0 then readBytes i lineTime bytes w
      else (w, -1)

def upsReadData (w : Failover) (i : Nat) (contact : Contact) : Failover × Int :=
  match contact.read with
  | .failed => (w, -1)
  | .timedOut => (w, -2)
  | .bytes buf => readBytes i contact.lineTime buf w

def isUpsAlive (args : FailoverArgs) (now : Int) (ups : UpsDevice) : UpsDevice × Bool :=
  if ups.connected = false then (ups, false)
  else
    let elapsed := now - ups.lastHeardTime
    let third := args.deadTimeout / 3
    let pinged := if elapsed > third ∧ now - ups.lastPingedTime > third then { ups with lastPingedTime := now } else ups
    (pinged, elapsed ≤ args.deadTimeout)

def lookAfter (w : Failover) (i : Nat) (contact : Contact) : Failover :=
  match if w.has i UpsDevice.alive then (w, true) else w.upsConnect i contact with
  | (w, false) => w
  | (w, true) =>
    let alive := w.has i fun ups => (isUpsAlive w.args contact.aliveTime ups).2
    let w := w.modifyUps i fun ups => (isUpsAlive w.args contact.aliveTime ups).1
    if alive = false then w.upsDisconnect i
    else
      match w.upsReadData i contact with
      | (w, ret) => if ret < 0 then w.upsDisconnect i else w

def handleConnections (w : Failover) (contacts : Nat -> Contact) : Failover :=
  (List.range w.upsList.length).foldl (fun w i => w.lookAfter i (contacts i)) w

def passesStatusFilters (filters : StatusFilters) (ups : UpsDevice) : Bool :=
  match ups.status with
  | none => false
  | some [] => false
  | some status =>
    let found (token : CString) : Bool := strContainsToken status token
    if filters.haveAny = [] ∧ filters.haveAll = [] ∧ filters.nothaveAny = [] ∧ filters.nothaveAll = [] then false
    else if filters.nothaveAny.any found then false
    else if !filters.haveAll.all found then false
    else if filters.nothaveAll ≠ [] ∧ filters.nothaveAll.all found then false
    else if filters.haveAny ≠ [] ∧ !filters.haveAny.any found then false
    else true

def hasBetterRuntime (rt rtLow bestRt bestRtLow mode : Int) : Bool :=
  match mode with
  | 1 => rt > bestRt
  | 2 => rtLow > bestRtLow
  | 3 => rt > bestRt && rtLow > bestRtLow
  | _ => false

def expireForced (now : Int) (ups : UpsDevice) : UpsDevice :=
  if ups.forcePrimary > 0 ∧ (ups.forcePrimaryTime = 0 ∨ now - ups.forcePrimaryTime > ups.forcePrimary) then
    { ups with forcePrimary := 0, forcePrimaryTime := 0 }
  else if ups.forcePrimary = 0 ∧ ups.forcePrimaryTime > 0 then { ups with forcePrimaryTime := 0 }
  else ups

def expireIgnored (now : Int) (ups : UpsDevice) : UpsDevice :=
  if ups.forceIgnore > 0 ∧ (ups.forceIgnoreTime = 0 ∨ now - ups.forceIgnoreTime > ups.forceIgnore) then
    { ups with forceIgnore := 0, forceIgnoreTime := 0 }
  else if ups.forceIgnore = 0 ∧ ups.forceIgnoreTime > 0 then { ups with forceIgnoreTime := 0 }
  else ups

def candidacy (args : FailoverArgs) (elapsedIgnore elapsedForce : Int) (ups : UpsDevice) : UpsPriority :=
  if ups.alive && ups.dumped then
    if ups.forceIgnore < 0 then .skipped
    else if ups.forceIgnore > 0 ∧ elapsedIgnore ≤ ups.forceIgnore then .skipped
    else if ups.forcePrimary < 0 then .forced
    else if ups.forcePrimary > 0 ∧ elapsedForce ≤ ups.forcePrimary then .forced
    else if passesStatusFilters args.statusFilters ups then .statusfilters
    else if args.strictFiltering ≠ 0 then .skipped
    else if ups.dataOk && ups.online then .online
    else if ups.dataOk then .battery
    else .stale
  else .skipped

def rate (args : FailoverArgs) (now : Int) (ups : UpsDevice) : UpsDevice :=
  let elapsedIgnore := if ups.forceIgnore > 0 then now - ups.forceIgnoreTime else 0
  let elapsedForce := if ups.forcePrimary > 0 then now - ups.forcePrimaryTime else 0
  let expired := expireIgnored now (expireForced now ups)
  { expired with priority := candidacy args elapsedIgnore elapsedForce expired }

structure Election where
  choice : Option Nat
  priority : Int
  runtime : Int
  runtimeLow : Int
  primaries : Nat

def consider (args : FailoverArgs) (best : Election) (i : Nat) (ups : UpsDevice) : Election :=
  let priority := ups.priority.toInt
  if priority < 0 then best
  else
    let best := { best with primaries := best.primaries + 1 }
    if priority < best.priority then
      { best with choice := some i, priority := priority, runtime := ups.runtime, runtimeLow := ups.runtimeLow }
    else if priority = best.priority ∧ args.checkRuntime ≠ 0 ∧ priority ≥ UpsPriority.battery.toInt ∧
        hasBetterRuntime ups.runtime ups.runtimeLow best.runtime best.runtimeLow args.checkRuntime then
      { best with choice := some i, runtime := ups.runtime, runtimeLow := ups.runtimeLow }
    else best

def getPrimaryCandidate (w : Failover) (now : Int) : Failover × Option Nat :=
  let upsList := w.upsList.map (rate w.args now)
  let best := (upsList.zipIdx).foldl (fun best entry => consider w.args best entry.2 entry.1)
    { choice := none, priority := 100, runtime := -1, runtimeLow := -1, primaries := 0 }
  ({ w with upsList := upsList, upsPrimaryCount := best.primaries }, best.choice)

def exportCount (w : Failover) (var : String) (count : Nat) : Failover :=
  w.dstate (.setinfo (cstr var) (printInt count))

def exportDriverState (w : Failover) : Failover :=
  let w := w.exportCount "driver.stats.alive_drivers" w.upsAliveCount
  let w := w.exportCount "driver.stats.online_drivers" w.upsOnlineCount
  let w := w.exportCount "driver.stats.primary_drivers" w.upsPrimaryCount
  let w := w.exportCount "driver.stats.total_drivers" w.upsList.length
  match w.primaryUps.bind fun i => w.upsList[i]? with
  | some ups =>
    let w := w.dstate (.setinfo (cstr "driver.primary.socketname") ups.socketname)
    let w := w.dstate (.setinfo (cstr "driver.primary.priority") (printInt ups.priority.toInt))
    let w := w.exportCount "driver.primary.stats.cmds" ups.cmdList.length
    w.exportCount "driver.primary.stats.vars" ups.varList.length
  | none =>
    let w := w.dstate (.delinfo (cstr "driver.primary.socketname"))
    let w := w.dstate (.delinfo (cstr "driver.primary.priority"))
    let w := w.dstate (.delinfo (cstr "driver.primary.stats.cmds"))
    w.dstate (.delinfo (cstr "driver.primary.stats.vars"))

def exportCmd (force : Bool) (w : Failover) (cmd : UpsCmd) : Failover :=
  if cmd.needsExport || force then w.dstate (.addcmd cmd.value) else w

def exportValue (w : Failover) (var : UpsVar) : Failover :=
  if var.key = cstr "ups.alarm" then (((w.call .alarmInit).call (.alarmSet var.value)).alarmCommit).statusCommit
  else if var.key = cstr "ups.status" then ((w.call .statusInit).call (.statusSet var.value)).statusCommit
  else w.dstate (.setinfo var.key var.value)

def exportVar (force : Bool) (w : Failover) (var : UpsVar) : Failover :=
  if var.needsExport || force then
    let w := w.exportValue var
    let w := if var.flags ≠ 0 then w.dstate (.setflags var.key var.flags) else w
    let w := if var.aux ≠ 0 then w.dstate (.setaux var.key var.aux) else w
    let w := var.enumList.foldl (fun w val => w.dstate (.addenum var.key val)) w
    var.rangeList.foldl (fun w range => w.dstate (.addrange var.key range.1 range.2)) w
  else w

def exported (ups : UpsDevice) : UpsDevice :=
  { ups with
    cmdList := ups.cmdList.map fun cmd => { cmd with needsExport := false }
    varList := ups.varList.map fun var => { var with needsExport := false }
    forceDstateExport := false }

def upsExportDstate (w : Failover) (i : Nat) : Failover :=
  match w.upsList[i]? with
  | none => w
  | some ups =>
    let force := ups.forceDstateExport
    let w := if force then (w.call .statusInit).call .alarmInit else w
    let w := ups.cmdList.foldl (exportCmd force) w
    let w := ups.varList.foldl (exportVar force) w
    let w := if force then w.alarmCommit.statusCommit else w
    w.modifyUps i exported

def upsCleanDstate (w : Failover) (i : Nat) : Failover :=
  match w.upsList[i]? with
  | none => w
  | some ups =>
    let w := (w.call .statusInit).call .alarmInit
    let w := ups.cmdList.foldl (fun w cmd => w.dstate (.delcmd cmd.value)) w
    let w := ups.varList.foldl (fun w var => w.dstate (.delinfo var.key)) w
    w.alarmCommit.statusCommit

def upsDemotePrimary (w : Failover) (i : Nat) : Failover :=
  ({ w with primaryUps := none }.modifyUps i fun ups => { ups with primary := false }).upsCleanDstate i

def upsPromotePrimary (w : Failover) (i : Nat) : Failover :=
  if w.primaryUps = some i then w
  else
    let w := match w.primaryUps with
      | some old => w.upsDemotePrimary old
      | none => w
    ({ w with primaryUps := some i }.modifyUps i fun ups =>
      { ups with forceDstateExport := true, primary := true }).upsExportDstate i

end Failover

structure FailoverClock where
  init : Int
  gone : Int
  now : Int

namespace Failover

def handleInitTime (w : Failover) (candidate : Option Nat) (clock : FailoverClock) : Failover × Bool :=
  if w.initTimeElapsed then (w, false)
  else if candidate = none ∧ clock.init - w.drvStartupTime ≤ w.args.initTimeout then (w.dstate .dataok, true)
  else ({ w with initTimeElapsed := true }, false)

def failPrimaries (w : Failover) (elapsed : Int) : Failover :=
  let message := cstr "No suitable primaries for failover"
  match w.args.fsdmode with
  | 1 =>
    let w := ((w.call (.alarmSet message)).alarmCommit).statusCommit
    if elapsed < w.args.noprimaryTimeout + alarmPropagTime then w.dstate .dataok else w.dstate .datastale
  | 2 =>
    let w := (w.call (.statusSet (cstr "FSD"))).call (.alarmSet message)
    (w.alarmCommit).statusCommit.dstate .dataok
  | _ => w.dstate .datastale

def startOutage (w : Failover) (gone : Int) : Failover :=
  if w.primariesGoneTime = 0 then { w with primariesGoneTime := gone } else w

def dropPrimary (w : Failover) : Failover :=
  match w.primaryUps with
  | some i => if w.args.fsdmode > 0 then w.upsDemotePrimary i else w
  | none => w

def outageElapsed (w : Failover) (now : Int) : Bool :=
  now - w.primariesGoneTime > w.args.noprimaryTimeout

def handleNoPrimaries (w : Failover) (clock : FailoverClock) : Failover :=
  let w := (w.startOutage clock.gone).dropPrimary
  if w.outageElapsed clock.now then
    { w.failPrimaries (clock.now - w.primariesGoneTime) with primariesGone := true }
  else w.dstate .dataok

def endOutage (w : Failover) (candidate : Nat) : Failover :=
  if w.primariesGone then
    -- In mode 0 the primary was never demoted.
    let w := if w.primaryUps = some candidate then
        (w.upsCleanDstate candidate).modifyUps candidate fun ups => { ups with forceDstateExport := true }
      else w
    { w with primariesGone := false, primariesGoneTime := 0 }
  else w

def serveCandidate (w : Failover) (candidate : Nat) : Failover :=
  let w := w.endOutage candidate
  let w := if w.primaryUps = some candidate then w.upsExportDstate candidate else w.upsPromotePrimary candidate
  if w.has candidate UpsDevice.dataOk then w.dstate .dataok else w.dstate .datastale

def afterElection (w : Failover) (candidate : Option Nat) (clock : FailoverClock) : Failover :=
  match w.exportDriverState.handleInitTime candidate clock with
  | (w, true) => w
  | (w, false) =>
    match candidate with
    | none => w.handleNoPrimaries clock
    | some candidate => w.serveCandidate candidate

end Failover

-- What one call of `upsdrv_updateinfo` meets.
structure Round where
  clock : Int
  trends : List Trend
  contacts : Nat -> Contact
  electionTime : Int
  times : FailoverClock

namespace Failover

def elect (w : Failover) (round : Round) : Failover × Option Nat :=
  ({ w with clock := round.clock, trends := round.trends }.handleConnections round.contacts).getPrimaryCandidate
    round.electionTime

def upsdrvUpdateinfo (w : Failover) (round : Round) : Failover :=
  (w.elect round).1.afterElection (w.elect round).2 round.times

end Failover

inductive Relayed where
  | handled
  | conversionFailed
  | failed
  | unknown
  | query (text : CString)
  deriving DecidableEq

def upstreamName (name : CString) : CString :=
  if (cstr "upstream.").isPrefixOf name then name.drop 9 else name

def instcmdQuery (cmdname : CString) (extra : Option CString) : CString :=
  match extra with
  | some extra => snprintf smallbuf (cstr "INSTCMD " ++ upstreamName cmdname ++ cstr " " ++ extra ++ cstr "\n")
  | none => snprintf smallbuf (cstr "INSTCMD " ++ upstreamName cmdname ++ cstr "\n")

def setQuery (varname val : CString) : CString :=
  snprintf smallbuf (cstr "SET " ++ upstreamName varname ++ cstr " \"" ++ val ++ cstr "\"\n")

namespace Failover

def primary (w : Failover) : Option UpsDevice :=
  w.primaryUps.bind fun i => w.upsList[i]?

def instcmd (w : Failover) (cmdname : CString) (extra : Option CString) (now : Int) : Failover × Relayed :=
  let ignores (ups : UpsDevice) : Bool := cmdname = ups.socketname ++ cstr ".force.ignore"
  let forces (ups : UpsDevice) : Bool := cmdname = ups.socketname ++ cstr ".force.primary"
  match w.upsList.findIdx? fun ups => ignores ups || forces ups with
  | some i =>
    match (match extra with
      | some text => (strToInt text).1
      | none => some 0) with
    | none => (w, .conversionFailed)
    | some val =>
      let time := if val ≠ 0 then now else 0
      (w.modifyUps i fun ups =>
        if ignores ups then { ups with forceIgnore := val, forceIgnoreTime := time }
        else { ups with forcePrimary := val, forcePrimaryTime := time }, .handled)
  | none =>
    match w.primary with
    | none => (w, .failed)
    | some ups => (w, if ups.hasCmd cmdname then .query (instcmdQuery cmdname extra) else .unknown)

def setvar (w : Failover) (varname val : CString) : Relayed :=
  match w.primary with
  | none => .failed
  | some ups => if (ups.getVar varname).isSome then .query (setQuery varname val) else .unknown

end Failover

end Nut
