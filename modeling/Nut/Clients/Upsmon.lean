import Mathlib.Logic.Function.Basic
import Nut.Common.CString

set_option autoImplicit false

namespace Nut

inductive StFlag where
  | online
  | onbatt
  | lowbatt
  | fsd
  | primary
  | login
  | cliconnected
  | cal
  | off
  | bypass
  | eco
  | alarm
  | overload
  | trim
  | boost
  deriving DecidableEq, Repr

inductive NotifyType where
  | online
  | onbatt
  | lowbatt
  | fsd
  | commok
  | commbad
  | replbatt
  | nocomm
  | cal
  | notcal
  | off
  | notoff
  | bypass
  | notbypass
  | eco
  | noteco
  | alarm
  | notalarm
  | overload
  | notoverload
  | trim
  | nottrim
  | boost
  | notboost
  | other
  | notother
  deriving DecidableEq, Repr

structure Notice where
  sys : CString
  type : NotifyType
  extra : Option CString
  deriving DecidableEq, Repr

structure Utype where
  sys : CString
  pv : UInt32
  un : CString
  pw : CString
  status : StFlag -> Bool
  commstate : Int
  linestate : Int
  offstate : Int
  bypassstate : Int
  ecostate : Int
  alarmstate : Int
  overstate : Int
  lastpoll : Int
  lastnoncrit : Int
  lastrbwarn : Int
  lastncwarn : Int
  lastfsdnotify : Int
  offsince : Int
  oblbsince : Int
  oversince : Int

def Utype.added (sys : CString) (pv : UInt32) (un pw : CString) (isPrimary : Bool) : Utype :=
  { sys, pv, un, pw, status := fun flag => flag = .primary && isPrimary
    commstate := -1, linestate := -1, offstate := -1, bypassstate := -1, ecostate := -1, alarmstate := -1, overstate := -1
    lastpoll := 0, lastnoncrit := 0, lastrbwarn := 0, lastncwarn := 0, lastfsdnotify := 0
    offsince := 0, oblbsince := 0, oversince := 0 }

structure UpsmonConf where
  minsupplies : UInt32
  pollfreq : Nat
  pollfreqalert : Nat
  deadtime : Int
  offdurationtime : Int
  oblbdurationtime : Int
  hostsync : Int
  rbwarntime : Int
  nocommwarntime : Int
  alarmcritical : Int
  overdurationtime : Int

-- What all UPSes share. The clock has been read `ticks` times.
structure UpsmonShared where
  sleepval : Nat
  alarmsPrev : CString
  ticks : Nat
  notices : List Notice

structure UpsPoll extends UpsmonShared where
  ups : Utype

-- `clock n` is what `time` gives when it is called for the n-th time.
variable (conf : UpsmonConf) (clock : Nat -> Int)

namespace UpsPoll

def isset (p : UpsPoll) (flag : StFlag) : Bool :=
  p.ups.status flag

def setflag (flag : StFlag) (p : UpsPoll) : UpsPoll :=
  { p with ups.status := Function.update p.ups.status flag true }

def clearflag (flag : StFlag) (p : UpsPoll) : UpsPoll :=
  { p with ups.status := Function.update p.ups.status flag false }

def doNotify (type : NotifyType) (extra : Option CString) (p : UpsPoll) : UpsPoll :=
  { p with notices := p.notices ++ [{ sys := p.ups.sys, type, extra }] }

def tick (p : UpsPoll) : UpsPoll :=
  { p with ticks := p.ticks + 1 }

def tryRestorePollfreq (p : UpsPoll) : UpsPoll :=
  if [StFlag.onbatt, .off, .bypass, .alarm, .cal, .overload, .trim, .boost].all p.isset then p
  else { p with sleepval := conf.pollfreq }

-- The announcement of a state that was not known yet, `before` which some more is noted.
def enterState (flag : StFlag) (type : NotifyType) (extra : Option CString) (before : UpsPoll -> UpsPoll)
    (p : UpsPoll) : UpsPoll :=
  if p.isset flag then p else ((before p).doNotify type extra).setflag flag

def leaveState (flag : StFlag) (type : NotifyType) (p : UpsPoll) : UpsPoll :=
  if p.isset flag then ((p.doNotify type none).clearflag flag).tryRestorePollfreq conf else p

def alert (p : UpsPoll) : UpsPoll :=
  { p with sleepval := conf.pollfreqalert }

def upsIsAlive (p : UpsPoll) : UpsPoll :=
  let p := { p.tick with ups.lastpoll := clock p.ticks }
  if p.ups.commstate = 1 then p
  else
    let p := if p.ups.commstate = 0 then p.doNotify .commok none else p
    { p with ups.commstate := 1 }

def upsIsGone (p : UpsPoll) : UpsPoll :=
  if p.ups.commstate ≠ 0 then ({ p with ups.commstate := 0 } : UpsPoll).doNotify .commbad none
  else
    let now := clock p.ticks
    if now - p.ups.lastpoll < conf.nocommwarntime then p.tick
    else if now - p.ups.lastncwarn > conf.nocommwarntime then
      { p.tick.doNotify .nocomm none with ups.lastncwarn := now }
    else p.tick

def upsIsOff (p : UpsPoll) : UpsPoll :=
  let now := clock p.ticks
  let p := p.tick
  if p.isset .off then
    if p.ups.offsince < 1 then { p with ups.offsince := now }
    else if conf.offdurationtime > 0 ∧ now - p.ups.offsince > conf.offdurationtime then { p with ups.offstate := 1 }
    else p
  else
    p.enterState .off .off none fun p =>
      { p.alert conf with
        ups.offsince := now
        ups.offstate := if conf.offdurationtime = 0 then 1 else p.ups.offstate }

def upsIsNotoff (p : UpsPoll) : UpsPoll :=
  ({ p with ups.offsince := 0, ups.offstate := 0 } : UpsPoll).leaveState conf .off .notoff

def upsIsBypass : UpsPoll -> UpsPoll :=
  enterState .bypass .bypass none fun p => { p.alert conf with ups.bypassstate := 1 }

def upsIsNotbypass (p : UpsPoll) : UpsPoll :=
  ({ p with ups.bypassstate := 0 } : UpsPoll).leaveState conf .bypass .notbypass

def upsIsEco : UpsPoll -> UpsPoll :=
  enterState .eco .eco none fun p => { p with ups.ecostate := 1 }

def upsIsNoteco (p : UpsPoll) : UpsPoll :=
  ({ p with ups.ecostate := 0 } : UpsPoll).leaveState conf .eco .noteco

def upsIsAlarm (alarms : Option CString) (p : UpsPoll) : UpsPoll :=
  if p.isset .alarm then
    match alarms with
    | some alarms => if p.alarmsPrev = alarms then p else { p with alarmsPrev := alarms }.doNotify .alarm alarms
    | none => p
  else
    let p := p.enterState .alarm .alarm (alarms.getD (cstr "n/a")) fun p => { p.alert conf with ups.alarmstate := 1 }
    { p with alarmsPrev := alarms.getD [] }

def upsIsNotalarm (p : UpsPoll) : UpsPoll :=
  ({ p with ups.alarmstate := 0 } : UpsPoll).leaveState conf .alarm .notalarm

def upsOnBatt (p : UpsPoll) : UpsPoll :=
  if p.isset .onbatt then p
  else
    (p.enterState .onbatt .onbatt none fun p => { p.alert conf with ups.linestate := 0 }).clearflag .online

def upsOnLine (p : UpsPoll) : UpsPoll :=
  let p := p.tryRestorePollfreq conf
  if p.isset .online then p
  else
    let p := if p.ups.linestate ≠ -1 then p.doNotify .online none else p
    (setflag .online { p with ups.linestate := 1 }).clearflag .onbatt

def upsLowBatt : UpsPoll -> UpsPoll :=
  enterState .lowbatt .lowbatt none id

def upsreplbatt (p : UpsPoll) : UpsPoll :=
  let now := clock p.ticks
  let p := p.tick
  if now - p.ups.lastrbwarn > conf.rbwarntime then { p.doNotify .replbatt none with ups.lastrbwarn := now } else p

def upsIsCal : UpsPoll -> UpsPoll :=
  enterState .cal .cal none id

def upsIsNotcal : UpsPoll -> UpsPoll :=
  leaveState conf .cal .notcal

def upsIsOver (p : UpsPoll) : UpsPoll :=
  let now := clock p.ticks
  let p := p.tick
  if p.isset .overload then
    if p.ups.oversince < 1 then { p with ups.oversince := now } else p
  else
    p.enterState .overload .overload none fun p =>
      { (if conf.overdurationtime ≥ 0 then p.alert conf else p) with ups.oversince := now, ups.overstate := 1 }

def upsIsNotover (p : UpsPoll) : UpsPoll :=
  ({ p with ups.oversince := 0, ups.overstate := 0 } : UpsPoll).leaveState conf .overload .notoverload

def upsIsTrim : UpsPoll -> UpsPoll :=
  enterState .trim .trim none id

def upsIsNottrim : UpsPoll -> UpsPoll :=
  leaveState conf .trim .nottrim

def upsIsBoost : UpsPoll -> UpsPoll :=
  enterState .boost .boost none id

def upsIsNotboost : UpsPoll -> UpsPoll :=
  leaveState conf .boost .notboost

def upsFsd (p : UpsPoll) : UpsPoll :=
  if p.isset .fsd then p
  else
    let p := if p.ups.lastfsdnotify = 0 then
        { p.tick with ups.lastfsdnotify := clock p.ticks }.doNotify .fsd none
      else p
    p.setflag .fsd

def dropConnection (p : UpsPoll) : UpsPoll :=
  (clearflag .login { p with ups.commstate := 0 }).clearflag .cliconnected

def updateCrittimer (p : UpsPoll) : UpsPoll :=
  if !p.isset .onbatt || !p.isset .lowbatt || p.isset .cal then { p.tick with ups.lastnoncrit := clock p.ticks } else p

structure Report where
  status : CString
  buzzword : CString
  buzzwordX : CString
  alarm : Nat -> Option CString

-- As it stands, each word but one that has all of the modes is such a word.
def isEcoBuzzword (buzzword : CString) : Bool :=
  buzzword ≠ [] && [":ECO", ":ESS", ":HE", ":SMART"].any fun mode => !strstr buzzword (cstr mode)

def isStatword (statword : CString) (word : String) : Bool :=
  strcasecmp statword (cstr word) == .eq

def parseStatword (alarms : Option CString) (statword : CString) (p : UpsPoll) : UpsPoll :=
  if isStatword statword "OL" then p.upsOnLine conf
  else if isStatword statword "OB" then p.upsOnBatt conf
  else if isStatword statword "LB" then p.upsLowBatt
  else if isStatword statword "RB" then p.upsreplbatt conf clock
  else if isStatword statword "CAL" then p.upsIsCal
  else if isStatword statword "OFF" then p.upsIsOff conf clock
  else if isStatword statword "BYPASS" then p.upsIsBypass conf
  else if isStatword statword "ECO" then p.upsIsEco
  else if isStatword statword "ALARM" then p.upsIsAlarm conf alarms
  else if isStatword statword "OVER" then p.upsIsOver conf clock
  else if isStatword statword "TRIM" then p.upsIsTrim
  else if isStatword statword "BOOST" then p.upsIsBoost
  else if isStatword statword "FSD" then p.upsFsd clock
  else p

def parseStatwords (alarm : Nat -> Option CString) : Nat -> List CString -> UpsPoll -> UpsPoll
  | _, [], p => p
  | i, statword :: rest, p =>
    parseStatwords alarm (i + 1) rest ((p.parseStatword conf clock (alarm i) statword).updateCrittimer clock)

def leaveUnless (status : CString) (word : String) (leave : UpsPoll -> UpsPoll) (p : UpsPoll) : UpsPoll :=
  if strstr status (cstr word) then p else leave p

-- The states whose names are nowhere in the text are left before its words are looked at.
def leaveStates (status : CString) (p : UpsPoll) : UpsPoll :=
  p |> leaveUnless status "LB" (clearflag .lowbatt)
    |> leaveUnless status "FSD" (fun p => { p.clearflag .fsd with ups.lastfsdnotify := 0 })
    |> leaveUnless status "CAL" (upsIsNotcal conf)
    |> leaveUnless status "OFF" (upsIsNotoff conf)
    |> leaveUnless status "BYPASS" (upsIsNotbypass conf)
    |> leaveUnless status "ALARM" (upsIsNotalarm conf)
    |> leaveUnless status "OVER" (upsIsNotover conf)
    |> leaveUnless status "TRIM" (upsIsNottrim conf)
    |> leaveUnless status "BOOST" (upsIsNotboost conf)

def ecoMode (report : Report) (p : UpsPoll) : UpsPoll :=
  let isEco := isEcoBuzzword report.buzzword || isEcoBuzzword report.buzzwordX
  if !strstr report.status (cstr "ECO") && !isEco then p.upsIsNoteco conf else if isEco then p.upsIsEco else p

def parseStatus (report : Report) (p : UpsPoll) : UpsPoll :=
  if report.status = [] then p.upsIsGone conf clock
  else
    (((p.upsIsAlive clock).leaveStates conf report.status).ecoMode conf report).parseStatwords conf clock report.alarm 0
      (report.status.splitOn 32)

inductive Connect where
  | noCertpath
  | failed
  | refused (login : Bool)
  | accepted
  deriving DecidableEq, Repr

-- How a poll goes: the connection, if one is tried, the answers of `get_var`, and whether it is lost behind them.
structure PollAnswer where
  connect : Connect
  status : Option CString
  buzzword : Option CString
  buzzwordX : Option CString
  alarm : Nat -> Option CString
  disconnected : Bool

def tryConnect (connect : Connect) (p : UpsPoll) : UpsPoll × Bool :=
  let p := p.clearflag .cliconnected
  match connect with
  | .noCertpath => ((p.upsIsGone conf clock).dropConnection, false)
  | .failed => (p.upsIsGone conf clock, false)
  | .refused login => (if login then (p.setflag .cliconnected).setflag .login else p.setflag .cliconnected, false)
  | .accepted => ((p.setflag .cliconnected).setflag .login, true)

def PollAnswer.report (answer : PollAnswer) : Report :=
  { status := snprintf smallbuf (answer.status.getD []), buzzword := snprintf smallbuf (answer.buzzword.getD [])
    buzzwordX := snprintf smallbuf (answer.buzzwordX.getD []), alarm := fun i => (answer.alarm i).map (snprintf smallbuf) }

def pollups (answer : PollAnswer) (p : UpsPoll) : UpsPoll :=
  let connected := if p.isset .cliconnected then (p, true) else p.tryConnect conf clock answer.connect
  if connected.2 = false then connected.1
  else if answer.status.isSome || answer.buzzword.isSome || answer.buzzwordX.isSome then
    connected.1.parseStatus conf clock answer.report
  else
    let p := connected.1.upsIsGone conf clock
    if answer.disconnected then p.dropConnection else p

-- `sleepval` gets the greatest common divisor of the two times, found by subtractions.
def watchOblb (now : Int) (p : UpsPoll) : UpsPoll :=
  { p with
    sleepval := Nat.gcd (max conf.pollfreqalert 1) (max conf.oblbdurationtime 1).toNat
    ups.oblbsince := now }

def returnFromOblb (p : UpsPoll) : UpsPoll :=
  if p.ups.oblbsince > 0 then
    { p with ups.oblbsince := 0, sleepval := if p.isset .onbatt then conf.pollfreqalert else conf.pollfreq }
  else p

def lostCritical (now : Int) (p : UpsPoll) : Bool :=
  (p.ups.overstate = 1 || p.isset .overload) && 0 ≤ conf.overdurationtime &&
      !(0 < now && now - p.ups.oversince < conf.overdurationtime) ||
    (p.ups.alarmstate = 1 || p.isset .alarm) && conf.alarmcritical = 1 ||
    p.isset .cal ||
    (p.ups.bypassstate = 1 || p.isset .bypass) ||
    (p.ups.offstate = 1 || 0 ≤ conf.offdurationtime && p.isset .off)

def isUpsCritical (p : UpsPoll) : UpsPoll × Bool :=
  if p.isset .fsd then (p, true)
  else
    let now := clock p.ticks
    let p := p.tick
    if p.ups.commstate = 0 && p.lostCritical conf now then (p, true)
    else if p.isset .off && 0 ≤ conf.offdurationtime && p.ups.offstate = 1 then (p, true)
    else if !p.isset .onbatt || !p.isset .lowbatt then (p.returnFromOblb conf, false)
    else if p.isset .cal then (p, false)
    else if 0 < conf.oblbdurationtime ∧ p.ups.oblbsince < 1 ∧ 0 < now then (p.watchOblb conf now, false)
    else if 0 < conf.oblbdurationtime ∧ 0 < now ∧ now - p.ups.oblbsince < conf.oblbdurationtime then (p, false)
    else if p.isset .primary then (p, true)
    else (p, now - p.ups.lastnoncrit > conf.hostsync)

def promoteDead (now : Int) (p : UpsPoll) : UpsPoll :=
  if now - p.ups.lastpoll > conf.deadtime ∧ p.isset .onbatt then p.setflag .lowbatt else p

end UpsPoll

structure Upsmon extends UpsmonShared where
  upsList : List Utype

structure Polled where
  before : Utype
  answer : UpsPoll.PollAnswer
  polled : Int
  ups : Utype

structure Turn where
  before : Utype
  answer : UpsPoll.PollAnswer
  polled : Int
  now : Int
  found : Utype
  judged : Int
  ups : Utype
  critical : Bool

namespace Upsmon

def pollAll (answers : Nat -> UpsPoll.PollAnswer) : Nat -> List Utype -> UpsmonShared -> List Polled × UpsmonShared
  | _, [], shared => ([], shared)
  | i, ups :: rest, shared =>
    let p := UpsPoll.pollups conf clock (answers i) { shared with ups }
    let later := pollAll answers (i + 1) rest p.toUpsmonShared
    ({ before := ups, answer := answers i, polled := clock shared.ticks, ups := p.ups } :: later.1, later.2)

def recalcAll (now : Int) : List Polled -> UpsmonShared -> List Turn × UpsmonShared
  | [], shared => ([], shared)
  | polled :: rest, shared =>
    let found := UpsPoll.promoteDead conf now { shared with ups := polled.ups }
    let judged := found.isUpsCritical conf clock
    let later := recalcAll now rest judged.1.toUpsmonShared
    ({ before := polled.before, answer := polled.answer, polled := polled.polled, now, found := found.ups
       judged := clock shared.ticks, ups := judged.1.ups, critical := judged.2 } :: later.1, later.2)

def pass (answers : Nat -> UpsPoll.PollAnswer) (w : Upsmon) : Upsmon × List Turn :=
  let polled := pollAll conf clock answers 0 w.upsList w.toUpsmonShared
  let now := clock polled.2.ticks
  let turns := recalcAll conf clock now polled.1 { polled.2 with ticks := polled.2.ticks + 1 }
  ({ turns.2 with upsList := turns.1.map Turn.ups }, turns.1)

end Upsmon

end Nut
