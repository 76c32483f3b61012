import Nut.Common.ParseConfFile
import Nut.Drivers.Dstate

set_option autoImplicit false

namespace Nut.Main

inductive Stop where
  -- `fatalx` or `exit`
  | exit
  -- memory that was freed is read, or freed again
  | freed
  | nullPointer
  deriving DecidableEq

inductive Stored where
  | null
  | text (val : CString)
  | freed
  deriving DecidableEq

def varFlag : BitVec 32 := 1
def varValue : BitVec 32 := 2
def varSensitive : BitVec 32 := 4

structure Vartab where
  var : CString
  vartype : BitVec 32
  reloadable : Bool
  val : Stored
  found : Bool
  deriving DecidableEq

def Vartab.named (var : CString) (tmp : Vartab) : Bool :=
  strcasecmp tmp.var var = .eq

structure Site where
  upsname : CString
  prognames : List CString
  user : CString
  userFromCmdline : Bool
  group : CString
  groupFromCmdline : Bool
  chrootPath : Option CString

structure Driver where
  vartab : List Vartab
  dstate : Dstate
  devicePath : Option CString
  user : Option CString
  group : Option CString
  chrootPath : Option CString
  prognames : List CString
  pollInterval : Int64
  doSynchronous : Int
  sdcommands : Option CString
  reloadRequiresRestart : Int

def doAddvar (vartype : BitVec 32) (name : CString) (reloadable : Bool) (vartab : List Vartab) : List Vartab :=
  vartab ++ [{ var := name, vartype, reloadable, val := .null, found := false }]

structure Declared where
  vartype : BitVec 32
  name : CString
  reloadable : Bool
  deriving DecidableEq

def initial (site : Site) (table : List Declared) : Driver :=
  { vartab := table.foldl (fun vartab each => doAddvar each.vartype each.name each.reloadable vartab) []
    dstate := .empty
    devicePath := none
    user := some site.user
    group := some site.group
    chrootPath := site.chrootPath
    prognames := site.prognames
    pollInterval := 2
    doSynchronous := -1
    sdcommands := none
    reloadRequiresRestart := -1 }

def Driver.setinfo (var text : CString) (st : Driver) : Driver :=
  { st with dstate := (st.dstate.vdstateSetinfo 0 var text).1 }

def Driver.getinfo (var : CString) (st : Driver) : Option CString :=
  stateGetinfo st.dstate.dtreeRoot var

def dparamSetinfo (var : CString) (val : Option CString) (st : Driver) : Driver :=
  match val with
  | some val => st.setinfo (snprintf smallbuf (cstr "driver.parameter." ++ var)) val
  | none => st.setinfo (snprintf smallbuf (cstr "driver.flag." ++ var)) (cstr "enabled")

def startsWith (lead text : CString) : Bool :=
  strcasecmp (text.take lead.length) lead = .eq

def editVartab (var : CString) (edit : Vartab -> Vartab) : List Vartab -> List Vartab
  | [] => []
  | tmp :: rest => if tmp.named var then edit tmp :: rest else tmp :: editVartab var edit rest

-- Without a new value, what was freed stays where it is.
def Stored.replace (val : Option CString) : Stored -> Except Stop Stored
  | .freed => .error .freed
  | .null => .ok (match val with
    | some val => .text val
    | none => .null)
  | .text _ => .ok (match val with
    | some val => .text val
    | none => .freed)

def storeval (var : CString) (val : Option CString) (st : Driver) : Except Stop Driver :=
  if startsWith (cstr "override.") var then
    match val with
    | none => .error .nullPointer
    | some text =>
      let st := st.setinfo (var.drop 9) text
      let st := { st with dstate := (st.dstate.dstateSetflags (var.drop 9) stFlagImmutable).1 }
      .ok (dparamSetinfo var val st)
  else if startsWith (cstr "default.") var then
    match val with
    | none => .error .nullPointer
    | some text => .ok (dparamSetinfo var val (st.setinfo (var.drop 8) text))
  else
    match st.vartab.find? (·.named var) with
    | none => .error .exit
    | some tmp => do
      let stored <- tmp.val.replace val
      let st := if tmp.vartype &&& varSensitive = 0 then dparamSetinfo var val st else st
      pure { st with vartab := editVartab var (fun tmp => { tmp with val := stored, found := true }) st.vartab }

def getval (var : CString) (st : Driver) : Stored :=
  ((st.vartab.find? (·.named var)).map (·.val)).getD .null

def Driver.finish (verdict : Int) (st : Driver) : Int × Driver :=
  if (verdict = -1 ∨ verdict = 1) ∧ st.reloadRequiresRestart < 0 then (verdict, { st with reloadRequiresRestart := 0 })
  else (verdict, st)

def Driver.differs (mayChange : Bool) (st : Driver) : Int × Driver :=
  if mayChange then st.finish 1
  else
    (0, { st with reloadRequiresRestart := if st.reloadRequiresRestart < 1 then 1 else st.reloadRequiresRestart + 1 })

variable (reload : Bool)

def testvarReloadable (var : CString) (val : Option CString) (vartype : BitVec 32) (st : Driver) :
    Except Stop (Int × Driver) :=
  match st.vartab.find? (·.named var) with
  | none => .ok (st.finish 1)
  | some tmp =>
    match val, tmp.val with
    | some val, .text old =>
      if vartype &&& tmp.vartype ≠ 0 ∧ strcasecmp old val = .eq then .ok (st.finish (-1))
      else .ok (st.differs (!reload || tmp.reloadable))
    | some _, .freed =>
      if vartype &&& tmp.vartype ≠ 0 then .error .freed else .ok (st.differs (!reload || tmp.reloadable))
    | _, _ => .ok (st.finish (if !reload || !tmp.found || tmp.reloadable then 1 else 0))

def testvalReloadable (oldval newval : Option CString) (reloadable : Bool) (st : Driver) : Int × Driver :=
  match oldval, newval with
  | none, _ => st.finish 1
  | some _, none => st.finish (if !reload || reloadable then 1 else 0)
  | some oldval, some newval =>
    if strcasecmp oldval newval = .eq then st.finish (-1) else st.differs (!reload || reloadable)

def testinfoReloadable (infoname : CString) (newval : Option CString) (reloadable : Bool) (st : Driver) : Int × Driver :=
  if reload then testvalReloadable reload (st.getinfo infoname) newval reloadable st else (1, st)

def mainUser (fromCmdline : Bool) (old : Driver -> Option CString) (store : CString -> Driver -> Driver)
    (val : Option CString) (st : Driver) : Except Stop Driver :=
  let (verdict, st) := testvalReloadable reload (old st) val false st
  if 0 < verdict ∧ !fromCmdline then
    match val with
    | none => .error .nullPointer
    | some val => .ok (store val st)
  else .ok st

def pollinterval (val : Option CString) (st : Driver) : Except Stop Driver :=
  let (doHandle, st) := testvalReloadable reload (some (printInt st.pollInterval.toInt)) val true st
  if doHandle = 0 then .error .exit
  else if 0 < doHandle then
    match val with
    | none => .error .nullPointer
    | some val => if 0 < atoi val then .ok { st with pollInterval := (atoi val).toInt64 } else .error .exit
  else .ok st

def synchronous (val : Option CString) (st : Driver) : Except Stop Driver :=
  let oldval := if st.doSynchronous = 1 then cstr "yes" else if st.doSynchronous = 0 then cstr "no" else cstr "auto"
  let (verdict, st) := testvalReloadable reload (some oldval) val true st
  if 0 < verdict then
    match val with
    | none => .error .nullPointer
    | some val =>
      .ok { st with doSynchronous := if val = cstr "yes" then 1 else if val = cstr "auto" then -1 else 0 }
  else .ok st

variable (site : Site)

def mainArg (var : CString) (val : Option CString) (st : Driver) : Except Stop (Driver × Bool) :=
  if var = cstr "nolock" then
    .ok (if reload then st else st.setinfo (cstr "driver.flag.nolock") (cstr "enabled"), true)
  else if var = cstr "ignorelb" then
    .ok (if reload then st else st.setinfo (cstr "driver.flag.ignorelb") (cstr "enabled"), true)
  else if var = cstr "allow_killpower" then
    .ok (if reload then st else st.setinfo (cstr "driver.flag.allow_killpower") (cstr "1"), true)
  else
    match val with
    | none => .ok (st, false)
    | some text =>
      if var = cstr "port" then
        let (verdict, st) := testinfoReloadable reload (cstr "driver.parameter.port") val false st
        .ok (if 0 < verdict then { st with devicePath := some text }.setinfo (cstr "driver.parameter.port") text else st,
          true)
      else if var = cstr "user" then do
        let st <- mainUser reload site.userFromCmdline (·.user) (fun user st => { st with user := some user }) val st
        pure (st, true)
      else if var = cstr "group" then do
        let st <- mainUser reload site.groupFromCmdline (·.group) (fun group st => { st with group := some group }) val st
        pure (st, true)
      else if var = cstr "sddelay" then .ok (st, true)
      else if var = cstr "pollinterval" then do
        let st <- pollinterval reload val st
        pure (st, true)
      else if var = cstr "synchronous" then do
        let st <- synchronous reload val st
        pure (st, true)
      -- `reconnect_max_tries` and `reconnect_report_freq` are read here, and then passed on
      else if var = cstr "sdorder" ∨ var = cstr "maxstartdelay" ∨ var = cstr "maxretry" ∨ var = cstr "retrydelay" ∨
          var = cstr "desc" then .ok (st, true)
      else if var = cstr "sdcommands" then
        let (verdict, st) := testinfoReloadable reload (cstr "driver.parameter.sdcommands") val true st
        .ok (if 0 < verdict then { st with sdcommands := some text }.setinfo (cstr "driver.parameter.sdcommands") text else st,
          true)
      else if strcasecmp var (cstr "debug_min") = .eq ∨ var = cstr "LIBUSB_DEBUG" then .ok (st, true)
      else .ok (st, false)

def doGlobalArgs (var : CString) (val : Option CString) (st : Driver) : Except Stop Driver :=
  if var = cstr "pollinterval" then pollinterval reload val st
  else if var = cstr "chroot" then
    mainUser reload false (·.chrootPath) (fun chrootPath st => { st with chrootPath := some chrootPath }) val st
  else if var = cstr "user" then
    mainUser reload site.userFromCmdline (·.user) (fun user st => { st with user := some user }) val st
  else if var = cstr "group" then
    mainUser reload site.groupFromCmdline (·.group) (fun group st => { st with group := some group }) val st
  else if var = cstr "synchronous" then synchronous reload val st
  else .ok st

def testDriver (oldval newval : CString) : List CString -> Int × Driver -> Int × Driver
  | [], result => result
  | _ :: rest, (_, st) =>
    let result := testvalReloadable reload (some oldval) (some newval) false st
    if result.1 = -1 then result else testDriver oldval newval rest result

def driverLine (val : CString) (st : Driver) : Except Stop Driver :=
  let (doHandle, st) := testDriver reload (st.prognames.headD []) val st.prognames (-2, st)
  if doHandle = -1 then .ok st
  else
    let prognames := st.prognames.map fun progname =>
      if (!reload || 0 < doHandle) && (cstr "lt-").isPrefixOf progname && val = progname.drop 3 then progname.drop 3
      else progname
    if val ∈ prognames then .ok { st with prognames } else .error .exit

def doUpsconfArgs (confupsname : Option CString) (var : CString) (val : Option CString) (st : Driver) : Except Stop Driver :=
  match confupsname with
  | none => doGlobalArgs reload site var val st
  | some confupsname =>
    if confupsname ≠ site.upsname then .ok st
    else do
      let (st, handled) <- mainArg reload site var val st
      if handled then pure st
      else
        match val with
        | none => do
          let (verdict, st) <- testvarReloadable reload var none varFlag st
          if 0 < verdict then
            storeval var none (st.setinfo (snprintf smallbuf (cstr "driver.flag." ++ var)) (cstr "enabled"))
          else pure st
        | some text =>
          if var = cstr "driver" then driverLine reload text st
          else do
            let (verdict, st) <- testvarReloadable reload var val varValue st
            if 0 < verdict then storeval var val st else pure st

-- One line of the file, as it is passed on.
structure Call where
  confupsname : Option CString
  var : CString
  val : Option CString
  deriving DecidableEq

def confArgs (upsSection : Option CString) : List (List CString) -> List Call
  | [] => []
  | [] :: lines => confArgs upsSection lines
  | (arg :: rest) :: lines =>
    if arg.head? = some 91 ∧ arg.getLast? = some 93 then confArgs (some arg.tail.dropLast) lines
    else
      match rest with
      | [] => { confupsname := upsSection, var := arg, val := none } :: confArgs upsSection lines
      | [_] => confArgs upsSection lines
      | equals :: val :: _ =>
        if equals = cstr "=" then { confupsname := upsSection, var := arg, val := some val } :: confArgs upsSection lines
        else confArgs upsSection lines

def callsOf (file : CString) : List Call :=
  confArgs none (fileLines (startLine pconfInit) file)

def readUpsconf (file : CString) (st : Driver) : Except Stop Driver :=
  (callsOf file).foldlM (fun st call => doUpsconfArgs reload site call.confupsname call.var call.val st) st

inductive InstcmdResult where
  | handled
  | invalid
  deriving DecidableEq

def handleReloadFlag (file : CString) (st : Driver) : Except Stop (InstcmdResult × Driver) := do
  let st <- readUpsconf true site file { st with reloadRequiresRestart := -1 }
  pure (if st.reloadRequiresRestart < 1 then .handled else .invalid, st)

end Nut.Main
