import Nut.Server.NetGet

set_option autoImplicit false

namespace Nut

section Handlers

variable (now : Int) (w : Upsd) (client : Client)

-- netset.c

def finishLine (cmd : CString) (trackingId : Option CString) : CString :=
  let cmd := match trackingId with
    | some id => snprintfcat cmd smallbuf (cstr " TRACKING " ++ id)
    | none => cmd
  snprintfcat cmd smallbuf (cstr "\n")

def setCmd (var newval : CString) (trackingId : Option CString) : CString :=
  finishLine
    (snprintf smallbuf (cstr "SET " ++ var ++ cstr " \"" ++ pconfEncode newval [] smallbuf ++ cstr "\""))
    trackingId

def track : Option CString -> Upsd
  | some id => trackingAdd now w id
  | none => w

-- The end that `set_var` and `send_instcmd` share: the line goes to the driver.
def relay (ups : Upstype) (cmd : CString) (trackingId : Option CString) (failed : String) : Upsd :=
  match sstateSendline (track now w trackingId) ups cmd with
  | (w, false) => sendErr w client.id failed
  | (w, true) =>
    match trackingId with
    | some id => w.reply client.id (.okTracking id)
    | none => w.reply client.id ok

def enumAllows (enumList : List CString) (newval : CString) : Bool :=
  enumList.isEmpty || enumList.any fun val => val == newval

def rangeAllows (rangeList : List (Int32 × Int32)) (newval : CString) : Bool :=
  rangeList.isEmpty || rangeList.any fun item => atoi newval ≥ item.1 && atoi newval ≤ item.2

def setVar (upsname var newval : CString) (trackingId : Option CString) : Upsd :=
  withUps w client.id upsname fun ups => ifAvailable w client.id ups <|
    if !userCheckaction w.users client.username client.password "SET" then
      sendErr w client.id "ACCESS-DENIED"
    else if stateGetinfo ups.inforoot var = none then sendErr w client.id "VAR-NOT-SUPPORTED"
    else if stateGetflags ups.inforoot var &&& stFlagRw = 0 then sendErr w client.id "READONLY"
    else
      let isString := stateGetflags ups.inforoot var &&& stFlagString ≠ 0
      let aux := stateGetaux ups.inforoot var
      if isString ∧ aux < 1 then sendErr w client.id "SET-FAILED"
      else if isString ∧ aux.toInt < newval.length then sendErr w client.id "TOO-LONG"
      else if !enumAllows (stateGetenumlist ups.inforoot var) newval then
        sendErr w client.id "INVALID-VALUE"
      else if !rangeAllows (stateGetrangelist ups.inforoot var) newval then
        sendErr w client.id "INVALID-VALUE"
      else relay now w client ups (setCmd var newval trackingId) trackingId "SET-FAILED"

def newTrackingId : Option CString × Upsd :=
  if client.tracking then (some (nutUuidV4 w.randoms), { w with randoms := w.randoms.drop 16 })
  else (none, w)

def setTracking (w : Upsd) (value : Bool) : Upsd :=
  w.updateClient client.id fun client => { client with tracking := value }

def netSet (arg : List CString) : Upsd :=
  match arg with
  | arg0 :: arg1 :: args =>
    if isCommand arg0 "VAR" then
      match args with
      | arg2 :: arg3 :: _ =>
        let started := newTrackingId w client
        setVar now started.2 client arg1 arg2 arg3 started.1
      | _ => sendErr w client.id "INVALID-ARGUMENT"
    else if isCommand arg0 "TRACKING" then
      if isCommand arg1 "ON" then (setTracking client (trackingEnable w) true).reply client.id ok
      else if isCommand arg1 "OFF" then
        -- `tracking_disable` only counts the clients that still use it.
        (setTracking client w false).reply client.id ok
      else sendErr w client.id "INVALID-ARGUMENT"
    else sendErr w client.id "INVALID-ARGUMENT"
  | _ => sendErr w client.id "INVALID-ARGUMENT"

-- netinstcmd.c

-- Unlike the value of SET, that of INSTCMD is not quoted.
def instcmdCmd (cmdname : CString) (value : Option CString) (trackingId : Option CString) : CString :=
  let sockcmd := snprintf smallbuf (cstr "INSTCMD " ++ cmdname)
  let sockcmd := match value with
    | some value => snprintfcat sockcmd smallbuf (cstr " " ++ pconfEncode value [] smallbuf)
    | none => sockcmd
  finishLine sockcmd trackingId

def sendInstcmd (upsname cmdname : CString) (value : Option CString) (trackingId : Option CString) : Upsd :=
  withUps w client.id upsname fun ups => ifAvailable w client.id ups <|
    if !ups.cmdlist.any fun name => strcasecmp name cmdname == .eq then
      sendErr w client.id "CMD-NOT-SUPPORTED"
    else if !userCheckinstcmd w.users client.username client.password cmdname then
      sendErr w client.id "ACCESS-DENIED"
    else relay now w client ups (instcmdCmd cmdname value trackingId) trackingId "INSTCMD-FAILED"

-- A parameter is taken only when it is the last word.
def cmdparam : List CString -> Option CString
  | [value] => some value
  | _ => none

def netInstcmd (arg : List CString) : Upsd :=
  match arg with
  | devname :: cmdname :: args =>
    let started := newTrackingId w client
    sendInstcmd now started.2 client devname cmdname (cmdparam args) started.1
  | _ => sendErr w client.id "INVALID-ARGUMENT"

end Handlers

structure NetCmd where
  name : String
  func : Int -> Upsd -> Client -> List CString -> Upsd
  user : Bool

def netcmds : List NetCmd :=
  [ ⟨"VER", fun _ => netVer, false⟩,
    ⟨"NETVER", fun _ => netNetver, false⟩,
    ⟨"PROTVER", fun _ => netNetver, false⟩,
    ⟨"HELP", fun _ => netHelp, false⟩,
    ⟨"STARTTLS", fun _ w client _ => netStarttls w client, false⟩,
    ⟨"GET", fun _ => netGet, false⟩,
    ⟨"LIST", fun _ => netList, false⟩,
    ⟨"USERNAME", fun _ => netUsername, false⟩,
    ⟨"PASSWORD", fun _ => netPassword, false⟩,
    ⟨"LOGIN", fun _ => netLogin, true⟩,
    ⟨"LOGOUT", fun _ => netLogout, false⟩,
    ⟨"PRIMARY", fun _ => netPrimary, true⟩,
    ⟨"MASTER", fun _ => netMaster, true⟩,
    ⟨"FSD", fun _ => netFsd, true⟩,
    ⟨"SET", netSet, true⟩,
    ⟨"INSTCMD", netInstcmd, true⟩ ]

def checkCommand (now : Int) (cmd : NetCmd) (w : Upsd) (client : Client) (arg : List CString) : Upsd :=
  if cmd.user then
    match client.username, client.password with
    | none, _ => sendErr w client.id "USERNAME-REQUIRED"
    | some _, none => sendErr w client.id "PASSWORD-REQUIRED"
    | some username, some _ =>
      if !w.build.hostsAccess client.addr username then sendErr w client.id "ACCESS-DENIED"
      else cmd.func now w client arg
  else cmd.func now w client arg

def parseNet (now : Int) (w : Upsd) (client : Client) : List CString -> Upsd
  | [] => sendErr w client.id "UNKNOWN-COMMAND"
  | arg0 :: arg =>
    match netcmds.find? fun cmd => isCommand arg0 cmd.name with
    | some cmd => checkCommand now cmd w client arg
    | none => sendErr w client.id "UNKNOWN-COMMAND"

def Client.hear (now : Int) (client : Client) : Client :=
  { client with lastHeard := now }

def serveLine (now : Int) (id : Nat) (w : Upsd) (arglist : List CString) : Upsd :=
  let w := w.updateClient id (Client.hear now)
  match w.findClient id with
  | some client => parseNet now w client arglist
  | none => w

end Nut
