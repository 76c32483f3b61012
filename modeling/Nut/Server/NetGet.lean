import Nut.Server.NetUser

set_option autoImplicit false

namespace Nut

def listGet (name : CString) (list : List (CString × CString)) : Option CString :=
  (list.find? fun item => strcasecmp item.1 name == .eq).map Prod.snd

-- Lookups leave out the prefix that proxying drivers add, answers do not.
def stripUpstream (var : CString) : CString :=
  if (cstr "upstream.").isPrefixOf var then var.drop 9 else var

section Handlers

variable (w : Upsd) (client : Client)

-- netget.c

def getNumlogins (upsname : CString) : Upsd :=
  withUps w client.id upsname fun ups => ifAvailable w client.id ups <|
    w.reply client.id (.numlogins upsname ups.numlogins)

def getUpsdesc (upsname : CString) : Upsd :=
  withUps w client.id upsname fun ups => w.reply client.id (.upsdesc upsname ups.desc)

def getDesc (upsname var : CString) : Upsd :=
  withUps w client.id upsname fun ups => ifAvailable w client.id ups <|
    w.reply client.id (.described "DESC" upsname var (listGet (stripUpstream var) w.varList))

def getCmddesc (upsname cmd : CString) : Upsd :=
  withUps w client.id upsname fun ups => ifAvailable w client.id ups <|
    w.reply client.id (.described "CMDDESC" upsname cmd (listGet (stripUpstream cmd) w.cmdList))

def getType (upsname var : CString) : Upsd :=
  withUps w client.id upsname fun ups => ifAvailable w client.id ups <|
    match stateTreeFind ups.inforoot var with
    | none => sendErr w client.id "VAR-NOT-SUPPORTED"
    | some node => w.reply client.id (.type upsname var node)

def getVarServer (upsname var : CString) : Upsd :=
  if isCommand var "server.info" then
    w.reply client.id
      (.serverVar upsname "server.info" (cstr "Network UPS Tools upsd " ++ w.build.about))
  else if isCommand var "server.version" then
    w.reply client.id (.serverVar upsname "server.version" w.build.upsVersion)
  else sendErr w client.id "VAR-NOT-SUPPORTED"

def getVar (upsname var : CString) : Upsd :=
  if isCommand (var.take 7) "server." then getVarServer w client upsname var
  else withUps w client.id upsname fun ups => ifAvailable w client.id ups <|
    match stateGetinfo ups.inforoot var with
    | none => sendErr w client.id "VAR-NOT-SUPPORTED"
    | some val =>
      if isCommand var "ups.status" ∧ ups.fsd then w.reply client.id (.valueFsd upsname var val)
      else w.reply client.id (.value "VAR" upsname var val)

def netGet (arg : List CString) : Upsd :=
  match arg with
  | [] => sendErr w client.id "INVALID-ARGUMENT"
  | arg0 :: args =>
    if isCommand arg0 "TRACKING" then
      match args with
      | [] => w.reply client.id (.line (cstr (if client.tracking then "ON\n" else "OFF\n")))
      | id :: _ =>
        if client.tracking then
          w.reply client.id (.line (cstr (trackingGet id w.trackingList) ++ cstr "\n"))
        else sendErr w client.id "FEATURE-NOT-CONFIGURED"
    else match args with
    | [] => sendErr w client.id "INVALID-ARGUMENT"
    | arg1 :: args =>
      if isCommand arg0 "NUMLOGINS" then getNumlogins w client arg1
      else if isCommand arg0 "UPSDESC" then getUpsdesc w client arg1
      else match args with
      | [] => sendErr w client.id "INVALID-ARGUMENT"
      | arg2 :: _ =>
        if isCommand arg0 "VAR" then getVar w client arg1 arg2
        else if isCommand arg0 "TYPE" then getType w client arg1 arg2
        else if isCommand arg0 "DESC" then getDesc w client arg1 arg2
        else if isCommand arg0 "CMDDESC" then getCmddesc w client arg1 arg2
        else sendErr w client.id "INVALID-ARGUMENT"

-- netlist.c

def dumpNode (upsname : CString) (rw fsd : Bool) (node : StNode) : List Reply :=
  if rw then
    if node.flags &&& stFlagRw ≠ 0 then [.value "RW" upsname node.var node.val] else []
  else if fsd ∧ isCommand node.var "ups.status" then [.valueFsd upsname node.var node.val]
  else [.value "VAR" upsname node.var node.val]

def treeDump (id : Nat) (upsname : CString) (rw fsd : Bool) : StTree -> Upsd -> Upsd × Bool
  | .nil, w => (w, true)
  | .node left node right, w =>
    match treeDump id upsname rw fsd left w with
    | (w, false) => (w, false)
    | (w, true) =>
      match sendAll w id (dumpNode upsname rw fsd node) with
      | (w, false) => (w, false)
      | (w, true) => treeDump id upsname rw fsd right w

def sendList (what : String) (names : List CString) (items : Upsd -> Upsd × Bool) : Upsd :=
  match sendback w client.id (.beginList what names) with
  | (w, false) => w
  | (w, true) =>
    match items w with
    | (w, false) => w
    | (w, true) => w.reply client.id (.endList what names)

def listRw (upsname : CString) : Upsd :=
  withUps w client.id upsname fun ups => ifAvailable w client.id ups <|
    sendList w client "RW" [upsname] (treeDump client.id upsname true ups.fsd ups.inforoot)

def listVar (upsname : CString) : Upsd :=
  withUps w client.id upsname fun ups => ifAvailable w client.id ups <|
    sendList w client "VAR" [upsname] (treeDump client.id upsname false ups.fsd ups.inforoot)

def listCmd (upsname : CString) : Upsd :=
  withUps w client.id upsname fun ups => ifAvailable w client.id ups <|
    sendList w client "CMD" [upsname] fun w =>
      sendAll w client.id (ups.cmdlist.map fun name => .cmd upsname name)

def listEnum (upsname var : CString) : Upsd :=
  withUps w client.id upsname fun ups => ifAvailable w client.id ups <|
    match stateTreeFind ups.inforoot var with
    | none => sendErr w client.id "VAR-NOT-SUPPORTED"
    | some node =>
      sendList w client "ENUM" [upsname, var] fun w =>
        sendAll w client.id (node.enumList.map fun val => .value "ENUM" upsname var val)

def listRange (upsname var : CString) : Upsd :=
  withUps w client.id upsname fun ups => ifAvailable w client.id ups <|
    match stateTreeFind ups.inforoot var with
    | none => sendErr w client.id "VAR-NOT-SUPPORTED"
    | some node =>
      sendList w client "RANGE" [upsname, var] fun w =>
        sendAll w client.id (node.rangeList.map fun item => .range upsname var item.1 item.2)

def listUps : Upsd :=
  sendList w client "UPS" [] fun w =>
    sendAll w client.id (w.firstups.map fun ups => .ups ups.name ups.desc)

def listClients (upsname : CString) : Upsd :=
  withUps w client.id upsname fun ups =>
    sendList w client "CLIENT" [upsname] fun w =>
      sendAll w client.id (w.firstclient.filterMap fun c =>
        match c.loginups with
        | none => none
        | some loginups =>
          if strcasecmp loginups ups.name = .eq then some (.client loginups c.addr) else none)

def netList (arg : List CString) : Upsd :=
  match arg with
  | [] => sendErr w client.id "INVALID-ARGUMENT"
  | arg0 :: args =>
    if isCommand arg0 "UPS" then listUps w client
    else match args with
    | [] => sendErr w client.id "INVALID-ARGUMENT"
    | arg1 :: args =>
      if isCommand arg0 "VAR" then listVar w client arg1
      else if isCommand arg0 "RW" then listRw w client arg1
      else if isCommand arg0 "CMD" then listCmd w client arg1
      else if isCommand arg0 "CLIENT" then listClients w client arg1
      else match args with
      | [] => sendErr w client.id "INVALID-ARGUMENT"
      | arg2 :: _ =>
        if isCommand arg0 "ENUM" then listEnum w client arg1 arg2
        else if isCommand arg0 "RANGE" then listRange w client arg1 arg2
        else sendErr w client.id "INVALID-ARGUMENT"

end Handlers

end Nut
