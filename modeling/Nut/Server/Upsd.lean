import Nut.Server.Sstate

set_option autoImplicit false

namespace Nut

-- What the build decides. `hostsAccess` is the answer of tcp-wrappers for an address and a user,
-- and always `true` in a build without `HAVE_WRAP`.
structure Build where
  upsVersion : CString
  packageUrl : Option CString
  nutNetversion : CString
  hostsAccess : CString -> CString -> Bool

-- `nut_ctype_t`; `id` stands for the address of the record.
structure Client where
  id : Nat
  addr : CString
  lastHeard : Int
  loginups : Option CString
  password : Option CString
  username : Option CString
  tracking : Bool
  ctx : PconfCtx
  deriving DecidableEq, Repr

-- The calls of `sendback`: a format with what is printed through it.
inductive Reply where
  | line (text : CString)
  | err (errtype : String)
  | okTracking (id : CString)
  | numlogins (upsname : CString) (numlogins : Int)
  | upsdesc (upsname : CString) (desc : Option CString)
  -- DESC and CMDDESC
  | described (keyword : String) (upsname var : CString) (desc : Option CString)
  | type (upsname var : CString) (node : StNode)
  | serverVar (upsname : CString) (var : String) (text : CString)
  -- VAR, RW and ENUM
  | value (keyword : String) (upsname var val : CString)
  | valueFsd (upsname var val : CString)
  | beginList (what : String) (names : List CString)
  | endList (what : String) (names : List CString)
  | ups (name : CString) (desc : Option CString)
  | cmd (upsname name : CString)
  | range (upsname var : CString) (min max : Int32)
  | client (loginups addr : CString)
  deriving DecidableEq

def catIf (cond : Bool) (text : String) (buf : CString) : CString :=
  if cond then snprintfcat buf smallbuf (cstr text) else buf

-- The buffer of `get_type`.
def typeBuf (upsname var : CString) (node : StNode) : CString :=
  catIf (node.rangeList ≠ []) " RANGE" <|
    catIf (node.enumList ≠ []) " ENUM" <|
      catIf (node.flags &&& stFlagRw ≠ 0) " RW" <|
        snprintf smallbuf (cstr "TYPE " ++ upsname ++ cstr " " ++ var)

def Reply.names (names : List CString) : CString :=
  names.flatMap fun name => cstr " " ++ name

def Reply.format : Reply -> CString
  | line text => text
  | err errtype => cstr "ERR " ++ cstr errtype ++ cstr "\n"
  | okTracking id => cstr "OK TRACKING " ++ id ++ cstr "\n"
  | numlogins upsname n => cstr "NUMLOGINS " ++ upsname ++ cstr " " ++ printInt n ++ cstr "\n"
  | upsdesc upsname (some desc) =>
    cstr "UPSDESC " ++ upsname ++ cstr " \"" ++ pconfEncode desc [] smallbuf ++ cstr "\"\n"
  | upsdesc upsname none => cstr "UPSDESC " ++ upsname ++ cstr " \"Unavailable\"\n"
  | described keyword upsname var (some desc) =>
    cstr keyword ++ cstr " " ++ upsname ++ cstr " " ++ var ++ cstr " \"" ++ desc ++ cstr "\"\n"
  | described keyword upsname var none =>
    cstr keyword ++ cstr " " ++ upsname ++ cstr " " ++ var ++ cstr " \"Description unavailable\"\n"
  | type upsname var node =>
    if node.flags &&& stFlagString ≠ 0 then
      typeBuf upsname var node ++ cstr " STRING:" ++ printInt node.aux.toInt ++ cstr "\n"
    else typeBuf upsname var node ++ cstr " NUMBER\n"
  | serverVar upsname var text =>
    cstr "VAR " ++ upsname ++ cstr " " ++ cstr var ++ cstr " \"" ++ text ++ cstr "\"\n"
  | value keyword upsname var val =>
    cstr keyword ++ cstr " " ++ upsname ++ cstr " " ++ var ++ cstr " \"" ++ val ++ cstr "\"\n"
  | valueFsd upsname var val =>
    cstr "VAR " ++ upsname ++ cstr " " ++ var ++ cstr " \"FSD " ++ val ++ cstr "\"\n"
  | beginList what names => cstr "BEGIN LIST " ++ cstr what ++ Reply.names names ++ cstr "\n"
  | endList what names => cstr "END LIST " ++ cstr what ++ Reply.names names ++ cstr "\n"
  | ups name (some desc) =>
    cstr "UPS " ++ name ++ cstr " \"" ++ pconfEncode desc [] smallbuf ++ cstr "\"\n"
  | ups name none => cstr "UPS " ++ name ++ cstr " \"Description unavailable\"\n"
  | cmd upsname name => cstr "CMD " ++ upsname ++ cstr " " ++ name ++ cstr "\n"
  | range upsname var min max =>
    cstr "RANGE " ++ upsname ++ cstr " " ++ var ++ cstr " \"" ++ printInt min.toInt ++ cstr "\" \"" ++
      printInt max.toInt ++ cstr "\"\n"
  | client loginups addr => cstr "CLIENT " ++ loginups ++ cstr " " ++ addr ++ cstr "\n"

def nutNetAnswerMax : Nat := smallbuf

def Reply.ans (reply : Reply) : CString :=
  snprintf (nutNetAnswerMax + 1) reply.format

structure Upsd where
  build : Build
  firstups : List Upstype
  firstclient : List Client
  users : List User
  cmdList : List (CString × CString)
  varList : List (CString × CString)
  maxage : Int
  trackingDelay : Int
  trackingEnabled : Bool
  trackingList : TrackingList
  -- The number of the next connection.
  nextId : Nat
  -- What is still to come from outside: whether each `write` succeeds (they do when none is left),
  -- and the bytes that `rand` makes.
  writes : List Bool
  randoms : List UInt8
  -- What was written: replies to clients and whether they went out, and lines to drivers.
  replies : List (Nat × Reply × Bool)
  lines : List (CString × CString)

def getUpsPtr (w : Upsd) (name : CString) : Option Upstype :=
  w.firstups.find? fun tmp => strcasecmp tmp.name name == .eq

def modifyUps (name : CString) (change : Upstype -> Upstype) : List Upstype -> List Upstype
  | [] => []
  | tmp :: rest =>
    if strcasecmp tmp.name name = .eq then change tmp :: rest else tmp :: modifyUps name change rest

def Upsd.updateUps (w : Upsd) (name : CString) (change : Upstype -> Upstype) : Upsd :=
  { w with firstups := modifyUps name change w.firstups }

def Upsd.findClient (w : Upsd) (id : Nat) : Option Client :=
  w.firstclient.find? fun client => client.id == id

def Upsd.updateClient (w : Upsd) (id : Nat) (change : Client -> Client) : Upsd :=
  { w with firstclient := w.firstclient.map fun client => if client.id = id then change client else client }

def Upsd.nextWrite (w : Upsd) : Bool :=
  w.writes.headD true

-- A short or failed write marks the client for the next scan.
def sendback (w : Upsd) (id : Nat) (reply : Reply) : Upsd × Bool :=
  let ok := w.nextWrite
  let w := { w with writes := w.writes.tail, replies := w.replies ++ [(id, reply, ok)] }
  if ok then (w, true) else (w.updateClient id fun client => { client with lastHeard := 0 }, false)

def Upsd.reply (w : Upsd) (id : Nat) (reply : Reply) : Upsd :=
  (sendback w id reply).1

def sendErr (w : Upsd) (id : Nat) (errtype : String) : Upsd :=
  w.reply id (.err errtype)

-- The calls of `sendback` up to the first that fails.
def sendAll (w : Upsd) (id : Nat) : List Reply -> Upsd × Bool
  | [] => (w, true)
  | reply :: rest =>
    match sendback w id reply with
    | (w, true) => sendAll w id rest
    | (w, false) => (w, false)

def ok : Reply := .line (cstr "OK\n")

def Upsd.writeLine (w : Upsd) (ups : Upstype) (buf : CString) : Upsd :=
  { w with writes := w.writes.tail, lines := w.lines ++ [(ups.name, buf)] }

def sstateSendline (w : Upsd) (ups : Upstype) (buf : CString) : Upsd × Bool :=
  if !ups.connected then (w, false)
  else if w.nextWrite then (w.writeLine ups buf, true)
  else ((w.writeLine ups buf).updateUps ups.name sstateDisconnect, false)

def withUps (w : Upsd) (id : Nat) (upsname : CString) (serve : Upstype -> Upsd) : Upsd :=
  match getUpsPtr w upsname with
  | none => sendErr w id "UNKNOWN-UPS"
  | some ups => serve ups

def ifAvailable (w : Upsd) (id : Nat) (ups : Upstype) (serve : Upsd) : Upsd :=
  if !ups.connected then sendErr w id "DRIVER-NOT-CONNECTED"
  else if ups.stale then sendErr w id "DATA-STALE"
  else serve

-- Status tracking

def trackingAdd (now : Int) (w : Upsd) (id : CString) : Upsd :=
  if w.trackingEnabled then
    { w with trackingList := { id := id, status := -1, requestTime := now } :: w.trackingList }
  else w

def trackingDel (id : CString) : TrackingList -> TrackingList
  | [] => []
  | item :: rest => if strcasecmp item.id id = .eq then rest else item :: trackingDel id rest

def trackingCleanup (now : Int) (w : Upsd) : Upsd :=
  let expire (list : TrackingList) (item : TrackingEntry) : TrackingList :=
    if now - item.requestTime > w.trackingDelay then trackingDel item.id list else list
  { w with trackingList := w.trackingList.foldl expire w.trackingList }

def trackingGet (id : CString) : TrackingList -> String
  | [] => "ERR UNKNOWN"
  | item :: rest =>
    if strcasecmp item.id id ≠ .eq then trackingGet id rest
    else if item.status = -1 then "PENDING"
    else if item.status = 0 then "SUCCESS"
    else if item.status = 1 then "ERR UNKNOWN"
    else if item.status = 2 ∨ item.status = 4 then "ERR INVALID-ARGUMENT"
    else if item.status = 3 then "ERR FAILED"
    -- any other status: the search goes on
    else trackingGet id rest

-- The flag goes up here and nowhere down.
def trackingEnable (w : Upsd) : Upsd :=
  { w with trackingEnabled := true }

def hexDigit (n : Nat) : UInt8 :=
  UInt8.ofNat (if n < 10 then 48 + n else 55 + n)

def hexByte (b : UInt8) : CString :=
  [hexDigit (b.toNat / 16), hexDigit (b.toNat % 16)]

def nutUuidV4 (randoms : List UInt8) : CString :=
  let byte (i : Nat) : UInt8 :=
    let b := randoms.getD i 0
    if i = 6 then b &&& 0x0F ||| 0x40 else if i = 8 then b &&& 0x3F ||| 0x80 else b
  let group (from_ count : Nat) : CString := (List.range count).flatMap fun i => hexByte (byte (from_ + i))
  group 0 4 ++ [45] ++ group 4 2 ++ [45] ++ group 6 2 ++ [45] ++ group 8 2 ++ [45] ++ group 10 6


def declogins (w : Upsd) (upsname : CString) : Upsd :=
  w.updateUps upsname fun ups => { ups with numlogins := ups.numlogins - 1 }

def clientDisconnect (w : Upsd) (id : Nat) : Upsd :=
  match w.findClient id with
  | none => w
  | some client =>
    let w := match client.loginups with
      | some upsname => declogins w upsname
      | none => w
    { w with firstclient := w.firstclient.filter fun other => other.id ≠ id }

def kickLoginClients (w : Upsd) (upsname : CString) : Upsd :=
  w.firstclient.foldl (fun w client =>
    if client.loginups = some upsname then clientDisconnect w client.id else w) w

def oldestClient (clients : List Client) : Option Client :=
  clients.foldl (fun oldest client =>
    match oldest with
    | none => some client
    | some other => if client.lastHeard < other.lastHeard then some client else some other) none

def closeOldestClient (w : Upsd) : Upsd :=
  match oldestClient w.firstclient with
  | none => w
  | some client => clientDisconnect w client.id

def clientConnect (now : Int) (addr : CString) (w : Upsd) : Upsd :=
  let client : Client :=
    { id := w.nextId, addr, lastHeard := now, loginups := none, password := none, username := none,
      tracking := false, ctx := pconfInit }
  { w with firstclient := client :: w.firstclient, nextId := w.nextId + 1 }

end Nut
