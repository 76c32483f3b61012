import Nut.Common.ParseConf

set_option autoImplicit false

namespace Nut

def upscliNetbufLen : Nat := 512

def upscliReadbufLen : Nat := 64

-- UPSCLI_ERR_*
inductive UpscliErr where
  | unknown
  | varnotsupp
  | unknownups
  | accessdenied
  | pwdrequired
  | pwdincorrect
  | missingarg
  | datastale
  | logintwice
  | pwdsettwice
  | unknowntype
  | unknownvar
  | varreadonly
  | toolong
  | invalidvalue
  | setfailed
  | unkinstcmd
  | cmdfailed
  | cmdnotsupp
  | varunknown
  | invusername
  | usersettwice
  | unkcommand
  | invpassword
  | userrequired
  | drvnotconn
  | invalidarg
  | protocol
  | write
  | srvdisc
  deriving DecidableEq, Repr

def upsdErrlist : List (UpscliErr × String) :=
  [(.varnotsupp, "VAR-NOT-SUPPORTED"),
    (.unknownups, "UNKNOWN-UPS"),
    (.accessdenied, "ACCESS-DENIED"),
    (.pwdrequired, "PASSWORD-REQUIRED"),
    (.pwdincorrect, "PASSWORD-INCORRECT"),
    (.missingarg, "MISSING-ARGUMENT"),
    (.datastale, "DATA-STALE"),
    (.varunknown, "VAR-UNKNOWN"),
    (.logintwice, "ALREADY-LOGGED-IN"),
    (.pwdsettwice, "ALREADY-SET-PASSWORD"),
    (.unknowntype, "UNKNOWN-TYPE"),
    (.unknownvar, "UNKNOWN-VAR"),
    (.varreadonly, "READONLY"),
    (.toolong, "TOO-LONG"),
    (.invalidvalue, "INVALID-VALUE"),
    (.setfailed, "SET-FAILED"),
    (.unkinstcmd, "UNKNOWN-INSTCMD"),
    (.cmdfailed, "INSTCMD-FAILED"),
    (.cmdnotsupp, "CMD-NOT-SUPPORTED"),
    (.invusername, "INVALID-USERNAME"),
    (.usersettwice, "ALREADY-SET-USERNAME"),
    (.unkcommand, "UNKNOWN-COMMAND"),
    (.invpassword, "INVALID-PASSWORD"),
    (.userrequired, "USERNAME-REQUIRED"),
    (.drvnotconn, "DRIVER-NOT-CONNECTED")]

-- One argument as it stands in the line; the format is always found compatible with `%s`.
def encodedField (arg : CString) : CString :=
  let enc := pconfEncode arg [] upscliNetbufLen
  if 32 ∈ arg then [32, 34] ++ enc ++ [34] else 32 :: enc

def buildCmd (bufsize : Nat) (cmdname : CString) (arg : List CString) : CString :=
  let buf := arg.foldl (fun buf arg => snprintfcat buf bufsize (encodedField arg)) (snprintf bufsize cmdname)
  buf ++ snprintf (bufsize - buf.length) [10]

-- A connection to upsd, with what comes in over it: `incoming` is what `read` gives in turn.
structure Upsconn where
  connected : Bool
  upserror : Option UpscliErr
  pcCtx : PconfCtx
  -- The strings in `arglist`, with those that earlier replies left behind the ones of the last.
  slots : List CString
  readbuf : CString
  writable : Bool
  incoming : List CString
  sent : List CString
  deriving DecidableEq, Repr

namespace Upsconn

def numargs (ups : Upsconn) : Nat :=
  ups.pcCtx.arglist.length

def fails (ups : Upsconn) (error : UpscliErr) : Upsconn :=
  { ups with upserror := some error }

def disconnect (ups : Upsconn) : Upsconn :=
  { ups with connected := false, slots := [], pcCtx := pconfInit }

def sendline (ups : Upsconn) (buf : CString) : Upsconn × Bool :=
  if ups.connected = false then (ups.fails .drvnotconn, false)
  else if buf = [] then (ups.fails .invalidarg, false)
  else if ups.writable then ({ ups with sent := ups.sent ++ [buf] }, true)
  else ((ups.fails .write).disconnect, false)

def nextByte (ups : Upsconn) : Upsconn × Option UInt8 :=
  match ups.readbuf with
  | b :: rest => ({ ups with readbuf := rest }, some b)
  | [] =>
    match ups.incoming with
    | (b :: rest) :: incoming => ({ ups with readbuf := rest, incoming := incoming }, some b)
    | _ => ((ups.fails .srvdisc).disconnect, none)

-- `room` is what is left of the buffer.
def readlineLoop : Nat -> Upsconn -> CString -> Upsconn × Option CString
  | 0, ups, buf => (ups, some buf)
  | room + 1, ups, buf =>
    match ups.nextByte with
    | (ups, none) => (ups, none)
    | (ups, some b) => if b = 10 then (ups, some buf) else readlineLoop room ups (buf ++ [b])

def readline (ups : Upsconn) (buflen : Nat) : Upsconn × Option CString :=
  if ups.connected = false then (ups.fails .drvnotconn, none)
  else readlineLoop (buflen - 1) ups []

def errcheck (buf : CString) : Option UpscliErr :=
  if (cstr "ERR").isPrefixOf buf then
    match upsdErrlist.find? fun entry => (cstr entry.2).isPrefixOf (buf.drop 4) with
    | some entry => some entry.1
    | none => some .unknown
  else none

def parse (ups : Upsconn) (line : CString) : Upsconn :=
  let ctx := pconfLine ups.pcCtx line
  { ups with pcCtx := ctx, slots := ctx.arglist ++ ups.slots.drop ctx.arglist.length }

def accept (ups : Upsconn) (tmp : CString) : Upsconn × Bool :=
  match errcheck tmp with
  | some error => (ups.fails error, false)
  | none => (ups.parse tmp, true)

def receive (ups : Upsconn) : Upsconn × Bool :=
  match ups.readline upscliNetbufLen with
  | (ups, none) => (ups, false)
  | (ups, some tmp) => ups.accept (tmp.takeWhile (· ≠ 0))

end Upsconn

-- The elements of `arglist` that are read, in turn, and what comes of it; nothing where one is not there at all.
structure Reading (α : Type) where
  reads : List Nat
  result : Option α

-- make sure upsd is giving us what we asked for; `start` is the first element that is compared
def verifyResp (slots : List CString) (start : Nat) : List CString -> Reading Bool
  | [] => ⟨[], some true⟩
  | q :: query =>
    match slots[start]? with
    | none => ⟨[start], none⟩
    | some a =>
      if strcasecmp q a ≠ .eq then ⟨[start], some false⟩
      else
        let rest := verifyResp slots (start + 1) query
        ⟨start :: rest.reads, rest.result⟩

namespace Upsconn

def ask (ups : Upsconn) (cmdname : String) (query : List CString) : Upsconn × Bool :=
  if query.length < 1 then (ups.fails .invalidarg, false)
  else
    match ups.sendline (buildCmd upscliNetbufLen (cstr cmdname) query) with
    | (ups, false) => (ups, false)
    | (ups, true) => ups.receive

def checkGet (ups : Upsconn) (query : List CString) : Reading Bool :=
  if ups.numargs < query.length then ⟨[], some false⟩ else verifyResp ups.slots 0 query

def checkListStart (ups : Upsconn) (query : List CString) : Reading Bool :=
  if ups.numargs < 2 then ⟨[], some false⟩
  else
    let begin_ := verifyResp ups.slots 0 [cstr "BEGIN", cstr "LIST"]
    match begin_.result with
    | some true =>
      let rest := verifyResp ups.slots 2 query
      ⟨begin_.reads ++ rest.reads, rest.result⟩
    | result => ⟨begin_.reads, result⟩

def isWord (slots : List CString) (place : Nat) (word : String) : Bool :=
  slots[place]? = some (cstr word)

def checkListNext (ups : Upsconn) (query : List CString) : Reading Int :=
  if ups.numargs < 1 then ⟨[], some (-1)⟩
  else
    let looked := if ups.numargs < 2 then [] else if isWord ups.slots 0 "END" then [0, 1] else [0]
    if ups.numargs ≥ 2 ∧ isWord ups.slots 0 "END" ∧ isWord ups.slots 1 "LIST" then ⟨looked, some 0⟩
    else
      let rest := verifyResp ups.slots 0 query
      ⟨looked ++ rest.reads, rest.result.map fun ok => if ok then 1 else -1⟩

def judge (ups : Upsconn) (ok : Option Bool) : Upsconn :=
  if ok = some true then ups else ups.fails .protocol

def upscliGet (ups : Upsconn) (query : List CString) : Upsconn × Reading Bool :=
  match ups.ask "GET" query with
  | (ups, false) => (ups, ⟨[], some false⟩)
  | (ups, true) => (ups.judge (ups.checkGet query).result, ups.checkGet query)

def upscliListStart (ups : Upsconn) (query : List CString) : Upsconn × Reading Bool :=
  match ups.ask "LIST" query with
  | (ups, false) => (ups, ⟨[], some false⟩)
  | (ups, true) => (ups.judge (ups.checkListStart query).result, ups.checkListStart query)

def upscliListNext (ups : Upsconn) (query : List CString) : Upsconn × Reading Int :=
  match ups.receive with
  | (ups, false) => (ups, ⟨[], some (-1)⟩)
  | (ups, true) =>
    (ups.judge ((ups.checkListNext query).result.map fun ret => ret ≥ 0), ups.checkListNext query)

-- The part of upsmon's `get_var` behind the choice of the query: the value that it copies, if it returns 0.
def getVar (ups : Upsconn) (query : List CString) (bufsize : Nat) : Upsconn × Reading (Option CString) :=
  match ups.upscliGet query with
  | (ups, ⟨reads, some true⟩) =>
    if ups.numargs < query.length then (ups, ⟨reads, some none⟩)
    else
      (ups, ⟨reads ++ [query.length], (ups.slots[query.length]?).map fun answer => some (snprintf bufsize answer)⟩)
  | (ups, ⟨reads, result⟩) => (ups, ⟨reads, result.map fun _ => none⟩)

end Upsconn

def getVarQuery (upsname : CString) (var : String) : List CString :=
  match var with
  | "numlogins" => [cstr "NUMLOGINS", upsname]
  | "status" => [cstr "VAR", upsname, cstr "ups.status"]
  | "buzzword" => [cstr "VAR", upsname, cstr "ups.mode.buzzwords"]
  | "X-buzzword" => [cstr "VAR", upsname, cstr "experimental.ups.mode.buzzwords"]
  | "alarm" => [cstr "VAR", upsname, cstr "ups.alarm"]
  | _ => []

end Nut
