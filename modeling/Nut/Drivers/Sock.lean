import Nut.Drivers.DstateRun
import Nut.Server.User

set_option autoImplicit false

namespace Nut

inductive Errno where
  | ok
  | eagain
  | eintr
  | einval
  | enotconn
  | erange
  | other (errno : Nat)
  deriving DecidableEq, Repr

-- `conn_t`; a descriptor stands for the pointer too.
structure Conn where
  fd : Nat
  ctx : PconfCtx
  nobroadcast : Bool
  readzero : Nat
  closing : Bool
  deriving DecidableEq, Repr

inductive WriteRet where
  -- all bytes, fewer, or -1
  | complete
  | short
  | failed (errno : Errno)
  deriving DecidableEq, Repr

structure Sock where
  dstate : Dstate
  connhead : List Conn
  errno : Errno
  doSynchronous : Int
  writes : Nat
  written : List (Nat × CString)
  -- a connection has been read after it was freed; nothing is known of what follows
  dangling : Bool
  deriving DecidableEq

structure Handling where
  ops : List DstateOp
  errno : Errno
  ret : Int

-- Everything around dstate.c. Its first arguments are how many writes went before; `setvar` is `none` where the
-- driver lacks a handler.
structure World where
  write : Nat -> Nat -> WriteRet
  now : Nat -> Int
  pid : Int
  instcmd : Nat -> CString -> Option CString -> Handling
  setvar : Nat -> CString -> CString -> Option Handling

namespace Sock

def conn? (s : Sock) (fd : Nat) : Option Conn :=
  s.connhead.find? fun conn => conn.fd == fd

def next? (s : Sock) (fd : Nat) : Option Nat :=
  ((s.connhead.dropWhile fun conn => conn.fd ≠ fd).drop 1).head?.map Conn.fd

-- The loop goes on there, freed or not.
def goesOn (cnext : Option Nat) (s : Sock) : Sock :=
  if cnext.all fun fd => (s.conn? fd).isSome then s else { s with dangling := true }

def isOpen (s : Sock) (fd : Nat) : Bool :=
  (s.conn? fd).any fun conn => !conn.closing

def updateConn (s : Sock) (fd : Nat) (f : Conn -> Conn) : Sock :=
  { s with connhead := s.connhead.map fun conn => if conn.fd = fd then f conn else conn }

def sockDisconnect (s : Sock) (fd : Nat) : Sock :=
  { s with connhead := s.connhead.filter fun conn => conn.fd ≠ fd }

def reap (s : Sock) : Sock :=
  { s with connhead := s.connhead.filter fun conn => !conn.closing }

variable (world : World)

def write (fd : Nat) (buf : CString) (s : Sock) : Sock × WriteRet :=
  let ret := world.write s.writes fd
  let s := { s with writes := s.writes + 1 }
  match ret with
  | .complete => ({ s with written := s.written ++ [(fd, buf)] }, ret)
  | .short => (s, ret)
  | .failed errno => ({ s with errno }, ret)

def synchronousText (doSynchronous : Int) : CString :=
  cstr (if doSynchronous = 1 then "yes" else if doSynchronous = 0 then "no" else "auto")

def afterFailure (sendToAll : CString -> Sock -> Sock) (ret : WriteRet) (s : Sock) : Sock :=
  let s := if ret = .failed .eagain ∧ s.doSynchronous = -1 then { s with doSynchronous := 1 } else s
  let (dstate, lines, _) := Dstate.vdstateSetinfo (world.now s.writes) (cstr "driver.parameter.synchronous")
    (synchronousText s.doSynchronous) s.dstate
  lines.foldl (fun s line => sendToAll line s) { s with dstate }

def sendToEach (sendToAll : CString -> Sock -> Sock) (buf : CString) (s : Sock) (fd : Nat) : Sock :=
  match s.conn? fd with
  | none => s
  | some conn =>
    if conn.nobroadcast then s
    else
      let (s, ret) := s.write world fd buf
      if ret = .complete then s
      else
        goesOn (s.next? fd)
          (afterFailure world sendToAll ret (s.updateConn fd fun conn => { conn with closing := true }))

def sendToAll : Nat -> CString -> Sock -> Sock
  | 0, _, s => s
  | again + 1, text, s =>
    if text = [] then s
    else
      let buf := snprintf stSockBufLen text
      let s := (s.connhead.map Conn.fd).foldl (sendToEach world (sendToAll again) buf) s
      { s.reap with errno := .ok }

def broadcast (text : CString) (s : Sock) : Sock :=
  sendToAll world 3 text s

def applyOp (s : Sock) (op : DstateOp) : Sock :=
  let (dstate, lines) := op.apply (world.now s.writes) s.dstate
  lines.foldl (fun s line => broadcast world line s) { s with dstate }

-- `conn->closing` is read first of all.
def ifOpen (fd : Nat) (s : Sock) (next : Sock -> Sock × Int) : Sock × Int :=
  match s.conn? fd with
  | none => ({ s with dangling := true }, -2)
  | some conn => if conn.closing then ({ s with errno := .enotconn }, -2) else next s

def sendToOne (fd : Nat) (text : CString) (s : Sock) : Sock × Int :=
  ifOpen fd s fun s =>
    if text = [] then (s, 1)
    else
      let buf := snprintf stSockBufLen text
      let (s, ret) :=
        match s.write world fd buf with
        | (s, .failed _) => s.write world fd buf
        | done => done
      if ret = .complete then (s, 1)
      else ({ afterFailure world (broadcast world) ret (s.sockDisconnect fd) with errno := .enotconn }, -2)

def checkSend (failed : Int) (sent : Sock × Int) (next : Sock -> Sock × Int) : Sock × Int :=
  if sent.1.errno = .enotconn then (sent.1, -2) else if sent.2 = 0 then (sent.1, failed) else next sent.1

def sendTexts (fd : Nat) : List CString -> Sock -> Sock × Int
  | [], s => (s, 1)
  | text :: texts, s => checkSend 0 (sendToOne world fd text s) (sendTexts fd texts)

def nodeTexts (node : StNode) : List CString :=
  formatValue (cstr "SETINFO") node.var node.val ::
    (node.enumList.map (fun val => formatValue (cstr "ADDENUM") node.var val) ++
      node.rangeList.map (fun range => formatRange (cstr "ADDRANGE") node.var range.1 range.2) ++
      (if node.aux ≠ 0 then [formatAux node.var node.aux] else []) ++
      (if node.flags ≠ 0 then [cstr "SETFLAGS " ++ flagList node.var node.flags ++ cstr "\n"] else []))

def stTreeDumpConnOneNode (fd : Nat) (node : StNode) (s : Sock) : Sock × Int :=
  ifOpen fd s (sendTexts world fd (nodeTexts node))

-- A subtree that is missing is not even checked for.
def stTreeDumpConn (fd : Nat) : StTree -> Sock -> Sock × Int
  | .nil, s => ifOpen fd s fun s => (s, 1)
  | .node left node right, s =>
    ifOpen fd s fun s =>
      let rest (s : Sock) : Sock × Int :=
        checkSend 0 (stTreeDumpConnOneNode world fd node s) fun s =>
          if right = .nil then (s, 1)
          else
            let sent := stTreeDumpConn fd right s
            if sent.1.errno = .enotconn then (sent.1, -2) else sent
      if left = .nil then rest s else checkSend 0 (stTreeDumpConn fd left s) rest

def cmdDumpConn (fd : Nat) (s : Sock) : Sock × Int :=
  ifOpen fd s (sendTexts world fd (s.dstate.cmdhead.map fun cmd => formatWord (cstr "ADDCMD") cmd))

def sendTracking (fd : Nat) (id : CString) (value : Int) (s : Sock) : Sock × Int :=
  ifOpen fd s (sendToOne world fd (cstr "TRACKING " ++ id ++ cstr " " ++ printInt value ++ cstr "\n"))

def answer (sent : Sock × Int) : Sock × Int :=
  checkSend (-3) sent fun s => (s, sent.2)

-- one way or another, the command was handled
def dumpEnd (fd : Nat) (s : Sock) : Sock × Int :=
  let done (s : Sock) := answer (sendToOne world fd (cstr "DUMPDONE\n") s)
  if s.dstate.stale then done s else checkSend (-3) (sendToOne world fd (cstr "DATAOK\n") s) done

def dumpAll (fd : Nat) (s : Sock) : Sock × Int :=
  checkSend (-3) (stTreeDumpConn world fd s.dstate.dtreeRoot s) fun s =>
    checkSend (-3) (cmdDumpConn world fd s) (dumpEnd world fd)

-- A cheaper version of the dump
def dumpOne (fd : Nat) (varname : CString) (s : Sock) : Sock × Int :=
  match stateTreeFind s.dstate.dtreeRoot varname with
  | none => dumpEnd world fd s
  | some sttmp => checkSend (-3) (stTreeDumpConnOneNode world fd sttmp s) (dumpEnd world fd)

-- first thing: the staleness flag
def dump (fd : Nat) (body : Sock -> Sock × Int) (s : Sock) : Sock × Int :=
  if s.dstate.stale then checkSend (-3) (sendToOne world fd (cstr "DATASTALE\n") s) body else body s

end Sock

def strToInt (string : CString) : Option Int × Errno :=
  let blank (b : UInt8) : Bool := isspace (charToInt b)
  let trimmed := ((string.dropWhile blank).reverse.dropWhile blank).reverse
  let digits := match trimmed with
    | 45 :: rest => rest
    | 43 :: rest => rest
    | rest => rest
  if digits = [] ∨ digits.all isdigit = false then (none, .einval)
  else
    let value : Int := if trimmed.head? = some 45 then -(digitsValue digits : Int) else digitsValue digits
    if value < -2 ^ 31 ∨ value > 2 ^ 31 - 1 then (none, .erange) else (some value, .ok)

namespace Sock

variable (world : World)

def handle (handling : Handling) (s : Sock) : Sock :=
  { handling.ops.foldl (applyOp world) s with errno := handling.errno }

-- send back execution result if requested
def report (fd : Nat) (id : Option CString) (ret : Int) (s : Sock) : Sock × Int :=
  match id with
  | none => (s, 1)
  | some id => answer (sendTracking world fd id ret s)

def instcmd (fd : Nat) (args : List CString) (s : Sock) : Sock × Int :=
  let call (cmdname : CString) (cmdparam cmdid : Option CString) : Sock × Int :=
    let handling := world.instcmd s.writes cmdname cmdparam
    report world fd cmdid handling.ret (handle world handling s)
  match args with
  | [cmdname] => call cmdname none none
  | [cmdname, cmdparam] => call cmdname (some cmdparam) none
  | [cmdname, keyword, cmdid] => if isCommand keyword "TRACKING" then call cmdname none (some cmdid) else (s, 0)
  | [cmdname, cmdparam, keyword, cmdid] =>
    if isCommand keyword "TRACKING" then call cmdname (some cmdparam) (some cmdid) else (s, 0)
  | _ => (s, 0)

def setvar (fd : Nat) (args : List CString) (s : Sock) : Sock × Int :=
  let call (var value : CString) (setid : Option CString) : Sock × Int :=
    match world.setvar s.writes var value with
    | some handling => report world fd setid handling.ret (handle world handling s)
    | none => (s, 1)
  match args with
  | [var, value, keyword, setid] => if isCommand keyword "TRACKING" then call var value (some setid) else (s, 0)
  | var :: value :: _ => call var value none
  | _ => (s, 0)

def sockArg (fd : Nat) (arg : List CString) (s : Sock) : Sock × Int :=
  ifOpen fd s fun s =>
    match arg with
    | [] => (s, 0)
    | arg0 :: args =>
      if isCommand arg0 "LOGOUT" then
        let s := (sendToOne world fd (cstr "OK Goodbye\n") s).1
        (if s.errno = .enotconn then s else s.updateConn fd fun conn => { conn with closing := true }, 2)
      else if isCommand arg0 "GETPID" then
        answer (sendToOne world fd (cstr "PID " ++ printInt world.pid ++ cstr "\n") s)
      else if isCommand arg0 "DUMPALL" then dump world fd (dumpAll world fd) s
      else if isCommand arg0 "DUMPSTATUS" then dump world fd (dumpOne world fd (cstr "ups.status")) s
      else if isCommand arg0 "DUMPVALUE" ∧ args ≠ [] then dump world fd (dumpOne world fd (args.headD [])) s
      else if isCommand arg0 "PING" then answer (sendToOne world fd (cstr "PONG\n") s)
      else if isCommand arg0 "NOBROADCAST" then
        (s.updateConn fd fun conn => { conn with nobroadcast := true }, 1)
      else if isCommand arg0 "BROADCAST" then
        match args with
        | [] => (s.updateConn fd fun conn => { conn with nobroadcast := false }, 1)
        | arg1 :: _ =>
          let (i, errno) := strToInt arg1
          ({ s.updateConn fd fun conn => { conn with nobroadcast := i.any (· < 1) } with errno }, 1)
      else if isCommand arg0 "INSTCMD" then instcmd world fd args s
      else if isCommand arg0 "SET" then setvar world fd args s
      else (s, 0)

structure Call where
  fd : Nat
  arg : List CString
  before : Sock
  after : Sock

-- A byte of a connection that completes a line there, with what was made of it: the line that the parser of the
-- connection had then, or nothing where the rest of a read was thrown away.
structure Heard where
  fd : Nat
  arg : List CString
  byte : UInt8
  used : Option (List CString)
  before : Sock
  after : Sock

structure Loop where
  sock : Sock
  calls : List Call
  -- what all the bytes read from a connection come to
  context : Nat -> PconfCtx
  heard : List Heard

def hear (fd : Nat) (byte : UInt8) (used : Option (List CString)) (before : Sock) (l : Loop) : Loop :=
  let (ctx, parsed) := pconfChar (l.context fd) byte
  let context := Function.update l.context fd ctx
  if parsed = 1 then
    { l with context, heard := l.heard ++ [{ fd, arg := ctx.arglist, byte, used, before, after := l.sock }] }
  else { l with context }

def throwAway (fd : Nat) (bytes : CString) (l : Loop) : Loop :=
  bytes.foldl (fun l byte => hear fd byte none l.sock l) l

def readBytes (fd : Nat) : CString -> Loop -> Loop × Int
  | [], l => (l, 1)
  | b :: bytes, l =>
    match l.sock.conn? fd with
    | none => (throwAway fd (b :: bytes) { l with sock := { l.sock with dangling := true } }, -2)
    | some conn =>
      let (ctx, parsed) := pconfChar conn.ctx b
      let s := l.sock.updateConn fd fun conn => { conn with ctx }
      if parsed = 0 then readBytes fd bytes (hear fd b none l.sock { l with sock := s })
      else if parsed = 1 then
        let (after, ret) := sockArg world fd ctx.arglist s
        let calls := l.calls ++ [{ fd, arg := ctx.arglist, before := s, after }]
        let l := hear fd b (some ctx.arglist) l.sock { l with sock := after, calls }
        if after.errno = .enotconn then (throwAway fd bytes l, -2)
        else if ret = 2 then (throwAway fd bytes { l with sock := { after with errno := .enotconn } }, -2)
        else readBytes fd bytes l
      else (throwAway fd (b :: bytes) { l with sock := s }, -1)

inductive ReadRet where
  | failed (errno : Errno)
  -- no bytes, from a descriptor that may be in nonblocking mode
  | nothing (nonblocking : Bool)
  | bytes (buf : CString)

def readzeroThrottleMax : Nat := 5

def sockRead (fd : Nat) (read : ReadRet) (l : Loop) : Loop × Int :=
  let closed : Loop × Int := ({ l with sock := { l.sock.sockDisconnect fd with errno := .enotconn } }, -2)
  match l.sock.conn? fd with
  | none => (l, -2)
  | some conn =>
    if conn.closing then ({ l with sock := { l.sock with errno := .enotconn } }, -2)
    else match read with
    | .failed errno =>
      if errno = .eintr ∨ errno = .eagain then ({ l with sock := { l.sock with errno } }, -1) else closed
    | .nothing nonblocking =>
      if nonblocking ∨ conn.readzero + 1 > readzeroThrottleMax then closed
      else
        ({ l with sock := l.sock.updateConn fd fun conn => { conn with readzero := conn.readzero + 1 } }, 1)
    | .bytes buf =>
      readBytes world fd (buf.take smallbuf)
        { l with sock := l.sock.updateConn fd fun conn => { conn with readzero := 0 } }

def sockConnect (fd : Nat) (s : Sock) : Sock :=
  if (s.conn? fd).isSome then s
  else
    { s with
      connhead := { fd, ctx := pconfInit, nobroadcast := false, readzero := 0, closing := false } :: s.connhead }

-- What `select` finds: a new connection, and those that have something to read.
structure Poll where
  accept : Option Nat
  ready : Nat -> Option ReadRet

def dstatePollFds (poll : Poll) (l : Loop) : Loop :=
  let fds := l.sock.connhead.map Conn.fd
  let s := match poll.accept with
    | some fd => l.sock.sockConnect fd
    | none => l.sock
  let context := match poll.accept with
    | some fd => if (l.sock.conn? fd).isSome then l.context else Function.update l.context fd pconfInit
    | none => l.context
  let l := fds.foldl (fun l fd =>
    match poll.ready fd with
    | some read =>
      let after := (sockRead world fd read l).1
      if (l.sock.conn? fd).isSome then { after with sock := goesOn (l.sock.next? fd) after.sock } else after
    | none => l) { l with sock := s, context }
  { l with sock := l.sock.reap }

-- Between two polls a driver changes what it publishes, and other code of it changes `errno`.
inductive DriverEvent where
  | op (op : DstateOp)
  | errno (errno : Errno)
  | poll (poll : Poll)

def driverStep (l : Loop) : DriverEvent -> Loop
  | .op op => { l with sock := applyOp world l.sock op }
  | .errno errno => { l with sock := { l.sock with errno } }
  | .poll poll => dstatePollFds world poll l

def driverStart (doSynchronous : Int) : Loop :=
  { sock := { dstate := .empty, connhead := [], errno := .ok, doSynchronous, writes := 0, written := [], dangling := false }
    calls := [], context := fun _ => pconfInit, heard := [] }

def driverRun (doSynchronous : Int) (events : List DriverEvent) : Loop :=
  events.foldl (driverStep world) (driverStart doSynchronous)

end Sock

end Nut
