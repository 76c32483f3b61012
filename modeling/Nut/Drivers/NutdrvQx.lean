import Nut.Common.CString

set_option autoImplicit false

namespace Nut

inductive UsbError where
  | io
  | invalidParam
  | access
  | noDevice
  | notFound
  | busy
  | timeout
  | overflow
  | pipe
  | interrupted
  | noMem
  | notSupported
  | other
  deriving DecidableEq, Repr

def UsbError.code : UsbError -> Int
  | io => -1
  | invalidParam => -2
  | access => -3
  | noDevice => -4
  | notFound => -5
  | busy => -6
  | timeout => -7
  | overflow => -8
  | pipe => -9
  | interrupted => -10
  | noMem => -11
  | notSupported => -12
  | other => -99

def qxUsbErrorDesync : Int := -1000

def qxUsbOverflowResetTries : Nat := 3
def qxUsbDesyncResetTries : Nat := 3

def reconnectCountMax : Nat := 2147483647

def cypressFlushReports : Nat := 32
def cypressFlushBudget : Int := 3000
def cypressFlushTimeout : Nat := 25
def cypressResyncQuiet : Nat := 500

abbrev UsbReport := List UInt8

structure Bridge where
  queue : List UsbReport
  coming : List UsbReport
  deriving DecidableEq

inductive BridgeMove where
  | arrive
  -- the oldest report of the queue, or of those under way, gets lost
  | drop
  | lose
  | unasked (report : UsbReport)
  deriving DecidableEq

namespace Bridge

def move (b : Bridge) : BridgeMove -> Bridge
  | .arrive => match b.coming with
    | [] => b
    | report :: coming => { queue := b.queue ++ [report], coming := coming }
  | .drop => { b with queue := b.queue.tail }
  | .lose => { b with coming := b.coming.tail }
  | .unasked report => { b with coming := b.coming ++ [report] }

def moves (b : Bridge) (moves : List BridgeMove) : Bridge :=
  moves.foldl move b

end Bridge

def reportsOf : CString -> List UsbReport
  | [] => []
  | a :: b :: c :: d :: e :: f :: g :: h :: rest => [a, b, c, d, e, f, g, h] :: reportsOf rest
  | last => [last ++ List.replicate (8 - last.length) 0]

-- What happens up to the end of a read, and how it fails if it does; `elapsed` is the time since the drain began.
structure ReadChoice where
  moves : List BridgeMove
  fault : Option UsbError
  elapsed : Int

structure WriteChoice where
  moves : List BridgeMove
  ret : Except UsbError Nat

def usbInterruptRead (b : Bridge) (choice : ReadChoice) : Bridge × Except UsbError UsbReport :=
  let b := b.moves choice.moves
  match choice.fault with
  | some error => (b, .error error)
  | none => match b.queue with
    | [] => (b, .error .timeout)
    | report :: queue => ({ b with queue := queue }, .ok report)

inductive DrainEnd where
  | idle
  | stop (ret : Int)
  deriving DecidableEq

def drainLoop (outstanding : Bool) (choice : Nat -> Nat -> ReadChoice) (left i : Nat) (b : Bridge) : Bridge × DrainEnd :=
  let read := choice i (if outstanding || decide (i > 0) then cypressResyncQuiet else cypressFlushTimeout)
  match usbInterruptRead b read with
  | (b, .error .timeout) => (b, .idle)
  | (b, .error error) => (b, .stop error.code)
  | (b, .ok _) =>
    match left with
    | 0 => (b, .stop qxUsbErrorDesync)
    | left + 1 =>
      if read.elapsed > cypressFlushBudget then (b, .stop qxUsbErrorDesync)
      else drainLoop outstanding choice left (i + 1) b

-- The rest of the command from byte `i` on, with the number of writes; nothing is returned where it was sent.
def sendLoop (choice : Nat -> WriteChoice) (tmplen : Nat) : (fuel i wrote : Nat) -> Bridge -> Bridge × Nat × Option Int
  | 0, _, wrote, b => (b, wrote, none)
  | fuel + 1, i, wrote, b =>
    if i < tmplen then
      let b := b.moves (choice wrote).moves
      match (choice wrote).ret with
      | .error error => (b, wrote + 1, some error.code)
      | .ok 0 => (b, wrote + 1, some 0)
      | .ok (n + 1) => sendLoop choice tmplen fuel (i + (n + 1)) (wrote + 1) b
    else (b, wrote, none)

-- Room for a report is left, and there was no CR.
def replyLoop (choice : Nat -> ReadChoice) (buflen : Nat) : (fuel k : Nat) -> CString -> Bridge ->
    Bridge × CString × Option Int
  | 0, _, buf, b => (b, buf, none)
  | fuel + 1, k, buf, b =>
    if buf.length + 8 ≤ buflen ∧ 13 ∉ buf then
      match usbInterruptRead b (choice k) with
      | (b, .error error) => (b, buf, some error.code)
      | (b, .ok []) => (b, buf, some 0)
      | (b, .ok report) => replyLoop choice buflen fuel (k + 1) (buf ++ report) b
    else (b, buf, none)

structure QxUsb where
  -- `udev != NULL`
  opened : Bool
  cypressReplyOutstanding : Bool
  overflowTries : Nat
  desyncResets : Nat
  reconnectMaxTries : Int32
  reconnectCount : Nat
  -- the driver ends when the poll that it is in is over
  exitFlag : Bool
  exited : Bool
  bridge : Bridge
  deriving DecidableEq

structure QxCall where
  cmdlen : Nat
  buflen : Nat
  -- before the call, and at a reset or a new connection
  idle : List BridgeMove
  renewed : List BridgeMove
  -- `open_dev` ends the driver where it cannot claim the device
  openDev : Option Int
  haltCleared : Bool
  drain : Nat -> Nat -> ReadChoice
  write : Nat -> WriteChoice
  -- The reply that the UPS makes to the command, up to its CR.
  reply : { text : CString // 13 ∉ text }
  read : Nat -> ReadChoice

structure CypressResult where
  ret : Int
  buf : CString
  wrote : Nat
  deriving DecidableEq

namespace QxUsb

def drained (s : QxUsb) (call : QxCall) : Bridge × DrainEnd :=
  drainLoop s.cypressReplyOutstanding call.drain cypressFlushReports 0 s.bridge

def cypressCommand (s : QxUsb) (call : QxCall) : QxUsb × CypressResult :=
  match s.drained call with
  | (b, .stop ret) => ({ s with bridge := b }, { ret := ret, buf := [], wrote := 0 })
  | (b, .idle) =>
    let tmplen := min call.cmdlen smallbuf
    match sendLoop call.write tmplen tmplen 0 0 b with
    | (b, wrote, some ret) =>
      ({ s with cypressReplyOutstanding := true, bridge := b }, { ret := ret, buf := [], wrote := wrote })
    | (b, wrote, none) =>
      let b := { b with coming := b.coming ++ reportsOf (call.reply.val ++ [13]) }
      match replyLoop call.read call.buflen call.buflen 0 [] b with
      | (b, buf, some ret) =>
        ({ s with cypressReplyOutstanding := true, bridge := b }, { ret := ret, buf := buf, wrote := wrote })
      | (b, buf, none) =>
        ({ s with cypressReplyOutstanding := decide (13 ∉ buf), bridge := b },
          { ret := buf.length, buf := buf, wrote := wrote })

def reconnect (s : QxUsb) : QxUsb :=
  { s with opened := false }

-- `usb_reset` and then a new connection.
def reset (s : QxUsb) (call : QxCall) : QxUsb :=
  { s with bridge := s.bridge.moves call.renewed }.reconnect

def handleError (s : QxUsb) (call : QxCall) (ret : Int) : QxUsb :=
  if ret = UsbError.busy.code then { s with exited := true }
  else if ret = UsbError.pipe.code then if call.haltCleared then s else s.reset call
  else if ret = UsbError.noDevice.code ∨ ret = UsbError.access.code ∨ ret = UsbError.io.code ∨
      ret = UsbError.notFound.code then s.reconnect
  else if ret = UsbError.overflow.code then
    if s.overflowTries + 1 < qxUsbOverflowResetTries then { s with overflowTries := s.overflowTries + 1 }
    else { s with overflowTries := 0 }.reset call
  else if ret = qxUsbErrorDesync then
    if s.desyncResets + 1 > qxUsbDesyncResetTries then { s with desyncResets := s.desyncResets + 1, exited := true }
    else { s with desyncResets := s.desyncResets + 1 }.reset call
  else s

def countResult (s : QxUsb) (call : QxCall) (ret : Int) : QxUsb :=
  if 0 ≤ ret then { s with overflowTries := 0, desyncResets := 0 } else s.handleError call ret

def commandOpened (s : QxUsb) (call : QxCall) : QxUsb × CypressResult :=
  ((s.cypressCommand call).1.countResult call (s.cypressCommand call).2.ret, (s.cypressCommand call).2)

def waited (s : QxUsb) (call : QxCall) : QxUsb :=
  { s with bridge := s.bridge.moves call.idle }

def reconnectTrying (s : QxUsb) : QxUsb :=
  if s.reconnectMaxTries = 0 then { s with exitFlag := true }
  else if s.reconnectCount < reconnectCountMax then
    if 0 < s.reconnectMaxTries ∧ s.reconnectMaxTries.toInt < s.reconnectCount + 1 then
      { s with reconnectCount := s.reconnectCount + 1, exitFlag := true }
    else { s with reconnectCount := s.reconnectCount + 1 }
  else if 0 < s.reconnectMaxTries then { s with exitFlag := true }
  else s

-- reconnect_trying(RECONNECT_SUCCESS), unless the device was just closed for another reconnection
def reconnectSuccess (reconnecting : Bool) (s : QxUsb) : QxUsb :=
  if reconnecting && s.opened then { s with reconnectCount := 0 } else s

def connect (s : QxUsb) (call : QxCall) : QxUsb × Bool :=
  if s.opened then (s, true)
  else
    match call.openDev with
    | none => ({ s.reconnectTrying with exited := true }, false)
    | some ret =>
      if ret < 1 then (s.reconnectTrying, false)
      else ({ s.reconnectTrying with opened := true, bridge := s.bridge.moves call.renewed }, true)

def qxCommand (s : QxUsb) (call : QxCall) : QxUsb × Option CypressResult :=
  match (s.waited call).connect call with
  | (at_, false) => (at_, none)
  | (at_, true) => ((at_.commandOpened call).1.reconnectSuccess (!s.opened), some (at_.commandOpened call).2)

-- The bridge may hold anything when the driver is started.
def start (bridge : Bridge) (reconnectMaxTries : Int32) : QxUsb :=
  { opened := true, cypressReplyOutstanding := false, overflowTries := 0, desyncResets := 0
    reconnectMaxTries := reconnectMaxTries, reconnectCount := 0, exitFlag := false, exited := false, bridge := bridge }

end QxUsb

end Nut
