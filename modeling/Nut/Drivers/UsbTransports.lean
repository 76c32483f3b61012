import Nut.Common.TokenAdding
import Nut.Drivers.NutdrvQx

set_option autoImplicit false

namespace Nut

abbrev UsbTransfer : Type :=
  Except UsbError CString

def transferRet (size : Nat) : UsbTransfer -> Int
  | .ok bytes => (bytes.take size).length
  | .error error => error.code

def transferBytes (size : Nat) : UsbTransfer -> CString
  | .ok bytes => bytes.take size
  | .error _ => []

structure BufWrite where
  room : Nat
  start : Nat
  count : Nat
  deriving DecidableEq

structure UsbRun where
  buf : CString
  writes : List BufWrite
  -- what was added to the write position in `buf`
  moves : List Int
  -- the bytes of the reply in the order they were stored
  stored : CString
  -- none while transfers are to come
  ret : Option Int

namespace UsbRun

def start : UsbRun :=
  { buf := [], writes := [], moves := [], stored := [], ret := none }

def write (room start count : Nat) (r : UsbRun) : UsbRun :=
  { r with writes := r.writes ++ [⟨room, start, count⟩] }

def fill (room : Nat) (r : UsbRun) : UsbRun :=
  r.write room 0 room

def clear (buflen : Nat) (r : UsbRun) : UsbRun :=
  { r.fill buflen with buf := List.replicate buflen 0 }

def put (buflen i : Nat) (bytes : CString) (r : UsbRun) : UsbRun :=
  { r.write buflen i bytes.length with buf := r.buf.take i ++ bytes ++ r.buf.drop (i + bytes.length) }

def store (buflen i : Nat) (bytes : CString) (r : UsbRun) : UsbRun :=
  { r.put buflen i bytes with stored := r.stored ++ bytes }

def move (ret : Int) (r : UsbRun) : UsbRun :=
  { r with moves := r.moves ++ [ret] }

def returns (ret : Int) (r : UsbRun) : UsbRun :=
  { r with ret := some ret }

end UsbRun

namespace Transport

-- What a command starts with; a `buflen` below 8 is not looked at.
def capped (buflen : Nat) : Nat :=
  if buflen > intMax then intMax - 1 else buflen

def lastRet (i : Nat) : Int :=
  if i > intMax then -1 else i

abbrev Going (α : Type) : Type :=
  Except UsbRun α

def finish : Going UsbRun -> UsbRun
  | .ok r => r
  | .error r => r

-- `tmp` is sent in chunks of 8 bytes.
def sendChunks (tmplen : Nat) (r : UsbRun) : Nat -> List UsbTransfer -> Going UsbRun
  | i, [] => if tmplen ≤ i then .ok r else .error r
  | i, t :: writes =>
    if tmplen ≤ i then .ok r
    else if transferRet 8 t ≤ 0 then .error (r.returns (transferRet 8 t))
    else sendChunks tmplen r (i + (transferRet 8 t).toNat) writes

def readChunks (buflen : Nat) : Nat -> UsbRun -> List UsbTransfer -> Going (Nat × UsbRun)
  | i, r, [] => if i ≤ buflen - 8 ∧ 13 ∉ r.buf then .error r else .ok (i, r)
  | i, r, t :: reads =>
    if i ≤ buflen - 8 ∧ 13 ∉ r.buf then
      let r := r.write buflen i 8
      if transferRet 8 t ≤ 0 then .error (r.returns (transferRet 8 t))
      else
        let r := (r.store buflen i (transferBytes 8 t)).fill smallbuf
        readChunks buflen (i + (transferRet 8 t).toNat) (r.move (transferRet 8 t)) reads
    else .ok (i, r)

section Cypress

variable (late : Nat -> Bool)

def drain : (left i : Nat) -> UsbRun -> List UsbTransfer -> Going (UsbRun × List UsbTransfer)
  | 0, _, r, reads => .ok (r, reads)
  | _ + 1, _, r, [] => .error r
  | left + 1, i, r, t :: reads =>
    let r := r.write smallbuf 0 8
    if t = .error .timeout then .ok (r, reads)
    else if transferRet 8 t < 0 then .error (r.returns (transferRet 8 t))
    else if i = cypressFlushReports ∨ late i then .error (r.returns qxUsbErrorDesync)
    else drain left (i + 1) r reads

-- `late` tells when the budget for the draining is used up.
def cypressIdle (quirk : Bool) (reads : List UsbTransfer) : Going (UsbRun × List UsbTransfer) :=
  if quirk then drain late (cypressFlushReports + 1) 0 .start reads else .ok (.start, reads)

def cypressCommand (quirk : Bool) (cmd : CString) (buflen : Nat) (writes reads : List UsbTransfer) : UsbRun :=
  finish do
    let buflen := capped buflen
    let idle <- cypressIdle late quirk reads
    let tmplen := min cmd.length smallbuf
    let r <- sendChunks tmplen ((idle.1.fill smallbuf).write smallbuf 0 tmplen) 0 writes
    let got <- readChunks buflen 0 (r.clear buflen) idle.2
    .ok (got.2.returns (lastRet got.1))

end Cypress

def addCr (buflen i : Nat) (r : UsbRun) : Nat × UsbRun :=
  if i ≠ 0 ∧ 13 ∉ r.buf.take i ∧ i < buflen - 1 then
    (i + 1, ((r.store buflen i [13]).move 1).put buflen (i + 1) [0])
  else (i, r)

section Sgs

def sgsSend (cmdlen : Nat) : Nat -> UsbRun -> List UsbTransfer -> Going UsbRun
  | i, r, [] => if cmdlen ≤ i then .ok r else .error r
  | i, r, t :: writes =>
    if cmdlen ≤ i then .ok r
    else
      let ret := if cmdlen - i < 7 then cmdlen - i else 7
      let r := ((r.fill smallbuf).write smallbuf 0 1).write smallbuf 1 ret
      if transferRet 8 t ≤ 0 then .error (r.returns (transferRet 8 t))
      else sgsSend cmdlen (i + ((transferRet 8 t).toNat - 1)) r writes

def sgsLength (tmp : CString) : Int :=
  if charToInt (tmp.headD 0) ≤ 7 then charToInt (tmp.headD 0) else 7

def sizeMove (i : Nat) (ret : Int) : Nat :=
  ((i + ret) % 2 ^ 64).toNat

def sgsRead (buflen : Nat) : Nat -> UsbRun -> List UsbTransfer -> Going (Nat × UsbRun)
  | i, r, [] => if i ≤ buflen - 8 then .error r else .ok (i, r)
  | i, r, t :: reads =>
    if i ≤ buflen - 8 then
      let r := (r.fill smallbuf).write smallbuf 0 8
      if t = .error .timeout then .ok (i, r)
      else if transferRet 8 t ≤ 0 then .error (r.returns (transferRet 8 t))
      else
        let tmp := transferBytes 8 t ++ List.replicate 8 0
        let ret := sgsLength tmp
        let r := if ret > 0 then r.store buflen i (tmp.tail.take ret.toNat) else r
        sgsRead buflen (sizeMove i ret) ((r.fill smallbuf).move ret) reads
    else .ok (i, r)

def sgsCommand (cmd : CString) (buflen : Nat) (writes reads : List UsbTransfer) : UsbRun :=
  finish do
    let buflen := capped buflen
    let r <- sgsSend cmd.length 0 .start writes
    let got <- sgsRead buflen 0 (r.clear buflen) reads
    let ended := addCr buflen got.1 got.2
    .ok (ended.2.returns (lastRet ended.1))

end Sgs

section Phoenix

def flush : Nat -> UsbRun -> List UsbTransfer -> Going (UsbRun × List UsbTransfer)
  | 0, r, reads => .ok (r, reads)
  | _ + 1, r, [] => .error r
  | left + 1, r, t :: reads =>
    let r := r.write smallbuf 0 8
    if transferRet 8 t < 0 then .ok (r, reads) else flush left r reads

def phoenixCommand (cmd : CString) (buflen : Nat) (writes reads : List UsbTransfer) : UsbRun :=
  finish do
    let buflen := capped buflen
    let idle <- flush 8 (UsbRun.start.fill smallbuf) reads
    let tmplen := min cmd.length smallbuf
    let r <- sendChunks tmplen ((idle.1.fill smallbuf).write smallbuf 0 tmplen) 0 writes
    let got <- readChunks buflen 0 (r.clear buflen) idle.2
    .ok (got.2.returns (lastRet got.1))

end Phoenix

section Whole

def readWhole (r : UsbRun) : List UsbTransfer -> Going (CString × UsbRun)
  | [] => .error r
  | t :: _ =>
    let r := r.write 64 0 64
    if transferRet 64 t ≤ 0 then .error (r.returns (transferRet 64 t)) else .ok (transferBytes 64 t, r)

def nulLength (received : CString) : Nat :=
  if 0 ∈ received then received.idxOf 0 else received.length

def storeWhole (buflen len : Nat) (received : CString) (r : UsbRun) : UsbRun :=
  let len := if len < buflen then len else buflen - 1
  let ended := addCr buflen len (((r.clear buflen).store buflen 0 (received.take len)).move len)
  ended.2.returns (lastRet ended.1)

def ipponLength (received : CString) : Nat :=
  if 13 ∈ received then received.idxOf 13 + 1 else nulLength received

def ipponCommand (cmd : CString) (buflen : Nat) (writes reads : List UsbTransfer) : UsbRun :=
  finish do
    let buflen := capped buflen
    let tmplen := min cmd.length 64
    let r <- sendChunks tmplen ((UsbRun.start.fill 64).write 64 0 tmplen) 0 writes
    let got <- readWhole r reads
    .ok (storeWhole buflen (ipponLength got.1) got.1 got.2)

def omronReportSize : Nat := 16

def omronSend (tmplen : Nat) (r : UsbRun) : Nat -> List UsbTransfer -> Going UsbRun
  | i, [] => if tmplen ≤ i then .ok r else .error r
  | i, t :: writes =>
    if tmplen ≤ i then .ok r
    else if transferRet omronReportSize t ≤ 0 then .error (r.returns (transferRet omronReportSize t))
    else if transferRet omronReportSize t ≠ omronReportSize then .error (r.returns (-1))
    else omronSend tmplen r (i + omronReportSize) writes

def omronCrLength : CString -> Nat -> Nat
  | [], _ => 0
  | b :: received, i => if b ≠ 13 then omronCrLength received (i + 1) else i + 1

def omronLength (received : CString) : Nat :=
  if omronCrLength received 0 = 0 then nulLength received else omronCrLength received 0

def omronCommand (cmd : CString) (buflen : Nat) (writes reads : List UsbTransfer) : UsbRun :=
  finish do
    let buflen := capped buflen
    let tmplen := min cmd.length 64
    let r <- omronSend tmplen ((UsbRun.start.fill 64).write 64 0 tmplen) 0 writes
    let got <- readWhole r reads
    .ok (storeWhole buflen (omronLength got.1) got.1 got.2)

end Whole

section Fuji

-- Whether `sscanf(cmd, "S%lfR%d\r", ...)` finds both numbers, and the second is not 0.
variable (returnsLater : CString -> Bool)

def cText (cmd : CString) : CString :=
  cmd.takeWhile (· ≠ 0)

def fujiWord (cmd : CString) : CString :=
  let command := snprintf smallbuf ((cText cmd).takeWhile (· ≠ 13))
  if returnsLater cmd then command.take 3 else command

def fujiSend (r : UsbRun) : List UsbTransfer -> Going UsbRun
  | [] => .error r
  | t :: _ => if transferRet 8 t ≤ 0 then .error (r.returns (transferRet 8 t)) else .ok r

def fujiCommand (cmd : CString) (buflen : Nat) (writes reads : List UsbTransfer) : UsbRun :=
  finish do
    let buflen := capped buflen
    let command := fujiWord returnsLater cmd
    let r := (UsbRun.start.fill smallbuf).fill smallbuf
    let r := if returnsLater cmd then r.write smallbuf 3 1 else r
    if command.length > 3 then
      let echo := snprintf buflen (cText cmd)
      .ok ((((r.store buflen 0 echo).move echo.length).write buflen echo.length 1).returns (cText cmd).length)
    else
      let r := (((r.fill 8).write 8 0 4).write 8 4 command.length).write 8 7 1
      let r <- fujiSend r writes
      let got <- readChunks buflen 0 (r.clear buflen) reads
      .ok (got.2.returns ((got.2.buf.take got.1).takeWhile (· ≠ 0)).length)

end Fuji

end Transport

inductive Transport where
  | cypress (quirk : Bool) (late : Nat -> Bool)
  | sgs
  | phoenix
  | ippon
  | omron
  | fuji (returnsLater : CString -> Bool)

namespace Transport

def command : Transport -> CString -> Nat -> List UsbTransfer -> List UsbTransfer -> UsbRun
  | cypress quirk late => cypressCommand late quirk
  | sgs => sgsCommand
  | phoenix => phoenixCommand
  | ippon => ipponCommand
  | omron => omronCommand
  | fuji returnsLater => fujiCommand returnsLater

end Transport

end Nut
