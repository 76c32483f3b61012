import Nut.Common.CString

set_option autoImplicit false

namespace Nut

inductive PconfState where
  | findwordstart
  | findeol
  | quotecollect
  | qcLiteral
  | collect
  | collectliteral
  | endofline
  | parseerr
  deriving DecidableEq, Repr

-- `PCONF_CTX_t`: `numargs` is the length of `arglist`, `ch` is passed to the functions below.
structure PconfCtx where
  state : PconfState
  arglist : List CString
  wordbuf : CString
  argLimit : Nat
  wordlenLimit : Nat
  deriving DecidableEq, Repr

def pconfDefaultArgLimit : Nat := 32
def pconfDefaultWordlenLimit : Nat := 512

def pconfInitWith (argLimit wordlenLimit : Nat) : PconfCtx :=
  { state := .findwordstart, arglist := [], wordbuf := [], argLimit, wordlenLimit }

def pconfInit : PconfCtx :=
  pconfInitWith pconfDefaultArgLimit pconfDefaultWordlenLimit

def addchar (ctx : PconfCtx) (ch : Int) : PconfCtx :=
  -- CVE-2012-2944: only space to DEL gets in.
  if ch < 0x20 ∨ ch > 0x7f then ctx
  else if ctx.wordlenLimit ≠ 0 ∧ ctx.wordbuf.length ≥ ctx.wordlenLimit then ctx
  else { ctx with wordbuf := ctx.wordbuf ++ [UInt8.ofNat ch.toNat] }

def endofword (ctx : PconfCtx) : PconfCtx :=
  if ctx.argLimit ≠ 0 ∧ ctx.arglist.length ≥ ctx.argLimit then { ctx with wordbuf := [] }
  else { ctx with arglist := ctx.arglist ++ [ctx.wordbuf], wordbuf := [] }

def findwordstart (ctx : PconfCtx) (ch : Int) : PconfCtx × PconfState :=
  if ch = 10 then (ctx, .endofline)
  else if ch = 35 then (ctx, .findeol)             -- #
  else if isspace ch then (ctx, .findwordstart)
  else if ch = 92 then (ctx, .collectliteral)      -- backslash
  else if ch = 34 then (ctx, .quotecollect)        -- "
  else if ch = 61 then (endofword (addchar ctx ch), .findwordstart)  -- =
  else (addchar ctx ch, .collect)

def findeol (ctx : PconfCtx) (ch : Int) : PconfCtx × PconfState :=
  if ch = 10 then (ctx, .endofline) else (ctx, .findeol)

def quotecollect (ctx : PconfCtx) (ch : Int) : PconfCtx × PconfState :=
  if ch = 34 then (endofword ctx, .findwordstart)
  else if ch = 92 then (ctx, .qcLiteral)
  else (addchar ctx ch, .quotecollect)

def qcLiteral (ctx : PconfCtx) (ch : Int) : PconfCtx × PconfState :=
  if ch = 10 then (ctx, .quotecollect) else (addchar ctx ch, .quotecollect)

def collect (ctx : PconfCtx) (ch : Int) : PconfCtx × PconfState :=
  if ch = 35 then (endofword ctx, .findeol)
  else if ch = 10 then (endofword ctx, .endofline)
  else if isspace ch then (endofword ctx, .findwordstart)
  else if ch = 61 then ((findwordstart (endofword ctx) ch).1, .findwordstart)
  else if ch = 92 then (ctx, .collectliteral)
  else (addchar ctx ch, .collect)

def collectliteral (ctx : PconfCtx) (ch : Int) : PconfCtx × PconfState :=
  if ch = 10 then (ctx, .collect) else (addchar ctx ch, .collect)

def enter (next : PconfCtx × PconfState) : PconfCtx :=
  { next.1 with state := next.2 }

def parseChar (ctx : PconfCtx) (ch : Int) : PconfCtx :=
  match ctx.state with
  | .findwordstart => enter (findwordstart ctx ch)
  | .findeol => enter (findeol ctx ch)
  | .quotecollect => enter (quotecollect ctx ch)
  | .qcLiteral => enter (qcLiteral ctx ch)
  | .collect => enter (collect ctx ch)
  | .collectliteral => enter (collectliteral ctx ch)
  | .endofline | .parseerr => ctx

def startLine (ctx : PconfCtx) : PconfCtx :=
  { ctx with arglist := [], state := .findwordstart }

def lineDone (ctx : PconfCtx) : Bool :=
  ctx.state == .endofline || ctx.state == .parseerr

def parseUntilDone (toInt : UInt8 -> Int) (ctx : PconfCtx) : CString -> PconfCtx × Option CString
  | [] => (ctx, none)
  | b :: rest =>
    let next := parseChar ctx (toInt b)
    if lineDone next then (next, some rest) else parseUntilDone toInt next rest

def fgetcToInt (b : UInt8) : Int := b.toNat

def pconfFileNext (ctx : PconfCtx) (file : CString) : PconfCtx × CString × Int :=
  match parseUntilDone fgetcToInt (startLine ctx) file with
  | (ctx, some rest) => (ctx, rest, 1)
  | (ctx, none) =>
    -- deal with files that don't end in a newline
    if ctx.arglist ≠ [] then
      (if ctx.wordbuf ≠ [] then endofword ctx else ctx, [], 1)
    else (ctx, [], 0)

-- The line is as long as `strlen` says.
def pconfLine (ctx : PconfCtx) (line : CString) : PconfCtx :=
  match parseUntilDone charToInt (startLine ctx) (line.takeWhile (· ≠ 0)) with
  | (ctx, some _) => ctx
  | (ctx, none) => if ctx.wordbuf ≠ [] then endofword ctx else ctx

theorem pconfLine_text (ctx : PconfCtx) {line : CString} (noNul : 0 ∉ line) : pconfLine ctx line =
      match parseUntilDone charToInt (startLine ctx) line with
      | (ctx, some _) => ctx
      | (ctx, none) => if ctx.wordbuf ≠ [] then endofword ctx else ctx := by
  rw [pconfLine, takeWhile_text noNul]

def pconfChar (ctx : PconfCtx) (ch : UInt8) : PconfCtx × Int :=
  let ctx := if lineDone ctx then startLine ctx else ctx
  let ctx := parseChar ctx (charToInt ch)
  (ctx, if ctx.state = .endofline then 1 else if ctx.state = .parseerr then -1 else 0)

-- PCONF_ESCAPE
def pconfEscape (b : UInt8) : Bool :=
  b == 35 || b == 92 || b == 34

def sizeMax : Nat := 2 ^ 64 - 1

-- `size_t` subtraction: `maxlen - 1` wraps when `maxlen` is 0.
def sizePred (n : Nat) : Nat :=
  if n = 0 then sizeMax else n - 1

def pconfEncodeLoop (maxlen : Nat) : CString -> CString -> CString
  | [], dest => dest
  | b :: src, dest =>
    if pconfEscape b then
      if dest.length ≥ sizePred maxlen then dest
      else if dest.length + 1 ≥ maxlen then dest ++ [92]
      else pconfEncodeLoop maxlen src (dest ++ [92, b])
    else if dest.length ≥ maxlen then dest
    else pconfEncodeLoop maxlen src (dest ++ [b])

-- The text left in `dest`; `old` is what it held before, which only `destsize = 0` leaves there.
def pconfEncode (src old : CString) (destsize : Nat) : CString :=
  if destsize < 1 then old else pconfEncodeLoop (destsize - 1) src []

end Nut
