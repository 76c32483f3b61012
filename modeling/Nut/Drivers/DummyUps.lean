import Nut.Common.ParseConfFile
import Nut.Drivers.HeldValues

set_option autoImplicit false

namespace Nut

-- What is used of an entry of `nut_data`.
structure DummyInfo where
  infoType : CString
  infoFlags : BitVec 32
  infoLen : Int64

-- What one call of `parse_data_file` meets.
structure DummyCall where
  now : Int
  -- at a TIMER line
  timerNow : Int
  -- the time as dstate.c takes it, and how the charge has changed at the commits
  clock : Int
  trends : List Trend
  -- what `var_value` holds before anything is written to it, and what lies behind the arguments
  scratch : CString
  beyond : CString

-- The static variables, with what the driver publishes.
structure Dummy where
  -- the parser's context and what is left of the file
  ctx : Option (PconfCtx × CString)
  nextUpdate : Int
  own : Status

def maxStringSize : Nat := 128

namespace Dummy

-- What a line can change.
structure Pass where
  own : Status
  varValue : CString
  nextUpdate : Int
  trends : List Trend
  -- an argument was read that is not there
  outside : Bool

def lineEnds (ctx : PconfCtx) : CString -> List (PconfCtx × CString)
  | [] => if ctx.arglist ≠ [] then [(if ctx.wordbuf ≠ [] then endofword ctx else ctx, [])] else []
  | b :: rest =>
    let next := parseChar ctx (fgetcToInt b)
    if lineDone next then (next, rest) :: lineEnds (startLine next) rest else lineEnds next rest

namespace Pass

def call (p : Pass) (op : StatusOp) : Pass :=
  { p with own := p.own.perform op }

def statusCommit (p : Pass) (clock : Int) : Pass :=
  { p.call (.statusCommit clock (p.trends.headD .unknown)) with trends := p.trends.tail }

end Pass

variable (nutData : List DummyInfo)

def findInfo (varname : CString) : Option DummyInfo :=
  nutData.find? fun item => strcasecmp item.infoType varname = .eq

def hasLead (lead : String) (text : CString) : Bool :=
  (cstr lead).isPrefixOf text

def setvar (clock : Int) (varname val : CString) (p : Pass) : Pass :=
  if hasLead "ups.status" varname then ((p.call .statusInit).call (.statusSet val)).statusCommit clock
  else if val = [] then p.call (.dstate clock (.delinfo varname))
  else
    let p := p.call (.dstate clock (.setinfo varname val))
    match findInfo nutData varname with
    | some item =>
      let p := p.call (.dstate clock (.setflags item.infoType item.infoFlags))
      if item.infoFlags &&& stFlagString ≠ 0 then p.call (.dstate clock (.setaux item.infoType item.infoLen)) else p
    | none =>
      (p.call (.dstate clock (.setflags varname (stFlagString ||| stFlagRw)))).call (.dstate clock (.setaux varname 32))

def joinWords (varValue : CString) : List CString -> CString
  | [] => varValue
  | word :: words =>
    words.foldl (fun value word => snprintfcat value maxStringSize (32 :: word)) (snprintf maxStringSize word)

def isTimer (args : List CString) : Bool :=
  args.head?.any (hasLead "TIMER")

def varName (name : CString) : CString :=
  name.takeWhile (· ≠ 58)

variable (call : DummyCall)

def parseLine (p : Pass) : List CString -> Pass
  | [] => p
  | name :: words =>
    if hasLead "TIMER" name then
      { p with nextUpdate := call.timerNow + (atoi (words.headD call.beyond)).toInt, outside := p.outside || words.isEmpty }
    else if hasLead "ALARM" name then
      if words ≠ [] then
        let p := { p with varValue := joinWords p.varValue words }
        if p.varValue ≠ [] then p.call (.alarmSet p.varValue) else p.call .alarmInit
      else p.call .alarmInit
    else if hasLead "driver." (varName name) then p
    else if hasLead "ups.status" (varName name) then
      (words.foldl (fun p word => p.call (.statusSet word)) (p.call .statusInit)).statusCommit call.clock
    else
      let p := { p with varValue := joinWords p.varValue words }
      setvar nutData call.clock (varName name) p.varValue p

def parseLines : List (PconfCtx × CString) -> Pass -> Pass × Option (PconfCtx × CString)
  | [], p => (p, none)
  | (ctx, rest) :: ends, p =>
    if isTimer ctx.arglist then (parseLine nutData call p ctx.arglist, some (ctx, rest))
    else parseLines ends (parseLine nutData call p ctx.arglist)

variable (file : CString)

def opened (s : Dummy) : PconfCtx × CString :=
  s.ctx.getD (pconfInit, file)

def passStart (s : Dummy) : Pass :=
  { own := if s.ctx.isNone then s.own.statusInit.alarmInit else s.own
    varValue := call.scratch, nextUpdate := -1, trends := call.trends, outside := false }

def remaining (s : Dummy) : List (PconfCtx × CString) :=
  lineEnds (startLine (s.opened file).1) (s.opened file).2

def parseDataFile (s : Dummy) : Dummy :=
  if call.now < s.nextUpdate then s
  else match parseLines nutData call (s.remaining file) (s.passStart call) with
  | (p, left) =>
    let p := (p.call (.alarmCommit call.clock)).statusCommit call.clock
    { ctx := if p.nextUpdate = -1 then none else left, nextUpdate := p.nextUpdate, own := p.own }

end Dummy

end Nut
