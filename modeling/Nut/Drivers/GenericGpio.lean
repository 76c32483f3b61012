import Nut.Common.CString
import Nut.Library.Checked

set_option autoImplicit false

namespace Nut.Gpio

def cmdNot : Int := -2
def cmdAnd : Int := -3
def cmdOr : Int := -4
def cmdLast : Int := -6

structure RuleInt where
  stateName : CString
  cRules : List Int
  deriving DecidableEq

structure Gpioups where
  upsLines : List Int
  upsMaxLine : Int
  rules : List RuleInt
  deriving DecidableEq

inductive Failure where
  -- `fatalx`
  | ruleError (position : Nat)
  | memory (fault : Fault)
  deriving DecidableEq

def stateNameSize : Nat := 12
def lexBuffSize : Nat := 33

inductive LexType where
  | word
  | number
  | equals
  | negation
  | and
  | or
  | semicolon
  deriving DecidableEq

def lexType (b : UInt8) : Option LexType :=
  if 65 ≤ b && b ≤ 90 || 97 ≤ b && b ≤ 122 then some .word
  else if isdigit b then some .number
  else if b = 61 then some .equals
  else if b = 94 then some .negation
  else if b = 38 then some .and
  else if b = 124 then some .or
  else if b = 59 then some .semicolon
  else none

-- The lexeme that the text begins with and what is left behind it; `none` for the end and for any other byte.
def getRuleLex : CString -> Option (LexType × CString × CString)
  | [] => none
  | b :: rest =>
    match lexType b with
    | none => none
    | some type =>
      if type = .word ∨ type = .number then
        some (type, b :: rest.takeWhile (lexType · = some type), rest.dropWhile (lexType · = some type))
      else some (type, [b], rest)

theorem getRuleLex_text {text lex rest : CString} {type : LexType} (found : getRuleLex text = some (type, lex, rest)) :
    text = lex ++ rest ∧ lex ≠ [] := by
  cases text with
  | nil => cases found
  | cons b text =>
    cases isType : lexType b with
    | none => simp [getRuleLex, isType] at found
    | some own =>
      simp only [getRuleLex, isType] at found
      by_cases long : own = .word ∨ own = .number
      · rw [if_pos long] at found
        cases found
        simp
      · rw [if_neg long] at found
        cases found
        simp

inductive LexStatus where
  | name
  | equals
  | term
  | line
  | more
  deriving DecidableEq

def addRuleItem (newValue : Int) (rules : List RuleInt) : List RuleInt :=
  rules.modifyLast fun rule => { rule with cRules := rule.cRules ++ [newValue] }

def lexStep (type : LexType) (startPos : Nat) (lex text : CString) (rules : List RuleInt) :
    LexStatus -> Except Failure (LexStatus × List RuleInt)
  | .name =>
    if type = .word then
      if stateNameSize < lex.length + 1 then .error (.memory .outOfBounds)
      else .ok (.equals, rules ++ [{ stateName := lex, cRules := [] }])
    else .error (.ruleError startPos)
  | .equals => if type = .equals then .ok (.term, rules) else .error (.ruleError startPos)
  | .term =>
    if type = .negation then .ok (.line, addRuleItem cmdNot rules)
    else if type = .number then .ok (.more, addRuleItem (atoi text).toInt rules)
    else .error (.ruleError startPos)
  | .line =>
    if type = .number then .ok (.more, addRuleItem (atoi text).toInt rules) else .error (.ruleError startPos)
  | .more =>
    if type = .and then .ok (.term, addRuleItem cmdAnd rules)
    else if type = .or then .ok (.term, addRuleItem cmdOr rules)
    else if type = .semicolon then .ok (.name, rules)
    else .error (.ruleError startPos)

-- Each lexeme is copied to `lexBuff` first.
def rulesLoop (text : CString) (startPos : Nat) (status : LexStatus) (rules : List RuleInt) :
    Except Failure (List RuleInt) :=
  match _found : getRuleLex text with
  | none => if status = .name then .ok rules else .error (.ruleError startPos)
  | some (type, lex, rest) =>
    if lexBuffSize < lex.length then .error (.memory .outOfBounds)
    else
      match lexStep type startPos lex text rules status with
      | .error failure => .error failure
      | .ok next => rulesLoop rest (startPos + lex.length) next.1 next.2
termination_by text.length
decreasing_by
  have shorter := getRuleLex_text _found
  have nonempty := List.length_pos_iff.mpr shorter.2
  simp only [shorter.1, List.length_append]
  omega

def collectLine (lines : List Int × Int) (item : Int) : List Int × Int :=
  if item ∈ lines.1 then lines
  else if item ≥ 0 then (lines.1 ++ [item], if item > lines.2 then item else lines.2)
  else lines

def mapItems (change : Int -> Int) (rules : List RuleInt) : List RuleInt :=
  rules.map fun rule => { rule with cRules := rule.cRules.map change }

def transformLines (upsLines : List Int) (delta : Int) (rules : List RuleInt) : List RuleInt :=
  upsLines.zipIdx.foldl (fun rules entry => mapItems (fun item => if item + delta = entry.1 then entry.2 else item) rules)
    (mapItems (fun item => if item ≥ 0 then item - delta else item) rules)

def getUpsRules (rulesString : CString) : Except Failure Gpioups :=
  match rulesLoop rulesString 0 .name [] with
  | .error failure => .error failure
  | .ok rules =>
    let lines := (rules.flatMap RuleInt.cRules).foldl collectLine ([], 0)
    .ok { upsLines := lines.1, upsMaxLine := lines.2, rules := transformLines lines.1 (lines.2 - cmdLast + 1) rules }

def truth (holds : Bool) : Int :=
  if holds then 1 else 0

def lineState (states : List Int) (item : Int) : Checked Int :=
  if item < 0 then .error .outOfBounds else readAt states item.toNat

mutual

def calcRuleStates (states cRules : List Int) (subCount sIndex : Nat) : Checked Int :=
  -- left side
  if sIndex < subCount then do
    let item <- readAt cRules sIndex
    if item ≥ 0 then
      let value <- lineState states item
      calcRight states cRules subCount (sIndex + 1) value
    else
      let line <- readAt cRules (sIndex + 1)
      let value <- lineState states line
      calcRight states cRules subCount (sIndex + 2) (truth (value = 0))
  else calcRight states cRules subCount sIndex 0
termination_by 2 * (subCount - sIndex) + 1

def calcRight (states cRules : List Int) (subCount iopStart : Nat) (ruleVal : Int) : Checked Int :=
  if iopStart < subCount then do
    let command <- readAt cRules iopStart
    if command = cmdOr then
      if ruleVal ≠ 0 then return 1
      else
        let value <- calcRuleStates states cRules subCount (iopStart + 1)
        return truth (value ≠ 0)
    else
      let item <- readAt cRules (iopStart + 1)
      if item = cmdNot then
        let line <- readAt cRules (iopStart + 2)
        let value <- lineState states line
        calcRight states cRules subCount (iopStart + 3) (truth (ruleVal ≠ 0 ∧ value = 0))
      else
        let value <- lineState states item
        calcRight states cRules subCount (iopStart + 2) (truth (ruleVal ≠ 0 ∧ value ≠ 0))
  else .ok ruleVal
termination_by 2 * (subCount - iopStart)

end

end Nut.Gpio
