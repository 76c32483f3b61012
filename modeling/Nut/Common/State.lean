import Nut.Common.ParseConf
import Nut.Library.SearchTree

set_option autoImplicit false

namespace Nut

def stMaxValueLen : Nat := 256

def stFlagRw : BitVec 32 := 1
def stFlagString : BitVec 32 := 2
def stFlagNumber : BitVec 32 := 4
def stFlagImmutable : BitVec 32 := 8

def valEscape (raw : CString) : CString :=
  let etmp := pconfEncode raw [] stMaxValueLen
  if raw = etmp then raw else etmp

-- `st_tree_t` without its links. Times are in nanoseconds.
structure StNode where
  var : CString
  raw : CString
  val : CString
  escaped : val = valEscape raw
  flags : BitVec 32
  aux : Int64
  lastset : Int
  enumList : List CString
  rangeList : List (Int32 × Int32)
  deriving DecidableEq

abbrev StTree := SearchTree StNode

def StNode.immutable (node : StNode) : Bool :=
  node.flags &&& stFlagImmutable ≠ 0

def StNode.refreshTimestamp (node : StNode) (now : Int) : StNode :=
  { node with lastset := now }

def StNode.setRaw (node : StNode) (raw : CString) : StNode :=
  { node with raw := raw, val := valEscape raw, escaped := rfl }

def StNode.fresh (now : Int) (var val : CString) : StNode :=
  { var := var, raw := val, val := valEscape val, escaped := rfl, flags := 0, aux := 0,
    lastset := now, enumList := [], rangeList := [] }

def stateTreeFind (t : StTree) (var : CString) : Option StNode :=
  t.find? StNode.var strcasecmp var

def stateVisit {ρ : Type} (var : CString) (found : StNode -> Option StNode × ρ)
    (missing : Option StNode × ρ) (t : StTree) : StTree × ρ :=
  t.visit StNode.var strcasecmp var found missing

def StNode.delinfo (node : StNode) : Option StNode × Int :=
  if node.immutable then (some node, 0) else (none, 1)

def stateDelinfo (var : CString) (t : StTree) : StTree × Int :=
  stateVisit var StNode.delinfo (none, 0) t

def stTreeNodeCompareTimestamp (node : StNode) (cutoff : Int) : Int :=
  if node.lastset < cutoff then -1 else if node.lastset > cutoff then 1 else 0

def StNode.delinfoOlderthan (cutoff : Int) (node : StNode) : Option StNode × Int :=
  if node.immutable then (some node, 0)
  else if stTreeNodeCompareTimestamp node cutoff ≥ 0 then (some node, 0)
  else (none, 1)

def stateDelinfoOlderthan (var : CString) (cutoff : Int) (t : StTree) : StTree × Int :=
  stateVisit var (StNode.delinfoOlderthan cutoff) (none, 0) t

def StNode.setinfo (now : Int) (val : CString) (node : StNode) : Option StNode × Int :=
  let node := node.refreshTimestamp now
  if node.raw = val then (some node, 0)
  else if node.immutable then (some node, 0)
  else (some (node.setRaw val), 1)

def stateSetinfo (now : Int) (var val : CString) (t : StTree) : StTree × Int :=
  stateVisit var (StNode.setinfo now val) (some (StNode.fresh now var val), 1) t

def stTreeEnumAdd (enc : CString) : List CString -> List CString × Int
  | [] => ([enc], 1)
  | item :: rest =>
    if item = enc then (item :: rest, 0)
    else (item :: (stTreeEnumAdd enc rest).1, (stTreeEnumAdd enc rest).2)

def stTreeDelEnum (val : CString) : List CString -> List CString × Int
  | [] => ([], 0)
  | item :: rest =>
    if strcasecmp item val = .eq then (rest, 1)
    else (item :: (stTreeDelEnum val rest).1, (stTreeDelEnum val rest).2)

-- An item is passed over only when both of its bounds differ.
def rangeHit (min max : Int32) (item : Int32 × Int32) : Bool :=
  !(item.1 != min && item.2 != max)

def stTreeRangeAdd (min max : Int32) : List (Int32 × Int32) -> List (Int32 × Int32) × Int
  | [] => ([(min, max)], 1)
  | item :: rest =>
    if rangeHit min max item then (item :: rest, 0)
    else (item :: (stTreeRangeAdd min max rest).1, (stTreeRangeAdd min max rest).2)

def stTreeDelRange (min max : Int32) : List (Int32 × Int32) -> List (Int32 × Int32) × Int
  | [] => ([], 0)
  | item :: rest =>
    if rangeHit min max item then (rest, 1)
    else (item :: (stTreeDelRange min max rest).1, (stTreeDelRange min max rest).2)

theorem stTreeEnumAdd_eq (enc : CString) (list : List CString) :
    stTreeEnumAdd enc list = if enc ∈ list then (list, 0) else (list ++ [enc], 1) := by
  induction list with
  | nil => rfl
  | cons item rest ih =>
    by_cases hit : item = enc
    · simp [stTreeEnumAdd, hit]
    · simp only [stTreeEnumAdd, hit, if_false, ih, List.mem_cons, Ne.symm hit, false_or]
      split <;> rfl

theorem stTreeRangeAdd_eq (min max : Int32) (list : List (Int32 × Int32)) : stTreeRangeAdd min max list =
      if list.any (rangeHit min max) then (list, 0) else (list ++ [(min, max)], 1) := by
  induction list with
  | nil => rfl
  | cons item rest ih =>
    by_cases hit : rangeHit min max item = true
    · simp [stTreeRangeAdd, hit]
    · simp only [stTreeRangeAdd, hit, if_false, ih, List.any_cons, Bool.false_eq_true, Bool.false_or]
      split <;> rfl

theorem stTreeDelEnum_sublist (val : CString) (list : List CString) : (stTreeDelEnum val list).1.Sublist list := by
  induction list with
  | nil => exact .slnil
  | cons item rest ih =>
    simp only [stTreeDelEnum]
    split
    · exact List.sublist_cons_self item rest
    · exact ih.cons_cons item

theorem stTreeDelRange_sublist (min max : Int32) (list : List (Int32 × Int32)) :
    (stTreeDelRange min max list).1.Sublist list := by
  induction list with
  | nil => exact .slnil
  | cons item rest ih =>
    simp only [stTreeDelRange]
    split
    · exact List.sublist_cons_self item rest
    · exact ih.cons_cons item

def StNode.modify {ρ : Type} (now : Int) (change : StNode -> StNode × ρ) (node : StNode) :
    Option StNode × ρ :=
  (some (change (node.refreshTimestamp now)).1, (change (node.refreshTimestamp now)).2)

-- The operations on a variable that must exist: `failed` is their result when it does not.
def stateModify {ρ : Type} (now : Int) (var : CString) (change : StNode -> StNode × ρ) (failed : ρ)
    (t : StTree) : StTree × ρ :=
  stateVisit var (StNode.modify now change) (none, failed) t

def StNode.addenum (enc : CString) (node : StNode) : StNode × Int :=
  let (enumList, ret) := stTreeEnumAdd enc node.enumList
  ({ node with enumList }, ret)

def stateAddenum (now : Int) (var val : CString) (t : StTree) : StTree × Int :=
  stateModify now var (StNode.addenum (pconfEncode val [] stMaxValueLen)) 0 t

def StNode.addrange (min max : Int32) (node : StNode) : StNode × Int :=
  let (rangeList, ret) := stTreeRangeAdd min max node.rangeList
  ({ node with rangeList }, ret)

def stateAddrange (now : Int) (var : CString) (min max : Int32) (t : StTree) : StTree × Int :=
  if min > max then (t, 0) else stateModify now var (StNode.addrange min max) 0 t

def StNode.setaux (aux : Int64) (node : StNode) : StNode × Int :=
  if node.aux = aux then (node, 0) else ({ node with aux }, 1)

def stateSetaux (now : Int) (var auxs : CString) (t : StTree) : StTree × Int :=
  stateModify now var (StNode.setaux (strtol auxs)) (-1) t

def StNode.delenum (val : CString) (node : StNode) : StNode × Int :=
  let (enumList, ret) := stTreeDelEnum val node.enumList
  ({ node with enumList }, ret)

def stateDelenum (now : Int) (var val : CString) (t : StTree) : StTree × Int :=
  stateModify now var (StNode.delenum val) 0 t

def StNode.delrange (min max : Int32) (node : StNode) : StNode × Int :=
  let (rangeList, ret) := stTreeDelRange min max node.rangeList
  ({ node with rangeList }, ret)

def stateDelrange (now : Int) (var : CString) (min max : Int32) (t : StTree) : StTree × Int :=
  stateModify now var (StNode.delrange min max) 0 t

def setFlag (flags : BitVec 32) (flag : CString) : BitVec 32 :=
  if strcasecmp flag (cstr "RW") = .eq then flags ||| stFlagRw
  else if strcasecmp flag (cstr "STRING") = .eq then flags ||| stFlagString
  else if strcasecmp flag (cstr "NUMBER") = .eq then flags ||| stFlagNumber
  else flags

-- Whatever was set before is lost, `ST_FLAG_IMMUTABLE` included.
def StNode.setflags (flag : List CString) (node : StNode) : StNode × Unit :=
  ({ node with flags := flag.foldl setFlag 0 }, ())

def stateSetflags (now : Int) (var : CString) (flag : List CString) (t : StTree) : StTree :=
  (stateModify now var (StNode.setflags flag) () t).1

def stateGetinfo (t : StTree) (var : CString) : Option CString :=
  (stateTreeFind t var).map StNode.val

def stateGetflags (t : StTree) (var : CString) : BitVec 32 :=
  match stateTreeFind t var with
  | none => -1
  | some node => node.flags

def stateGetaux (t : StTree) (var : CString) : Int64 :=
  match stateTreeFind t var with
  | none => -1
  | some node => node.aux

def stateGetenumlist (t : StTree) (var : CString) : List CString :=
  match stateTreeFind t var with
  | none => []
  | some node => node.enumList

def stateGetrangelist (t : StTree) (var : CString) : List (Int32 × Int32) :=
  match stateTreeFind t var with
  | none => []
  | some node => node.rangeList

abbrev CmdList := List CString

def stateAddcmd (cmd : CString) (list : CmdList) : CmdList × Int :=
  SortedList.visit id strcasecmp cmd (fun item => (some item, 0)) (some cmd, 1) list

def stateDelcmd (cmd : CString) (list : CmdList) : CmdList × Int :=
  SortedList.visit id strcasecmp cmd (fun _ => (none, 1)) (none, 0) list

end Nut
