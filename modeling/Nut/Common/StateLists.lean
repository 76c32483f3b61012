import Nut.Common.ParseConfEncode
import Nut.Common.StateMap
import Nut.Library.LooseList
import Nut.Library.Runs

set_option autoImplicit false

namespace Nut

def enumText (val : CString) : CString :=
  pconfEncode val [] stMaxValueLen

def isPlain (text : CString) : Bool :=
  text.all fun b => !pconfEscape b

def Whole (val : CString) : Prop :=
  (escapeAll val).length < stMaxValueLen

section Encoding

theorem escapeAll_shorter (text : CString) : (escapeAll text).length ≤ 2 * text.length := by
  induction text with
  | nil => exact Nat.le_refl 0
  | cons b text ih =>
    rw [escapeAll_cons, List.length_append, List.length_cons]
    split <;> simp only [List.length_cons, List.length_nil] <;> omega

theorem whole_short {val : CString} (short : val.length < 128) : Whole val := by
  have shorter := escapeAll_shorter val
  simp only [Whole, stMaxValueLen]
  omega

theorem whole_fitPrefix (val : CString) : Whole (fitPrefix (stMaxValueLen - 1) val) := by
  have fits := escapeAll_fitPrefix_length (stMaxValueLen - 1) val
  simp only [Whole, stMaxValueLen] at fits ⊢
  omega

theorem enumText_whole {val : CString} (whole : Whole val) : enumText val = escapeAll val :=
  pconfEncode_whole whole (by decide) []

theorem enumText_cut (val : CString) : enumText val = enumText (fitPrefix (stMaxValueLen - 1) val) := by
  rw [enumText_whole (whole_fitPrefix val), enumText, pconfEncode_eq (by decide)]

theorem escapeAll_injective : Function.Injective escapeAll := by
  intro a
  induction a with
  | nil =>
    intro b same
    exact (escapeAll_eq_nil.mp same.symm).symm
  | cons c a ih =>
    intro b same
    cases b with
    | nil => exact absurd (escapeAll_eq_nil.mp same) (List.cons_ne_nil c a)
    | cons d b =>
      have backslash : pconfEscape 92 = true := rfl
      rw [escapeAll_cons, escapeAll_cons] at same
      by_cases first : pconfEscape c = true <;> by_cases second : pconfEscape d = true <;>
        simp only [first, second, if_true, if_false, List.cons_append, List.nil_append, List.cons.injEq,
          Bool.false_eq_true, true_and] at same
      · rw [same.1, ih same.2]
      · exact absurd (same.1 ▸ backslash) second
      · exact absurd (same.1.symm ▸ backslash) first
      · rw [same.1, ih same.2]

theorem isPlain_iff {text : CString} : isPlain text = true ↔ (escapeAll text).length = text.length := by
  induction text with
  | nil => simp [isPlain]
  | cons b text ih =>
    have longer := escapeAll_longer text
    simp only [isPlain, List.all_cons, Bool.and_eq_true, Bool.not_eq_true'] at ih ⊢
    rw [escapeAll_cons, ih]
    by_cases special : pconfEscape b = true <;> simp [special]
    omega

theorem escapeAll_plain {text : CString} (plain : isPlain text = true) : escapeAll text = text := by
  induction text with
  | nil => rfl
  | cons b text ih =>
    simp only [isPlain, List.all_cons, Bool.and_eq_true, Bool.not_eq_true'] at plain
    rw [escapeAll_cons, plain.1, ih plain.2]
    rfl

theorem enumText_hit {val : CString} (whole : Whole val) : strcasecmp (enumText val) val = .eq ↔ isPlain val = true := by
  rw [enumText_whole whole, strcasecmp_eq_iff]
  constructor
  · intro same
    have lengths := congrArg List.length same
    simp only [foldCase, List.length_map] at lengths
    exact isPlain_iff.mpr lengths
  · intro plain
    rw [escapeAll_plain plain]

end Encoding

theorem stTreeDelEnum_eq (val : CString) (list : List CString) :
    stTreeDelEnum val list = (list.eraseP (strcasecmp · val == .eq), if list.any (strcasecmp · val == .eq) then 1 else 0) := by
  induction list with
  | nil => rfl
  | cons item rest ih =>
    by_cases hit : strcasecmp item val = .eq
    · simp [stTreeDelEnum, hit]
    · simp [stTreeDelEnum, hit, ih]

theorem stTreeDelRange_eq (min max : Int32) (list : List (Int32 × Int32)) :
    stTreeDelRange min max list = (list.eraseP (rangeHit min max), if list.any (rangeHit min max) then 1 else 0) := by
  induction list with
  | nil => rfl
  | cons item rest ih =>
    rw [stTreeDelRange, List.any_cons]
    cases hit : rangeHit min max item with
    | true => simp [hit]
    | false => rw [Bool.false_or, List.eraseP_cons_of_neg (by simp [hit]), ih]; rfl

structure SoundLists (node : StNode) : Prop where
  enums : ∃ vals : List CString, node.enumList = vals.map enumText ∧ vals.Nodup ∧ ∀ val ∈ vals, Whole val
  rangesOnce : node.rangeList.Nodup
  rangesUp : ∀ range ∈ node.rangeList, range.1 ≤ range.2

theorem enumText_inj {a b : CString} (first : Whole a) (second : Whole b) (same : enumText a = enumText b) : a = b := by
  rw [enumText_whole first, enumText_whole second] at same
  exact escapeAll_injective same

theorem mem_enums {vals : List CString} (whole : ∀ val ∈ vals, Whole val) {val : CString} (own : Whole val) :
    enumText val ∈ vals.map enumText ↔ val ∈ vals := by
  constructor
  · intro member
    obtain ⟨other, inside, same⟩ := List.mem_map.mp member
    exact enumText_inj (whole other inside) own same ▸ inside
  · exact List.mem_map_of_mem

theorem enumAdd_enums {vals : List CString} (whole : ∀ val ∈ vals, Whole val) {val : CString} (own : Whole val) :
    (stTreeEnumAdd (enumText val) (vals.map enumText)).1 = (insertLast val vals).map enumText := by
  rw [stTreeEnumAdd_eq, insertLast]
  by_cases present : val ∈ vals
  · rw [if_pos ((mem_enums whole own).mpr present), if_pos present]
  · rw [if_neg (fun member => present ((mem_enums whole own).mp member)), if_neg present, List.map_append]
    rfl

theorem whole_insertLast {vals : List CString} (whole : ∀ val ∈ vals, Whole val) {val : CString} (own : Whole val) :
    ∀ other ∈ insertLast val vals, Whole other := by
  intro other member
  obtain inside | rfl := mem_insertLast.mp member
  · exact whole other inside
  · exact own

section Sound

variable {node node' : StNode}

theorem rangeHit_self (range : Int32 × Int32) : rangeHit range.1 range.2 range = true := by
  simp [rangeHit]

theorem rangeAdd_nodup {min max : Int32} {list : List (Int32 × Int32)} (once : list.Nodup) :
    (stTreeRangeAdd min max list).1.Nodup := by
  rw [stTreeRangeAdd_eq]
  split
  next => exact once
  next new =>
    have absent : (min, max) ∉ list := fun member => new (List.any_eq_true.mpr ⟨_, member, rangeHit_self (min, max)⟩)
    have added : (insertLast (min, max) list).Nodup := nodup_insertLast once
    rwa [insertLast, if_neg absent] at added

theorem SoundLists.of_same (sound : SoundLists node) (enums : node'.enumList = node.enumList)
    (ranges : node'.rangeList = node.rangeList) : SoundLists node' :=
  ⟨enums ▸ sound.enums, ranges ▸ sound.rangesOnce, ranges ▸ sound.rangesUp⟩

theorem SoundLists.addenum (sound : SoundLists node) (val : CString) : SoundLists (node.addenum (enumText val)).1 := by
  obtain ⟨vals, list, once, whole⟩ := sound.enums
  have own := whole_fitPrefix val
  refine ⟨⟨insertLast (fitPrefix (stMaxValueLen - 1) val) vals, ?_, nodup_insertLast once, whole_insertLast whole own⟩,
    sound.rangesOnce, sound.rangesUp⟩
  rw [enumText_cut, <- enumAdd_enums whole own, <- list]
  rfl

theorem SoundLists.delenum (sound : SoundLists node) (val : CString) : SoundLists (node.delenum val).1 := by
  obtain ⟨vals, list, once, whole⟩ := sound.enums
  have sub := stTreeDelEnum_sublist val node.enumList
  rw [list, List.sublist_map_iff] at sub
  obtain ⟨kept, sublist, same⟩ := sub
  refine ⟨⟨kept, ?_, once.sublist sublist, fun other member => whole other (sublist.subset member)⟩,
    sound.rangesOnce, sound.rangesUp⟩
  rw [<- same, <- list]
  rfl

theorem SoundLists.addrange (sound : SoundLists node) {min max : Int32} (up : min ≤ max) :
    SoundLists (node.addrange min max).1 := by
  refine ⟨sound.enums, rangeAdd_nodup sound.rangesOnce, fun range member => ?_⟩
  change range ∈ (stTreeRangeAdd min max node.rangeList).1 at member
  rw [stTreeRangeAdd_eq] at member
  split at member
  · exact sound.rangesUp range member
  · obtain old | new := List.mem_append.mp member
    · exact sound.rangesUp range old
    · rw [List.mem_singleton.mp new]
      exact up

theorem SoundLists.delrange (sound : SoundLists node) (min max : Int32) : SoundLists (node.delrange min max).1 :=
  have sub := stTreeDelRange_sublist min max node.rangeList
  ⟨sound.enums, sound.rangesOnce.sublist sub, fun range member => sound.rangesUp range (sub.subset member)⟩

theorem soundLists_found (op : StateOp) (now : Int) (sound : SoundLists node) (kept : (op.found now node).1 = some node') :
    SoundLists node' := by
  have fresh : SoundLists (node.refreshTimestamp now) := sound.of_same rfl rfl
  cases op with
  | setinfo var val =>
    simp only [StateOp.found, StNode.setinfo] at kept
    split_ifs at kept <;> cases kept <;> exact sound.of_same rfl rfl
  | delinfo var =>
    simp only [StateOp.found, StNode.delinfo] at kept
    split_ifs at kept
    cases kept
    exact sound
  | delinfoOlderthan var cutoff =>
    simp only [StateOp.found, StNode.delinfoOlderthan] at kept
    split_ifs at kept <;> cases kept <;> exact sound
  | addenum var val =>
    cases kept
    exact fresh.addenum val
  | delenum var val =>
    cases kept
    exact fresh.delenum val
  | addrange var min max =>
    simp only [StateOp.found] at kept
    split_ifs at kept with reversed
    · cases kept
      exact sound
    · cases kept
      exact fresh.addrange (Int32.not_lt.mp reversed)
  | delrange var min max =>
    cases kept
    exact fresh.delrange min max
  | setaux var auxs =>
    cases kept
    simp only [StNode.setaux]
    split <;> exact sound.of_same rfl rfl
  | setflags var flag =>
    cases kept
    exact sound.of_same rfl rfl

theorem soundLists_runOps (history : History) : ∀ node ∈ (runOps history).toList, SoundLists node := by
  induction history using List.reverseRecOn with
  | nil => simp [runOps]
  | append_singleton history step ih =>
    rw [runOps_append]
    refine step.2.forall_apply step.1 (ordered_runOps history) (fun node node' sound kept => ?_) (fun node made => ?_) ih
    · exact soundLists_found step.2 step.1 sound kept
    · obtain ⟨now, op⟩ := step
      cases op <;> simp only [StateOp.missing, reduceCtorEq, Option.some.injEq] at made
      subst made
      exact ⟨⟨[], rfl, List.nodup_nil, by simp⟩, List.nodup_nil, by simp [StNode.fresh]⟩

end Sound

theorem find_apply (op : StateOp) (now : Int) {t : StTree} (ordered : Ordered t) {var : CString} {node : StNode}
    (found : stateTreeFind t var = some node) :
    stateTreeFind (op.apply now t).1 var = if strcasecmp op.var var = .eq then (op.found now node).1 else some node := by
  split
  next same =>
    rw [<- stateTreeFind_congr same] at found ⊢
    rw [op.find_apply_self now ordered, found]
    rfl
  next other => rw [op.find_apply_other now ordered other, found]

-- A call of `state_addenum` or of `state_delenum`.
structure EnumCall where
  adds : Bool
  now : Int
  var : CString
  val : CString
  deriving DecidableEq

namespace EnumCall

def op (call : EnumCall) : StateOp :=
  if call.adds then .addenum call.var call.val else .delenum call.var call.val

def run (t : StTree) (call : EnumCall) : StTree :=
  (call.op.apply call.now t).1

def spec (var : CString) (vals : List CString) (call : EnumCall) : List CString :=
  if strcasecmp call.var var = .eq then if call.adds then insertLast call.val vals else vals.erase call.val
  else vals

end EnumCall

def Enumerates (t : StTree) (var : CString) (vals : List CString) : Prop :=
  stateGetenumlist t var = vals.map enumText ∧ vals.Nodup ∧ ∀ val ∈ vals, Whole val

def EnumCallsFaithful (t : StTree) (var : CString) (vals : List CString) (calls : List EnumCall) : Prop :=
  ∀ before call after, calls = before ++ call :: after ->
    stateGetenumlist (EnumCall.run (before.foldl EnumCall.run t) call) var =
      (EnumCall.spec var (before.foldl (EnumCall.spec var) vals) call).map enumText

def DeletesValue (vals : List CString) (val : CString) : Prop :=
  if val ∈ vals then
    isPlain val = true ∧ ∃ before after, vals = before ++ val :: after ∧
      ∀ other ∈ before, strcasecmp (enumText other) val ≠ .eq
  else ∀ other ∈ vals, strcasecmp (enumText other) val ≠ .eq

def EnumCall.Exact (var : CString) (vals : List CString) (call : EnumCall) : Prop :=
  strcasecmp call.var var = .eq -> call.adds = false -> DeletesValue vals call.val

section Enums

variable {var : CString} {vals : List CString} {t : StTree}

theorem deletesValue_iff (once : vals.Nodup) (whole : ∀ val ∈ vals, Whole val) (val : CString) :
    (stTreeDelEnum val (vals.map enumText)).1 = (vals.erase val).map enumText ↔ DeletesValue vals val := by
  let hit (other : CString) : Bool := strcasecmp (enumText other) val == .eq
  have code : (stTreeDelEnum val (vals.map enumText)).1 = (vals.eraseP hit).map enumText := by
    rw [stTreeDelEnum_eq, List.eraseP_map]
    rfl
  have lists : (vals.eraseP hit).map enumText = (vals.erase val).map enumText ↔ vals.eraseP hit = vals.erase val := by
    constructor
    · intro same
      apply List.map_injective_iff.mpr escapeAll_injective
      have encoded {list : List CString} (sub : list.Sublist vals) : list.map enumText = list.map escapeAll :=
        List.map_congr_left fun other member => enumText_whole (whole other (sub.subset member))
      rw [<- encoded List.eraseP_sublist, <- encoded List.erase_sublist, same]
    · exact congrArg _
  rw [code, lists, eraseP_iff once, DeletesValue]
  by_cases present : val ∈ vals
  · rw [if_pos present, if_pos present, List.find?_eq_some_iff_append, <- enumText_hit (whole val present)]
    simp [hit]
  · rw [if_neg present, if_neg present, List.find?_eq_none]
    simp [hit]

structure EnumsAt (t : StTree) (var : CString) (vals : List CString) : Prop where
  ordered : Ordered t
  present : (stateTreeFind t var).isSome
  enumerates : Enumerates t var vals

theorem enumsAt_step (s : EnumsAt t var vals) {call : EnumCall} (own : Whole call.val) :
    (stateGetenumlist (call.run t) var = (call.spec var vals).map enumText ↔ call.Exact var vals) ∧
      (stateGetenumlist (call.run t) var = (call.spec var vals).map enumText ->
        EnumsAt (call.run t) var (call.spec var vals)) := by
  obtain ⟨node, found⟩ := Option.isSome_iff_exists.mp s.present
  obtain ⟨list, once, whole⟩ := s.enumerates
  have enums : node.enumList = vals.map enumText := by simpa [stateGetenumlist, found] using list
  have after := find_apply call.op call.now s.ordered found
  have opVar : call.op.var = call.var := by
    unfold EnumCall.op
    split <;> rfl
  rw [opVar] at after
  have specSound : (call.spec var vals).Nodup ∧ ∀ val ∈ call.spec var vals, Whole val := by
    unfold EnumCall.spec
    split
    next =>
      split
      next => exact ⟨nodup_insertLast once, whole_insertLast whole own⟩
      next => exact ⟨once.erase _, fun val member => whole val (List.mem_of_mem_erase member)⟩
    next => exact ⟨once, whole⟩
  have still : (stateTreeFind (call.run t) var).isSome := by
    rw [EnumCall.run, after]
    split
    · unfold EnumCall.op
      split <;> rfl
    · rfl
  refine ⟨?_, fun right => ⟨call.op.ordered_apply call.now s.ordered, still, right, specSound⟩⟩
  by_cases same : strcasecmp call.var var = .eq
  · rw [if_pos same] at after
    cases adds : call.adds with
    | true =>
      have code : stateGetenumlist (call.run t) var = (stTreeEnumAdd (enumText call.val) node.enumList).1 := by
        rw [stateGetenumlist, EnumCall.run, after, EnumCall.op, if_pos adds]
        rfl
      rw [code, enums, enumAdd_enums whole own]
      simp [EnumCall.spec, EnumCall.Exact, same, adds]
    | false =>
      have code : stateGetenumlist (call.run t) var = (stTreeDelEnum call.val node.enumList).1 := by
        rw [stateGetenumlist, EnumCall.run, after, EnumCall.op, if_neg (by simp [adds])]
        rfl
      rw [code, enums]
      simpa [EnumCall.spec, EnumCall.Exact, same, adds] using deletesValue_iff once whole call.val
  · rw [if_neg same] at after
    have code : stateGetenumlist (call.run t) var = vals.map enumText := by
      rw [stateGetenumlist, EnumCall.run, after]
      exact enums
    simp [code, EnumCall.spec, EnumCall.Exact, same]

theorem enumerates_runOps (history : History) (present : (stateTreeFind (runOps history) var).isSome) :
    ∃ vals, Enumerates (runOps history) var vals := by
  obtain ⟨node, found⟩ := Option.isSome_iff_exists.mp present
  have member := ((stateTreeFind_iff (ordered_runOps history)).mp found).1
  obtain ⟨vals, list, once, whole⟩ := (soundLists_runOps history node member).enums
  refine ⟨vals, ?_, once, whole⟩
  rw [stateGetenumlist, found]
  exact list

-- Additions are always right. The list is that of a set of values as long as each deletion hits the
-- value itself first.
theorem enumCalls_faithful_iff (history : History) (present : (stateTreeFind (runOps history) var).isSome) :
    ∃ vals, Enumerates (runOps history) var vals ∧ ∀ calls : List EnumCall, (∀ call ∈ calls, call.val.length < 128) ->
        (EnumCallsFaithful (runOps history) var vals calls ↔ ∀ before call after, calls = before ++ call :: after ->
            call.Exact var (before.foldl (EnumCall.spec var) vals)) := by
  obtain ⟨vals, enumerates⟩ := enumerates_runOps history present
  refine ⟨vals, enumerates, fun calls short => ?_⟩
  have start : EnumsAt (runOps history) var vals := ⟨ordered_runOps history, present, enumerates⟩
  exact @lockstep_iff StTree EnumCall EnumCall.run _ (EnumCall.spec var) (fun t vals => EnumsAt t var vals)
    (fun t vals call => stateGetenumlist (call.run t) var = (call.spec var vals).map enumText)
    (fun vals call => call.Exact var vals) _ (fun t vals call own s => enumsAt_step s (whole_short own)) _ _ start _ short

def sensitivity : History :=
  [(0, .setinfo (cstr "input.sensitivity") (cstr "H"))]

theorem enumCalls_faithful_sample : ∃ vals, Enumerates (runOps sensitivity) (cstr "input.sensitivity") vals ∧
      ∀ calls : List EnumCall, (∀ call ∈ calls, call.val.length < 128) ->
        (EnumCallsFaithful (runOps sensitivity) (cstr "input.sensitivity") vals calls ↔
          ∀ before call after, calls = before ++ call :: after ->
            call.Exact (cstr "input.sensitivity") (before.foldl (EnumCall.spec (cstr "input.sensitivity")) vals)) :=
  enumCalls_faithful_iff sensitivity (by decide +kernel)

-- A value that is escaped stays when it is deleted, and `low` takes `LOW` along.
theorem enumCalls_not_faithful : ¬ EnumCallsFaithful (runOps sensitivity) (cstr "input.sensitivity") []
        [⟨true, 1, cstr "input.sensitivity", cstr "a\"b"⟩, ⟨false, 2, cstr "input.sensitivity", cstr "a\"b"⟩] ∧
      ¬ EnumCallsFaithful (runOps sensitivity) (cstr "input.sensitivity") []
        [⟨true, 1, cstr "input.sensitivity", cstr "LOW"⟩, ⟨false, 2, cstr "input.sensitivity", cstr "low"⟩] := by
  constructor
  · intro faithful
    have last := faithful [_] _ [] rfl
    revert last
    decide +kernel
  · intro faithful
    have last := faithful [_] _ [] rfl
    revert last
    decide +kernel

end Enums

-- A call of `state_addrange` or of `state_delrange`.
structure RangeCall where
  adds : Bool
  now : Int
  var : CString
  min : Int32
  max : Int32
  deriving DecidableEq

local instance rangeLawful : LawfulBEq (Int32 × Int32) :=
  inferInstance

namespace RangeCall

def op (call : RangeCall) : StateOp :=
  if call.adds then .addrange call.var call.min call.max else .delrange call.var call.min call.max

def run (t : StTree) (call : RangeCall) : StTree :=
  (call.op.apply call.now t).1

def ret (t : StTree) (call : RangeCall) : Int :=
  (call.op.apply call.now t).2

def spec (var : CString) (ranges : List (Int32 × Int32)) (call : RangeCall) : List (Int32 × Int32) :=
  if strcasecmp call.var var = .eq then
    if call.adds then if call.min ≤ call.max then insertLast (call.min, call.max) ranges else ranges
    else ranges.erase (call.min, call.max)
  else ranges

-- An interval is new for an addition, and there for a deletion.
def specRet (ranges : List (Int32 × Int32)) (call : RangeCall) : Int :=
  if call.adds then if call.min ≤ call.max ∧ (call.min, call.max) ∉ ranges then 1 else 0
  else if (call.min, call.max) ∈ ranges then 1 else 0

def Exact (var : CString) (ranges : List (Int32 × Int32)) (call : RangeCall) : Prop :=
  strcasecmp call.var var = .eq ->
    if call.adds then call.min ≤ call.max -> (call.min, call.max) ∉ ranges ->
      ∀ range ∈ ranges, range.1 ≠ call.min ∧ range.2 ≠ call.max
    else if (call.min, call.max) ∈ ranges then
      ∃ before after, ranges = before ++ (call.min, call.max) :: after ∧
        ∀ range ∈ before, range.1 ≠ call.min ∧ range.2 ≠ call.max
    else ∀ range ∈ ranges, range.1 ≠ call.min ∧ range.2 ≠ call.max

end RangeCall

def RangeCallsFaithful (t : StTree) (var : CString) (ranges : List (Int32 × Int32)) (calls : List RangeCall) : Prop :=
  ∀ before call after, calls = before ++ call :: after ->
    stateGetrangelist (RangeCall.run (before.foldl RangeCall.run t) call) var =
        RangeCall.spec var (before.foldl (RangeCall.spec var) ranges) call ∧
      (strcasecmp call.var var = .eq ->
        RangeCall.ret (before.foldl RangeCall.run t) call =
          RangeCall.specRet (before.foldl (RangeCall.spec var) ranges) call)

section Ranges

variable {var : CString} {ranges : List (Int32 × Int32)} {t : StTree}

theorem rangeHit_false_iff (min max : Int32) (range : Int32 × Int32) :
    rangeHit min max range = false ↔ range.1 ≠ min ∧ range.2 ≠ max := by
  simp [rangeHit]

theorem addsRange_iff (min max : Int32) : (stTreeRangeAdd min max ranges).1 = insertLast (min, max) ranges ∧
        (stTreeRangeAdd min max ranges).2 = (if (min, max) ∉ ranges then 1 else 0) ↔
      ((min, max) ∉ ranges -> ∀ range ∈ ranges, range.1 ≠ min ∧ range.2 ≠ max) := by
  have hits : (min, max) ∈ ranges -> ranges.any (rangeHit min max) = true := fun member =>
    List.any_eq_true.mpr ⟨_, member, rangeHit_self (min, max)⟩
  simp only [<- rangeHit_false_iff, stTreeRangeAdd_eq]
  by_cases present : (min, max) ∈ ranges
  · simp [present, hits present, insertLast]
  · by_cases found : ranges.any (rangeHit min max) = true
    · rw [if_pos found]
      simp only [present, not_false_eq_true, if_true, insertLast, if_false, true_implies]
      constructor
      · rintro ⟨_, wrong⟩
        cases wrong
      · intro none_
        obtain ⟨range, member, hit⟩ := List.any_eq_true.mp found
        rw [none_ range member] at hit
        cases hit
    · rw [if_neg found]
      have none_ : ∀ range ∈ ranges, rangeHit min max range = false := by simpa using found
      simp [present, insertLast]
      exact fun a b member => none_ (a, b) member

theorem deletesRange_iff (once : ranges.Nodup) (min max : Int32) :
    (stTreeDelRange min max ranges).1 = ranges.erase (min, max) ∧
        (stTreeDelRange min max ranges).2 = (if (min, max) ∈ ranges then 1 else 0) ↔
      if (min, max) ∈ ranges then ∃ before after, ranges = before ++ (min, max) :: after ∧
        ∀ range ∈ before, range.1 ≠ min ∧ range.2 ≠ max
      else ∀ range ∈ ranges, range.1 ≠ min ∧ range.2 ≠ max := by
  have self : rangeHit min max (min, max) = true := rangeHit_self (min, max)
  simp only [<- rangeHit_false_iff, stTreeDelRange_eq, eraseP_iff once]
  by_cases present : (min, max) ∈ ranges
  · have found : ranges.any (rangeHit min max) = true := List.any_eq_true.mpr ⟨_, present, self⟩
    simp only [present, found, if_true, and_true]
    rw [List.find?_eq_some_iff_append]
    simp [self]
  · simp only [present, if_false]
    rw [List.find?_eq_none]
    constructor
    · rintro ⟨none_, _⟩ range member
      simpa using none_ range member
    · intro none_
      refine ⟨fun range member => by simp [none_ range member], ?_⟩
      rw [if_neg]
      simpa using none_

structure RangesAt (t : StTree) (var : CString) (ranges : List (Int32 × Int32)) : Prop where
  ordered : Ordered t
  present : (stateTreeFind t var).isSome
  list : stateGetrangelist t var = ranges
  once : ranges.Nodup

theorem rangesAt_step (s : RangesAt t var ranges) (call : RangeCall) :
    (stateGetrangelist (call.run t) var = call.spec var ranges ∧
        (strcasecmp call.var var = .eq -> call.ret t = call.specRet ranges) ↔ call.Exact var ranges) ∧
      (stateGetrangelist (call.run t) var = call.spec var ranges ∧
        (strcasecmp call.var var = .eq -> call.ret t = call.specRet ranges) ->
          RangesAt (call.run t) var (call.spec var ranges)) := by
  obtain ⟨node, found⟩ := Option.isSome_iff_exists.mp s.present
  have list : node.rangeList = ranges := by simpa [stateGetrangelist, found] using s.list
  have after := find_apply call.op call.now s.ordered found
  have opVar : call.op.var = call.var := by
    unfold RangeCall.op
    split <;> rfl
  have ret := call.op.apply_snd call.now t
  rw [opVar] at after ret
  have specSound : (call.spec var ranges).Nodup := by
    unfold RangeCall.spec
    split_ifs
    · exact nodup_insertLast s.once
    · exact s.once
    · exact s.once.erase _
    · exact s.once
  have still : (stateTreeFind (call.run t) var).isSome := by
    rw [RangeCall.run, after]
    split
    · have metadata : call.op.isMetadata = true := by
        unfold RangeCall.op
        split <;> rfl
      obtain ⟨node', kept, _⟩ := StateOp.found_metadata metadata call.now node
      rw [kept]
      rfl
    · rfl
  refine ⟨?_, fun right => ⟨call.op.ordered_apply call.now s.ordered, still, right.1, specSound⟩⟩
  by_cases same : strcasecmp call.var var = .eq
  · rw [if_pos same] at after
    rw [stateTreeFind_congr same, found, Option.elim_some] at ret
    simp only [same, true_implies, RangeCall.run, RangeCall.ret, stateGetrangelist, after, ret, RangeCall.spec, if_true,
      RangeCall.specRet, RangeCall.Exact]
    cases adds : call.adds with
    | true =>
      by_cases up : call.min ≤ call.max
      · have forward : ¬ call.min > call.max := Int32.not_lt.mpr up
        simp only [RangeCall.op, adds, if_true, StateOp.found, forward, if_false, up, true_and, true_implies]
        rw [<- addsRange_iff, <- list]
        rfl
      · have reversed : call.min > call.max := Int32.not_le.mp up
        simp [RangeCall.op, adds, StateOp.found, reversed, up, list]
    | false =>
      simp only [RangeCall.op, adds, Bool.false_eq_true, if_false, StateOp.found]
      rw [<- deletesRange_iff s.once, <- list]
      rfl
  · rw [if_neg same] at after
    have code : stateGetrangelist (call.run t) var = ranges := by
      rw [stateGetrangelist, RangeCall.run, after]
      exact list
    simp [code, RangeCall.spec, RangeCall.Exact, same]

-- The list is that of a set of intervals, and the calls tell so, as long as no call meets a range
-- first that has only one of the two bounds.
theorem rangeCalls_faithful_iff (history : History) (present : (stateTreeFind (runOps history) var).isSome)
    (calls : List RangeCall) : RangeCallsFaithful (runOps history) var (stateGetrangelist (runOps history) var) calls ↔
      ∀ before call after, calls = before ++ call :: after ->
        call.Exact var (before.foldl (RangeCall.spec var) (stateGetrangelist (runOps history) var)) := by
  obtain ⟨node, found⟩ := Option.isSome_iff_exists.mp present
  have member := ((stateTreeFind_iff (ordered_runOps history)).mp found).1
  have once : (stateGetrangelist (runOps history) var).Nodup := by
    rw [stateGetrangelist, found]
    exact (soundLists_runOps history node member).rangesOnce
  have start : RangesAt (runOps history) var (stateGetrangelist (runOps history) var) :=
    ⟨ordered_runOps history, present, rfl, once⟩
  exact @lockstep_iff StTree RangeCall RangeCall.run _ (RangeCall.spec var) (fun t ranges => RangesAt t var ranges)
    (fun t ranges call => stateGetrangelist (call.run t) var = call.spec var ranges ∧
      (strcasecmp call.var var = .eq -> call.ret t = call.specRet ranges))
    (fun ranges call => call.Exact var ranges) (fun _ => True) (fun t ranges call _ s => rangesAt_step s call) _ _ start _
    fun _ _ => trivial

theorem rangeCalls_faithful_sample : RangeCallsFaithful (runOps sensitivity) (cstr "input.sensitivity")
        (stateGetrangelist (runOps sensitivity) (cstr "input.sensitivity")) [⟨true, 1, cstr "input.sensitivity", 0, 5⟩] ↔
      ∀ before call after, [⟨true, 1, cstr "input.sensitivity", 0, 5⟩] = before ++ call :: after ->
        RangeCall.Exact (cstr "input.sensitivity") (before.foldl (RangeCall.spec (cstr "input.sensitivity"))
            (stateGetrangelist (runOps sensitivity) (cstr "input.sensitivity"))) call :=
  rangeCalls_faithful_iff sensitivity (by decide +kernel) _

-- The second range has the lower bound of the first, and is refused.
theorem rangeCalls_not_faithful : ¬ RangeCallsFaithful (runOps sensitivity) (cstr "input.sensitivity")
      (stateGetrangelist (runOps sensitivity) (cstr "input.sensitivity"))
      [⟨true, 1, cstr "input.sensitivity", 0, 5⟩, ⟨true, 2, cstr "input.sensitivity", 0, 9⟩] := by
  intro faithful
  have last := (faithful [_] _ [] rfl).1
  revert last
  decide +kernel

end Ranges

end Nut
