import Nut.Common.StateMap
import Nut.Server.SstateLines

set_option autoImplicit false

namespace Nut

structure StView where
  var : CString
  val : CString
  enumList : List CString
  rangeList : List (Int32 × Int32)
  aux : Int64
  rw : Bool
  string : Bool
  number : Bool
  deriving DecidableEq

def hasFlag (flags flag : BitVec 32) : Bool :=
  flags &&& flag ≠ 0

def StNode.view (node : StNode) : StView :=
  { var := node.var, val := node.val, enumList := node.enumList, rangeList := node.rangeList,
    aux := node.aux, rw := hasFlag node.flags stFlagRw, string := hasFlag node.flags stFlagString,
    number := hasFlag node.flags stFlagNumber }

def Mirrors (d : Dstate) (ups : Upstype) : Prop :=
  d.dtreeRoot.toList.map StNode.view = ups.inforoot.toList.map StNode.view ∧ d.cmdhead = ups.cmdlist

instance (d : Dstate) (ups : Upstype) : Decidable (Mirrors d ups) :=
  inferInstanceAs (Decidable (_ ∧ _))

def Agree (a b : StNode) : Prop :=
  a.view = b.view ∧ b.immutable = false

def SyncedTree (t u : StTree) : Prop :=
  Ordered t ∧ Ordered u ∧ List.Forall₂ Agree t.toList u.toList

theorem agree_var {a b : StNode} (agree : Agree a b) : a.var = b.var := congrArg StView.var agree.1

theorem syncedTree_iff {t u : StTree} : SyncedTree t u ↔
      Ordered t ∧ Ordered u ∧ Mutable u ∧ t.toList.map StNode.view = u.toList.map StNode.view := by
  have pointwise (xs ys : List StNode) : List.Forall₂ Agree xs ys ↔
      (∀ node ∈ ys, node.immutable = false) ∧ xs.map StNode.view = ys.map StNode.view := by
    constructor
    · intro agree
      induction agree with
      | nil => simp
      | cons head _ ih => simp_all [Agree]
    · intro ⟨mutable, same⟩
      induction ys generalizing xs with
      | nil => simp_all
      | cons y ys ih =>
        cases xs with
        | nil => simp at same
        | cons x xs =>
          simp only [List.map_cons, List.cons.injEq] at same
          refine .cons ⟨same.1, mutable y (by simp)⟩ (ih xs ?_ same.2)
          exact fun node member => mutable node (by simp [member])
  simp only [SyncedTree, pointwise, Mutable]

section Edits

variable {ρ ρ' : Type} {t u : StTree} {var : CString}

theorem agree_stateVisit (synced : SyncedTree t u) {found : StNode -> Option StNode × ρ}
    {found' : StNode -> Option StNode × ρ'} {missing : Option StNode × ρ} {missing' : Option StNode × ρ'}
    (edits : ∀ a b, stateTreeFind t var = some a -> Agree a b -> Option.Rel Agree (found a).1 (found' b).1)
    (fresh : stateTreeFind t var = none -> Option.Rel Agree missing.1 missing'.1) :
    List.Forall₂ Agree (stateVisit var found missing t).1.toList (stateVisit var found' missing' u).1.toList := by
  rw [stateVisit, stateVisit, SearchTree.visit_eq, SearchTree.visit_eq]
  exact SearchTree.alter_related StNode.var strcasecmp (fun a b agree => agree_var agree) synced.1
    synced.2.1 synced.2.2 edits fresh

theorem view_stateVisit {found : StNode -> Option StNode × ρ} {missing : Option StNode × ρ}
    (kept : ∀ node, stateTreeFind t var = some node -> ∃ node', (found node).1 = some node' ∧ node'.view = node.view)
    (none : stateTreeFind t var = none -> missing.1 = none) :
    (stateVisit var found missing t).1.toList.map StNode.view = t.toList.map StNode.view := by
  rw [stateVisit, SearchTree.visit_eq]
  exact SearchTree.map_alter StNode.var strcasecmp StNode.view kept none

end Edits

def StateOp.isRepeated : StateOp -> Bool
  | .setaux _ _ | .setflags _ _ | .delinfoOlderthan _ _ => false
  | _ => true

theorem stTreeEnumAdd_same {enc : CString} {list : List CString}
    (same : (stTreeEnumAdd enc list).2 ≠ 1) : (stTreeEnumAdd enc list).1 = list := by
  rw [stTreeEnumAdd_eq] at same ⊢
  split at same <;> simp_all

theorem stTreeDelEnum_same {val : CString} {list : List CString}
    (same : (stTreeDelEnum val list).2 ≠ 1) : (stTreeDelEnum val list).1 = list := by
  induction list with
  | nil => rfl
  | cons item rest ih =>
    by_cases hit : strcasecmp item val = .eq
    · simp [stTreeDelEnum, hit] at same
    · simp only [stTreeDelEnum, hit, if_false] at same ⊢
      rw [ih same]

theorem stTreeRangeAdd_same {min max : Int32} {list : List (Int32 × Int32)}
    (same : (stTreeRangeAdd min max list).2 ≠ 1) : (stTreeRangeAdd min max list).1 = list := by
  rw [stTreeRangeAdd_eq] at same ⊢
  split at same <;> simp_all

theorem stTreeDelRange_same {min max : Int32} {list : List (Int32 × Int32)}
    (same : (stTreeDelRange min max list).2 ≠ 1) : (stTreeDelRange min max list).1 = list := by
  induction list with
  | nil => rfl
  | cons item rest ih =>
    by_cases hit : rangeHit min max item = true
    · simp [stTreeDelRange, hit] at same
    · simp only [stTreeDelRange, hit, if_false, Bool.false_eq_true] at same ⊢
      rw [ih same]

theorem StNode.setinfo_changed {now : Int} {val : CString} {node : StNode}
    (changed : (StNode.setinfo now val node).2 = 1) : node.immutable = false := by
  cases locked : node.immutable with
  | false => rfl
  | true =>
    have locked' : (node.refreshTimestamp now).immutable = true := locked
    simp only [StNode.setinfo, locked', if_true] at changed
    split at changed <;> simp at changed

theorem SetNode.view {var val : CString} {old node : StNode} (set : SetNode var val (some old) node) :
    node.view = { old.view with val := valEscape val } := by
  obtain ⟨_, value, sameVar, flags, aux, enums, ranges⟩ := set
  simp [StNode.view, value, sameVar, flags, aux, enums, ranges]

theorem SetNode.immutable {var val : CString} {old node : StNode}
    (set : SetNode var val (some old) node) : node.immutable = old.immutable := by
  simp [StNode.immutable, set.2.2.2.1]

theorem agree_modify {ρ : Type} {change : StNode -> StNode × ρ} (now now' : Int) {a b : StNode} (agree : Agree a b)
    (together : ∀ a b, Agree a b -> Agree (change a).1 (change b).1) :
    Option.Rel Agree (a.modify now change).1 (b.modify now' change).1 :=
  .some (together (a.refreshTimestamp now) (b.refreshTimestamp now') agree)

theorem found_repeated {op : StateOp} (repeated : op.isRepeated = true) (now now' : Int)
    {a b : StNode} (agree : Agree a b) (changed : (op.found now a).2 = 1) :
    Option.Rel Agree (op.found now a).1 (op.found now' b).1 := by
  cases op with
  | setaux | setflags | delinfoOlderthan => simp [StateOp.isRepeated] at repeated
  | setinfo var val =>
    obtain ⟨_, a', keptA, setA⟩ := setNode_setinfo now var val (StNode.setinfo_changed changed)
    obtain ⟨_, b', keptB, setB⟩ := setNode_setinfo now' var val agree.2
    simp only [StateOp.found, keptA, keptB]
    refine .some ⟨?_, ?_⟩
    · rw [setA.view, setB.view, agree.1]
    · rw [setB.immutable, agree.2]
  | delinfo var =>
    have free : a.immutable = false := by
      cases locked : a.immutable with
      | false => rfl
      | true => simp [StateOp.found, StNode.delinfo, locked] at changed
    simp [StateOp.found, StNode.delinfo, free, agree.2]
  | addenum var val =>
    apply agree_modify now now' agree
    intro a b agree
    have same : a.enumList = b.enumList := congrArg StView.enumList agree.1
    simp_all [Agree, StNode.addenum, StNode.view, StNode.immutable]
  | delenum var val =>
    apply agree_modify now now' agree
    intro a b agree
    have same : a.enumList = b.enumList := congrArg StView.enumList agree.1
    simp_all [Agree, StNode.delenum, StNode.view, StNode.immutable]
  | delrange var min max =>
    apply agree_modify now now' agree
    intro a b agree
    have same : a.rangeList = b.rangeList := congrArg StView.rangeList agree.1
    simp_all [Agree, StNode.delrange, StNode.view, StNode.immutable]
  | addrange var min max =>
    by_cases reversed : min > max
    · simp [StateOp.found, reversed] at changed
    · simp only [StateOp.found, reversed, if_false]
      apply agree_modify now now' agree
      intro a b agree
      simp_all [Agree, StNode.addrange, StNode.view, StNode.immutable]

theorem found_same {op : StateOp} (repeated : op.isRepeated = true) (now : Int) {a : StNode}
    (same : (op.found now a).2 ≠ 1) : ∃ a', (op.found now a).1 = some a' ∧ a'.view = a.view := by
  cases op with
  | setaux | setflags | delinfoOlderthan => simp [StateOp.isRepeated] at repeated
  | setinfo var val =>
    refine ⟨a.refreshTimestamp now, ?_, rfl⟩
    simp only [StateOp.found, StNode.setinfo] at same ⊢
    split_ifs at same ⊢ <;> simp_all
  | delinfo var =>
    refine ⟨a, ?_, rfl⟩
    simp only [StateOp.found, StNode.delinfo] at same ⊢
    split_ifs at same ⊢ <;> simp_all
  | addenum var val =>
    refine ⟨_, rfl, ?_⟩
    have list := stTreeEnumAdd_same same
    simp only [StNode.addenum, StNode.view, list]
    rfl
  | delenum var val =>
    refine ⟨_, rfl, ?_⟩
    have list := stTreeDelEnum_same same
    simp only [StNode.delenum, StNode.view, list]
    rfl
  | delrange var min max =>
    refine ⟨_, rfl, ?_⟩
    have list := stTreeDelRange_same same
    simp only [StNode.delrange, StNode.view, list]
    rfl
  | addrange var min max =>
    by_cases reversed : min > max
    · exact ⟨a, by simp [StateOp.found, reversed], rfl⟩
    · simp only [StateOp.found, reversed, if_false] at same ⊢
      refine ⟨_, rfl, ?_⟩
      have list := stTreeRangeAdd_same same
      simp only [StNode.addrange, StNode.view, list]
      rfl

section Trees

variable {t u : StTree}

theorem synced_repeated {op : StateOp} (repeated : op.isRepeated = true) (now now' : Int)
    (synced : SyncedTree t u) (changed : (op.apply now t).2 = 1) :
    SyncedTree (op.apply now t).1 (op.apply now' u).1 := by
  refine ⟨op.ordered_apply now synced.1, op.ordered_apply now' synced.2.1, ?_⟩
  rw [op.apply_snd] at changed
  rw [op.apply_eq, op.apply_eq]
  apply agree_stateVisit synced
  · intro a b present agree
    rw [present] at changed
    exact found_repeated repeated now now' agree changed
  · intro absent
    rw [absent] at changed
    cases op with
    | setinfo var val => exact .some ⟨rfl, by simp [StNode.immutable, StNode.fresh]⟩
    | _ => simp [StateOp.missing] at changed

theorem synced_same {op : StateOp} (repeated : op.isRepeated = true) (now : Int)
    (synced : SyncedTree t u) (same : (op.apply now t).2 ≠ 1) : SyncedTree (op.apply now t).1 u := by
  obtain ⟨ordered, ordered', mutable, views⟩ := syncedTree_iff.mp synced
  refine syncedTree_iff.mpr ⟨op.ordered_apply now ordered, ordered', mutable, ?_⟩
  rw [op.apply_snd] at same
  rw [op.apply_eq, <- views]
  apply view_stateVisit
  · intro node present
    rw [present] at same
    exact found_same repeated now same
  · intro absent
    rw [absent] at same
    cases op with
    | setinfo var val => simp [StateOp.missing] at same
    | _ => rfl

theorem synced_olderthan (var : CString) (cutoff now now' : Int) (synced : SyncedTree t u) :
    if (stateDelinfoOlderthan var cutoff t).2 = 1 then
      SyncedTree (stateDelinfoOlderthan var cutoff t).1 (stateDelinfo var u).1
    else SyncedTree (stateDelinfoOlderthan var cutoff t).1 u := by
  have ordered : Ordered (stateDelinfoOlderthan var cutoff t).1 :=
    StateOp.ordered_apply (.delinfoOlderthan var cutoff) now synced.1
  have ordered' : Ordered (stateDelinfo var u).1 := StateOp.ordered_apply (.delinfo var) now' synced.2.1
  have ret := StateOp.apply_snd (.delinfoOlderthan var cutoff) now t
  change (stateDelinfoOlderthan var cutoff t).2 = _ at ret
  by_cases deleted : (stateDelinfoOlderthan var cutoff t).2 = 1
  · rw [if_pos deleted]
    rw [deleted] at ret
    refine ⟨ordered, ordered', agree_stateVisit synced ?_ fun _ => .none⟩
    intro a b present agree
    rw [StateOp.var, present, Option.elim_some] at ret
    have gone : (StNode.delinfoOlderthan cutoff a).1 = none := by
      simp only [StateOp.found, StNode.delinfoOlderthan] at ret ⊢
      split_ifs at ret ⊢ <;> first | rfl | omega
    have gone' : (StNode.delinfo b).1 = none := by
      simp [StNode.delinfo, agree.2]
    rw [gone, gone']
    exact .none
  · rw [if_neg deleted]
    obtain ⟨_, orderedU, mutable, views⟩ := syncedTree_iff.mp synced
    refine syncedTree_iff.mpr ⟨ordered, orderedU, mutable, ?_⟩
    have whole : Deleted var t (stateDelinfoOlderthan var cutoff t).1 (stateDelinfoOlderthan var cutoff t).2 :=
      deleted_apply (show (StateOp.delinfoOlderthan var cutoff).isDelete = true from rfl) now synced.1
    rw [Deleted, if_neg deleted] at whole
    rw [whole, views]

theorem synced_setaux (var : CString) (aux : Int64) (now : Int) (synced : SyncedTree t u) :
    SyncedTree (stateVisit var (fun node => (some { node with aux }, ())) (none, ()) t).1
      (stateSetaux now var (printInt aux.toInt) u).1 := by
  have ordered' : Ordered (stateSetaux now var (printInt aux.toInt) u).1 :=
    StateOp.ordered_apply (.setaux var (printInt aux.toInt)) now synced.2.1
  refine ⟨ordered_stateVisit synced.1 ?_ ?_, ordered', agree_stateVisit synced ?_ fun _ => .none⟩
  · intro node node' kept
    cases kept
    rfl
  · intro node made
    cases made
  · intro a b _ agree
    simp only [StNode.modify, StNode.setaux, strtol_printInt_int64]
    refine .some ?_
    split <;> simp_all [Agree, StNode.view, StNode.immutable, StNode.refreshTimestamp]

theorem setFlag_words (flags : BitVec 32) :
    let heard := (flagWords flags).foldl setFlag 0
    hasFlag heard stFlagRw = hasFlag flags stFlagRw ∧
      hasFlag heard stFlagString = hasFlag flags stFlagString ∧
      hasFlag heard stFlagNumber = hasFlag flags stFlagNumber := by
  simp only [flagWords, hasFlag]
  split_ifs <;> simp_all <;> decide

theorem hasFlag_hidden {flags : BitVec 32} (none : flagWords flags = []) :
    hasFlag flags stFlagRw = false ∧ hasFlag flags stFlagString = false ∧ hasFlag flags stFlagNumber = false := by
  simp only [flagWords, hasFlag] at none ⊢
  split_ifs at none <;> simp_all

theorem synced_setflags (var : CString) (flags : BitVec 32) (now : Int) (synced : SyncedTree t u) :
    SyncedTree (stateVisit var (fun node => (some { node with flags }, ())) (none, ()) t).1
      (stateSetflags now var (flagWords flags) u) := by
  have ordered' : Ordered (stateSetflags now var (flagWords flags) u) :=
    StateOp.ordered_apply (.setflags var (flagWords flags)) now synced.2.1
  refine ⟨ordered_stateVisit synced.1 ?_ ?_, ordered', agree_stateVisit synced ?_ fun _ => .none⟩
  · intro node node' kept
    cases kept
    rfl
  · intro node made
    cases made
  · intro a b _ agree
    obtain ⟨rw, string, number⟩ := setFlag_words flags
    have mutable : (flagWords flags).foldl setFlag 0 &&& stFlagImmutable = 0 := setFlags_mutable (flagWords flags) rfl
    refine .some ⟨?_, ?_⟩
    · have same := agree.1
      simp only [StNode.view, StView.mk.injEq] at same ⊢
      simp_all [StNode.setflags, StNode.refreshTimestamp]
    · exact decide_eq_false (not_not.mpr mutable)

theorem synced_hidden {var : CString} {flags : BitVec 32} (synced : SyncedTree t u) (after : flagWords flags = [])
    (before : ∀ node, stateTreeFind t var = some node -> flagWords node.flags = []) :
    SyncedTree (stateVisit var (fun node => (some { node with flags }, ())) (none, ()) t).1 u := by
  obtain ⟨ordered, ordered', mutable, views⟩ := syncedTree_iff.mp synced
  refine syncedTree_iff.mpr ⟨ordered_stateVisit ordered ?_ ?_, ordered', mutable, ?_⟩
  · intro node node' kept
    cases kept
    rfl
  · intro node made
    cases made
  · rw [<- views]
    apply view_stateVisit
    · intro node present
      have none := before node present
      refine ⟨_, rfl, ?_⟩
      simp [StNode.view, hasFlag_hidden after, hasFlag_hidden none]
    · intro _
      rfl

end Trees

end Nut
