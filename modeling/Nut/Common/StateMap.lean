import Mathlib.Data.List.Induction
import Nut.Common.State

set_option autoImplicit false

namespace Nut

def Ordered (t : StTree) : Prop :=
  t.Ordered StNode.var strcasecmp

theorem ordered_stateVisit {ρ : Type} {t : StTree} {var : CString} (ordered : Ordered t)
    {found : StNode -> Option StNode × ρ} {missing : Option StNode × ρ}
    (keep : ∀ node node', (found node).1 = some node' -> node'.var = node.var)
    (fresh : ∀ node, missing.1 = some node -> node.var = var) : Ordered (stateVisit var found missing t).1 := by
  rw [stateVisit, SearchTree.visit_eq]
  apply SearchTree.ordered_alter _ _ ordered
  · intro node node' same kept
    rw [keep node node' kept]
    exact same
  · intro node made
    rw [fresh node made]
    exact strcasecmp_self var

inductive StateOp where
  | setinfo (var val : CString)
  | delinfo (var : CString)
  | delinfoOlderthan (var : CString) (cutoff : Int)
  | addenum (var val : CString)
  | delenum (var val : CString)
  | addrange (var : CString) (min max : Int32)
  | delrange (var : CString) (min max : Int32)
  | setaux (var auxs : CString)
  | setflags (var : CString) (flag : List CString)
  deriving DecidableEq

namespace StateOp

def var : StateOp -> CString
  | setinfo var _ | delinfo var | delinfoOlderthan var _ | addenum var _ | delenum var _
  | addrange var _ _ | delrange var _ _ | setaux var _ | setflags var _ => var

def isDelete : StateOp -> Bool
  | delinfo _ | delinfoOlderthan _ _ => true
  | _ => false

def apply (now : Int) (t : StTree) : StateOp -> StTree × Int
  | setinfo var val => stateSetinfo now var val t
  | delinfo var => stateDelinfo var t
  | delinfoOlderthan var cutoff => stateDelinfoOlderthan var cutoff t
  | addenum var val => stateAddenum now var val t
  | delenum var val => stateDelenum now var val t
  | addrange var min max => stateAddrange now var min max t
  | delrange var min max => stateDelrange now var min max t
  | setaux var auxs => stateSetaux now var auxs t
  | setflags var flag => (stateSetflags now var flag t, 0)

def found (now : Int) : StateOp -> StNode -> Option StNode × Int
  | setinfo _ val => StNode.setinfo now val
  | delinfo _ => StNode.delinfo
  | delinfoOlderthan _ cutoff => StNode.delinfoOlderthan cutoff
  | addenum _ val => StNode.modify now (StNode.addenum (pconfEncode val [] stMaxValueLen))
  | delenum _ val => StNode.modify now (StNode.delenum val)
  | addrange _ min max =>
    if min > max then fun node => (some node, 0) else StNode.modify now (StNode.addrange min max)
  | delrange _ min max => StNode.modify now (StNode.delrange min max)
  | setaux _ auxs => StNode.modify now (StNode.setaux (strtol auxs))
  | setflags _ flag => fun node => ((StNode.modify now (StNode.setflags flag) node).1, 0)

def missing (now : Int) : StateOp -> Option StNode × Int
  | setinfo var val => (some (StNode.fresh now var val), 1)
  | setaux _ _ => (none, -1)
  | _ => (none, 0)

theorem apply_eq (op : StateOp) (now : Int) (t : StTree) :
    op.apply now t = stateVisit op.var (op.found now) (op.missing now) t := by
  cases op with
  | addrange var min max =>
    by_cases reversed : min > max
    · simp only [apply, stateAddrange, found, reversed, if_true, stateVisit, SearchTree.visit_eq, missing]
      rw [SearchTree.alter_eq_self StNode.var strcasecmp (by simp) (by simp)]
      cases SearchTree.find? StNode.var strcasecmp (addrange var min max).var t <;> rfl
    · simp only [apply, stateAddrange, found, reversed, if_false]
      rfl
  | setflags var flag =>
    simp only [apply, stateSetflags, stateModify, stateVisit, SearchTree.visit_eq, found, missing]
    cases SearchTree.find? StNode.var strcasecmp (setflags var flag).var t <;> rfl
  | _ => rfl

def isMetadata : StateOp -> Bool
  | setinfo _ _ | delinfo _ | delinfoOlderthan _ _ => false
  | _ => true

theorem found_metadata {op : StateOp} (metadata : op.isMetadata = true) (now : Int) (node : StNode) :
    ∃ node', (op.found now node).1 = some node' ∧
      (node'.var, node'.raw, node'.val) = (node.var, node.raw, node.val) := by
  cases op with
  | setinfo | delinfo | delinfoOlderthan => simp [isMetadata] at metadata
  | addrange var min max =>
    by_cases reversed : min > max
    · exact ⟨node, by simp [found, reversed], rfl⟩
    · refine ⟨((node.refreshTimestamp now).addrange min max).1, ?_, rfl⟩
      simp only [found, reversed, if_false]
      rfl
  | setaux var auxs =>
    refine ⟨_, rfl, ?_⟩
    simp only [StNode.setaux]
    split <;> rfl
  | _ => exact ⟨_, rfl, rfl⟩

theorem missing_metadata {op : StateOp} (metadata : op.isMetadata = true) (now : Int) : (op.missing now).1 = none := by
  cases op <;> simp_all [isMetadata, missing]

theorem found_var (op : StateOp) (now : Int) {node node' : StNode}
    (kept : (op.found now node).1 = some node') : node'.var = node.var := by
  cases metadata : op.isMetadata with
  | true =>
    obtain ⟨other, changed, same⟩ := found_metadata metadata now node
    obtain rfl : other = node' := by simpa [changed] using kept
    exact congrArg Prod.fst same
  | false =>
    cases op <;> simp only [isMetadata, Bool.true_eq_false] at metadata <;>
      simp only [found, StNode.setinfo, StNode.delinfo, StNode.delinfoOlderthan] at kept <;>
      split_ifs at kept <;> cases kept <;> rfl

theorem missing_var (op : StateOp) (now : Int) {node : StNode}
    (made : (op.missing now).1 = some node) : node.var = op.var := by
  cases op <;> simp only [missing, reduceCtorEq, Option.some.injEq] at made
  subst made
  rfl

theorem apply_fst (op : StateOp) (now : Int) (t : StTree) : (op.apply now t).1 =
      t.alter StNode.var strcasecmp op.var (fun node => (op.found now node).1) (op.missing now).1 := by
  rw [apply_eq, stateVisit, SearchTree.visit_eq]

theorem apply_snd (op : StateOp) (now : Int) (t : StTree) : (op.apply now t).2 =
      (stateTreeFind t op.var).elim (op.missing now).2 fun node => (op.found now node).2 := by
  rw [apply_eq, stateVisit, SearchTree.visit_eq]
  rfl

section Map

variable (op : StateOp) (now : Int) {t : StTree}

theorem found_key (node node' : StNode) (same : strcasecmp node.var op.var = .eq)
    (kept : (op.found now node).1 = some node') : strcasecmp node'.var op.var = .eq := by
  rw [op.found_var now kept]
  exact same

theorem missing_key (node : StNode) (made : (op.missing now).1 = some node) : strcasecmp node.var op.var = .eq := by
  rw [op.missing_var now made]
  exact strcasecmp_self op.var

theorem ordered_apply (ordered : Ordered t) : Ordered (op.apply now t).1 := by
  rw [apply_fst]
  exact SearchTree.ordered_alter _ _ ordered (op.found_key now) (op.missing_key now)

theorem find_apply_self (ordered : Ordered t) : stateTreeFind (op.apply now t).1 op.var =
      (stateTreeFind t op.var).elim (op.missing now).1 fun node => (op.found now node).1 := by
  rw [apply_fst]
  exact SearchTree.find?_alter_self _ _ ordered (op.found_key now) (op.missing_key now)

theorem find_apply_other (ordered : Ordered t) {other : CString} (different : strcasecmp op.var other ≠ .eq) :
    stateTreeFind (op.apply now t).1 other = stateTreeFind t other := by
  rw [apply_fst]
  exact SearchTree.find?_alter_other _ _ ordered different (op.found_key now) (op.missing_key now)

end Map

end StateOp

theorem ordered_setinfo {t : StTree} (ordered : Ordered t) (now : Int) (var val : CString) :
    Ordered (stateSetinfo now var val t).1 := (StateOp.setinfo var val).ordered_apply now ordered

abbrev History := List (Int × StateOp)

def runOps (history : History) : StTree :=
  history.foldl (fun t step => (step.2.apply step.1 t).1) .nil

theorem runOps_append (history : History) (step : Int × StateOp) :
    runOps (history ++ [step]) = (step.2.apply step.1 (runOps history)).1 := by
  simp [runOps]

theorem ordered_runOps (history : History) : Ordered (runOps history) := by
  induction history using List.reverseRecOn with
  | nil => trivial
  | append_singleton history step ih =>
    rw [runOps_append]
    exact step.2.ordered_apply step.1 ih

theorem setFlag_mutable {flags : BitVec 32} (mutable : flags &&& stFlagImmutable = 0) (flag : CString) :
    setFlag flags flag &&& stFlagImmutable = 0 := by
  have bit (extra : BitVec 32) (apart : extra &&& stFlagImmutable = 0) : (flags ||| extra) &&& stFlagImmutable = 0 := by
    rw [BitVec.and_comm, BitVec.and_or_distrib_left, BitVec.and_comm stFlagImmutable flags,
      BitVec.and_comm stFlagImmutable extra, mutable, apart]
    rfl
  simp only [setFlag]
  split_ifs
  · exact bit _ (by decide)
  · exact bit _ (by decide)
  · exact bit _ (by decide)
  · exact mutable

theorem setFlags_mutable (flag : List CString) {flags : BitVec 32}
    (mutable : flags &&& stFlagImmutable = 0) : flag.foldl setFlag flags &&& stFlagImmutable = 0 := by
  induction flag generalizing flags with
  | nil => exact mutable
  | cons first rest ih => exact ih (setFlag_mutable mutable first)

theorem StateOp.found_flags (op : StateOp) (now : Int) {node node' : StNode}
    (kept : (op.found now node).1 = some node') :
    node'.flags = node.flags ∨ ∃ flag : List CString, node'.flags = flag.foldl setFlag 0 := by
  cases op with
  | setflags var flag =>
    cases kept
    exact Or.inr ⟨flag, rfl⟩
  | setaux var auxs =>
    cases kept
    simp only [StNode.setaux]
    split <;> exact Or.inl rfl
  | addrange var min max =>
    simp only [found] at kept
    split_ifs at kept <;> cases kept <;> exact Or.inl rfl
  | setinfo var val =>
    simp only [found, StNode.setinfo] at kept
    split_ifs at kept <;> cases kept <;> exact Or.inl rfl
  | delinfo var =>
    simp only [found, StNode.delinfo] at kept
    split_ifs at kept
    cases kept
    exact Or.inl rfl
  | delinfoOlderthan var cutoff =>
    simp only [found, StNode.delinfoOlderthan] at kept
    split_ifs at kept <;> cases kept <;> exact Or.inl rfl
  | _ =>
    cases kept
    exact Or.inl rfl

def Mutable (t : StTree) : Prop :=
  ∀ node ∈ t.toList, node.immutable = false

theorem StateOp.forall_apply (op : StateOp) (now : Int) {t : StTree} (ordered : Ordered t) {P : StNode -> Prop}
    (changed : ∀ node node', P node -> (op.found now node).1 = some node' -> P node')
    (made : ∀ node, (op.missing now).1 = some node -> P node) (all : ∀ node ∈ t.toList, P node) :
    ∀ node ∈ (op.apply now t).1.toList, P node := by
  intro node member
  rw [op.apply_fst, SearchTree.toList_alter _ _ _ _ _ ordered] at member
  obtain old | new | ⟨before, old, _, kept⟩ := SortedList.mem_alter _ _ member
  · exact all node old
  · exact made node new
  · exact changed before node (all before old) kept

theorem StateOp.mutable_apply (op : StateOp) (now : Int) {t : StTree} (ordered : Ordered t)
    (mutable : Mutable t) : Mutable (op.apply now t).1 := by
  have cleared (node : StNode) : node.immutable = false ↔ node.flags &&& stFlagImmutable = 0 := by
    simp [StNode.immutable]
  refine op.forall_apply now ordered ?_ ?_ mutable
  · intro before node flags kept
    rw [cleared] at flags ⊢
    obtain same | ⟨flag, assigned⟩ := op.found_flags now kept
    · rw [same, flags]
    · rw [assigned]
      exact setFlags_mutable flag rfl
  · intro node made
    cases op <;> simp only [missing, reduceCtorEq, Option.some.injEq] at made
    subst made
    exact (cleared _).mpr BitVec.zero_and

theorem mutable_runOps (history : History) : Mutable (runOps history) := by
  induction history using List.reverseRecOn with
  | nil => simp [Mutable, runOps]
  | append_singleton history step ih =>
    rw [runOps_append]
    exact step.2.mutable_apply step.1 (ordered_runOps history) ih

theorem stateTreeFind_iff {t : StTree} (ordered : Ordered t) {name : CString} {node : StNode} :
    stateTreeFind t name = some node ↔ node ∈ t.toList ∧ strcasecmp node.var name = .eq :=
  SearchTree.find?_eq_some_iff StNode.var strcasecmp ordered

theorem mem_iff_find {t : StTree} (ordered : Ordered t) {node : StNode} :
    node ∈ t.toList ↔ stateTreeFind t node.var = some node := by
  rw [stateTreeFind_iff ordered]
  simp

theorem stateTreeFind_congr {name name' : CString} (same : strcasecmp name name' = .eq) (t : StTree) :
    stateTreeFind t name = stateTreeFind t name' := SearchTree.find?_congr StNode.var strcasecmp same t

def Deleted (var : CString) (t t' : StTree) (ret : Int) : Prop :=
  if ret = 1 then
    (stateTreeFind t var).isSome ∧ stateTreeFind t' var = none ∧
      ∀ node, node ∈ t'.toList ↔ node ∈ t.toList ∧ strcasecmp var node.var ≠ .eq
  else t' = t

def SetNode (var val : CString) (before : Option StNode) (node : StNode) : Prop :=
  node.raw = val ∧ node.val = valEscape val ∧
    match before with
    | none =>
      node.var = var ∧ node.flags = 0 ∧ node.aux = 0 ∧ node.enumList = [] ∧ node.rangeList = []
    | some old =>
      node.var = old.var ∧ node.flags = old.flags ∧ node.aux = old.aux ∧
        node.enumList = old.enumList ∧ node.rangeList = old.rangeList

def MapStep (op : StateOp) (t t' : StTree) (ret : Int) : Prop :=
  (∀ other, strcasecmp op.var other ≠ .eq -> stateTreeFind t' other = stateTreeFind t other) ∧
    match op with
    | .setinfo var val =>
      (ret = 1 ↔ ∀ node, stateTreeFind t var = some node -> node.raw ≠ val) ∧
        ∃ node, stateTreeFind t' var = some node ∧ SetNode var val (stateTreeFind t var) node
    | .delinfo var =>
      Deleted var t t' ret ∧ (ret = 1 ↔ (stateTreeFind t var).isSome)
    | .delinfoOlderthan var cutoff =>
      Deleted var t t' ret ∧
        (ret = 1 ↔ ∃ node, stateTreeFind t var = some node ∧ node.lastset < cutoff)
    | _ =>
      t'.toList.map (fun node => (node.var, node.raw, node.val)) =
        t.toList.map (fun node => (node.var, node.raw, node.val))

theorem deleted_apply {op : StateOp} (delete : op.isDelete = true) (now : Int) {t : StTree}
    (ordered : Ordered t) : Deleted op.var t (op.apply now t).1 (op.apply now t).2 := by
  have afterwards := op.ordered_apply now ordered
  -- A delete returns 1 exactly where it drops the node.
  have dropped (node : StNode) : (op.found now node).2 = 1 ∧ (op.found now node).1 = none ∨
      (op.found now node).2 ≠ 1 ∧ (op.found now node).1 = some node := by
    cases op <;> simp only [StateOp.isDelete, Bool.false_eq_true] at delete
    · by_cases locked : node.immutable = true <;> simp [StateOp.found, StNode.delinfo, locked]
    · simp only [StateOp.found, StNode.delinfoOlderthan]
      split_ifs <;> simp
  have missing : op.missing now = (none, 0) := by
    cases op <;> simp_all [StateOp.isDelete, StateOp.missing]
  have self := op.find_apply_self now ordered
  rw [Deleted]
  by_cases success : (op.apply now t).2 = 1
  · rw [if_pos success]
    rw [op.apply_snd] at success
    cases present : stateTreeFind t op.var with
    | none => simp [present, missing] at success
    | some node =>
      rw [present, Option.elim_some] at self success
      have gone : (op.found now node).1 = none := by
        have := dropped node
        simp_all
      rw [gone] at self
      refine ⟨rfl, self, ?_⟩
      intro other
      by_cases same : strcasecmp op.var other.var = .eq
      · have absent : stateTreeFind (op.apply now t).1 other.var = none := by
          rw [<- stateTreeFind_congr same, self]
        simp only [same, ne_eq, not_true, and_false, iff_false]
        intro member
        rw [mem_iff_find afterwards, absent] at member
        cases member
      · have untouched := op.find_apply_other now ordered same
        rw [mem_iff_find afterwards, untouched, <- mem_iff_find ordered]
        simp [same]
  · rw [if_neg success, op.apply_fst]
    rw [op.apply_snd] at success
    apply SearchTree.alter_eq_self
    · intro node present
      rw [stateTreeFind, present, Option.elim_some] at success
      have := dropped node
      simp_all
    · intro _
      rw [missing]

theorem setNode_setinfo (now : Int) (var val : CString) {node : StNode} (free : node.immutable = false) :
    ((StNode.setinfo now val node).2 = 1 ↔ node.raw ≠ val) ∧
      ∃ node', (StNode.setinfo now val node).1 = some node' ∧ SetNode var val (some node) node' := by
  have free' : (node.refreshTimestamp now).immutable = false := free
  by_cases unchanged : node.raw = val
  · have same : (node.refreshTimestamp now).raw = val := unchanged
    have escaped : (node.refreshTimestamp now).val = valEscape val := by
      rw [<- same]
      exact (node.refreshTimestamp now).escaped
    simp only [StNode.setinfo, same, if_true]
    refine ⟨by simp [unchanged], node.refreshTimestamp now, rfl, same, escaped, ?_⟩
    exact ⟨rfl, rfl, rfl, rfl, rfl⟩
  · have differs : ¬ (node.refreshTimestamp now).raw = val := unchanged
    simp only [StNode.setinfo, differs, free', if_false, Bool.false_eq_true]
    refine ⟨by simp [unchanged], (node.refreshTimestamp now).setRaw val, rfl, rfl, rfl, ?_⟩
    exact ⟨rfl, rfl, rfl, rfl, rfl⟩

theorem mapStep_apply (op : StateOp) (now : Int) {t : StTree} (ordered : Ordered t)
    (mutable : Mutable t) : MapStep op t (op.apply now t).1 (op.apply now t).2 := by
  have unlocked (name : CString) (node : StNode) (present : stateTreeFind t name = some node) :
      node.immutable = false := mutable node ((stateTreeFind_iff ordered).mp present).1
  refine ⟨fun other => op.find_apply_other now ordered, ?_⟩
  have self := op.find_apply_self now ordered
  have ret := op.apply_snd now t
  cases metadata : op.isMetadata with
  | true =>
    have same : (op.apply now t).1.toList.map (fun node => (node.var, node.raw, node.val)) =
        t.toList.map (fun node => (node.var, node.raw, node.val)) := by
      rw [op.apply_fst, StateOp.missing_metadata metadata now]
      exact SearchTree.map_alter _ _ _ (fun node _ => op.found_metadata metadata now node) fun _ => rfl
    cases op <;> first | exact same | simp [StateOp.isMetadata] at metadata
  | false =>
    cases op <;> simp only [StateOp.isMetadata, Bool.true_eq_false] at metadata
    case setinfo var val =>
      simp only [StateOp.var] at self ret
      cases present : stateTreeFind t var with
      | none =>
        rw [present] at self ret
        rw [ret]
        refine ⟨by simp [StateOp.missing, present], _, self, ?_⟩
        rw [present]
        exact ⟨rfl, rfl, rfl, rfl, rfl, rfl, rfl⟩
      | some node =>
        obtain ⟨changed, node', kept, set⟩ := setNode_setinfo now var val (unlocked var node present)
        rw [present] at self ret
        refine ⟨?_, node', by rw [self]; exact kept, by rw [present]; exact set⟩
        rw [ret, Option.elim_some]
        change (StNode.setinfo now val node).2 = 1 ↔ _
        rw [changed, present]
        simp
    case delinfo var =>
      refine ⟨deleted_apply rfl now ordered, ?_⟩
      rw [ret]
      simp only [StateOp.var]
      cases present : stateTreeFind t var with
      | none => simp [StateOp.missing]
      | some node => simp [StateOp.found, StNode.delinfo, unlocked var node present]
    case delinfoOlderthan var cutoff =>
      refine ⟨deleted_apply rfl now ordered, ?_⟩
      rw [ret]
      simp only [StateOp.var]
      cases present : stateTreeFind t var with
      | none => simp [StateOp.missing]
      | some node =>
        have free := unlocked var node present
        by_cases old : node.lastset < cutoff
        · simp [StateOp.found, StNode.delinfoOlderthan, free, stTreeNodeCompareTimestamp, old]
        · have recent : stTreeNodeCompareTimestamp node cutoff ≥ 0 := by
            rw [stTreeNodeCompareTimestamp, if_neg old]
            split <;> omega
          simp [StateOp.found, StNode.delinfoOlderthan, free, recent, old]

def SetAt (history : History) (name : CString) (i : Nat) : Prop :=
  ∃ now var val, history[i]? = some (now, .setinfo var val) ∧ strcasecmp var name = .eq

def DeletedAt (history : History) (name : CString) (i : Nat) : Prop :=
  ∃ now op, history[i]? = some (now, op) ∧ op.isDelete = true ∧ strcasecmp op.var name = .eq ∧
    (op.apply now (runOps (history.take i))).2 = 1

def SetSince (history : History) (name : CString) : Prop :=
  ∃ i, SetAt history name i ∧ ∀ j, i < j -> ¬ DeletedAt history name j

theorem getElem?_append_iff (history : History) (step found : Int × StateOp) (i : Nat) :
    (history ++ [step])[i]? = some found ↔ history[i]? = some found ∨ i = history.length ∧ step = found := by
  by_cases inside : i < history.length
  · have other : i ≠ history.length := by omega
    simp [List.getElem?_append_left inside, other]
  · have outside : history[i]? = none := List.getElem?_eq_none (by omega)
    rw [List.getElem?_append_right (by omega), outside]
    by_cases last : i = history.length
    · simp [last]
    · have beyond : ([step] : History)[i - history.length]? = none :=
        List.getElem?_eq_none (by simp; omega)
      simp [beyond, last]

def Sets (op : StateOp) (name : CString) : Prop :=
  ∃ var val, op = .setinfo var val ∧ strcasecmp var name = .eq

theorem setAt_append (history : History) (now : Int) (op : StateOp) (name : CString) (i : Nat) :
    SetAt (history ++ [(now, op)]) name i ↔ SetAt history name i ∨ i = history.length ∧ Sets op name := by
  simp only [SetAt, Sets, getElem?_append_iff, Prod.mk.injEq]
  constructor
  · rintro ⟨_, var, val, earlier | ⟨last, _, rfl⟩, same⟩
    · exact Or.inl ⟨_, var, val, earlier, same⟩
    · exact Or.inr ⟨last, var, val, rfl, same⟩
  · rintro (⟨before, var, val, earlier, same⟩ | ⟨last, var, val, rfl, same⟩)
    · exact ⟨before, var, val, Or.inl earlier, same⟩
    · exact ⟨now, var, val, Or.inr ⟨last, rfl, rfl⟩, same⟩

theorem setAt_lt {history : History} {name : CString} {i : Nat} (set : SetAt history name i) : i < history.length := by
  obtain ⟨_, _, _, present, _⟩ := set
  exact (List.getElem?_eq_some_iff.mp present).1

theorem deletedAt_lt {history : History} {name : CString} {i : Nat} (deleted : DeletedAt history name i) :
    i < history.length := by
  obtain ⟨_, _, present, _⟩ := deleted
  exact (List.getElem?_eq_some_iff.mp present).1

def Deletes (now : Int) (op : StateOp) (t : StTree) (name : CString) : Prop :=
  op.isDelete = true ∧ strcasecmp op.var name = .eq ∧ (op.apply now t).2 = 1

theorem deletedAt_append (history : History) (now : Int) (op : StateOp) (name : CString) (i : Nat) :
    DeletedAt (history ++ [(now, op)]) name i ↔
      DeletedAt history name i ∨ i = history.length ∧ Deletes now op (runOps history) name := by
  by_cases inside : i < history.length
  · have other : i ≠ history.length := by omega
    simp [DeletedAt, inside, List.getElem?_append_left inside, List.take_append_of_le_length (Nat.le_of_lt inside),
      other]
  · by_cases last : i = history.length
    · subst last
      simp [DeletedAt, Deletes]
    · have absent : ¬ DeletedAt history name i := fun deleted => inside (deletedAt_lt deleted)
      simp only [absent, last, false_and, or_false, iff_false]
      intro deleted
      have := deletedAt_lt deleted
      simp at this
      omega

theorem setSince_append (history : History) (now : Int) (op : StateOp) (name : CString) :
    SetSince (history ++ [(now, op)]) name ↔
      Sets op name ∨ SetSince history name ∧ ¬ Deletes now op (runOps history) name := by
  simp only [SetSince, setAt_append, deletedAt_append]
  constructor
  · intro ⟨i, set, kept⟩
    obtain earlier | ⟨_, sets⟩ := set
    · refine Or.inr ⟨⟨i, earlier, fun j after deleted => kept j after (Or.inl deleted)⟩, ?_⟩
      intro deletes
      exact kept history.length (setAt_lt earlier) (Or.inr ⟨rfl, deletes⟩)
    · exact Or.inl sets
  · intro live
    obtain sets | ⟨⟨i, earlier, kept⟩, survives⟩ := live
    · refine ⟨history.length, Or.inr ⟨rfl, sets⟩, ?_⟩
      intro j after deleted
      obtain deleted | ⟨last, _⟩ := deleted
      · have := deletedAt_lt deleted
        omega
      · omega
    · refine ⟨i, Or.inl earlier, ?_⟩
      intro j after deleted
      obtain deleted | ⟨_, deletes⟩ := deleted
      · exact kept j after deleted
      · exact survives deletes

theorem find_deleted_iff {op : StateOp} (delete : op.isDelete = true) {now : Int} {t : StTree}
    {name : CString} (named : strcasecmp op.var name = .eq)
    (deleted : Deleted op.var t (op.apply now t).1 (op.apply now t).2) :
    (stateTreeFind (op.apply now t).1 op.var).isSome ↔
      Sets op name ∨ (stateTreeFind t op.var).isSome ∧ ¬ Deletes now op t name := by
  have notSets : ¬ Sets op name := by
    intro ⟨var, val, made, _⟩
    simp [made, StateOp.isDelete] at delete
  simp only [Deleted] at deleted
  by_cases success : (op.apply now t).2 = 1
  · rw [if_pos success] at deleted
    simp [deleted.2.1, notSets, Deletes, delete, named, success]
  · rw [if_neg success] at deleted
    simp [deleted, notSets, Deletes, success]

theorem find_metadata_iff {op : StateOp} (metadata : op.isMetadata = true) {now : Int} {t : StTree}
    (ordered : Ordered t) (name : CString) : (stateTreeFind (op.apply now t).1 op.var).isSome ↔
      Sets op name ∨ (stateTreeFind t op.var).isSome ∧ ¬ Deletes now op t name := by
  have notSets : ¬ Sets op name := by
    intro ⟨var, val, made, _⟩
    simp [made, StateOp.isMetadata] at metadata
  have notDeletes : ¬ Deletes now op t name := by
    intro ⟨delete, _⟩
    cases op <;> simp_all [StateOp.isMetadata, StateOp.isDelete]
  rw [op.find_apply_self now ordered, StateOp.missing_metadata metadata now]
  cases present : stateTreeFind t op.var with
  | none => simp [notSets]
  | some node =>
    obtain ⟨node', kept, _⟩ := StateOp.found_metadata metadata now node
    simp [kept, notSets, notDeletes]

theorem find_apply_iff (op : StateOp) (now : Int) {t : StTree} (ordered : Ordered t)
    (mutable : Mutable t) (name : CString) : (stateTreeFind (op.apply now t).1 name).isSome ↔
      Sets op name ∨ (stateTreeFind t name).isSome ∧ ¬ Deletes now op t name := by
  have step := mapStep_apply op now ordered mutable
  by_cases named : strcasecmp op.var name = .eq
  · rw [<- stateTreeFind_congr named, <- stateTreeFind_congr named]
    cases op with
    | setinfo var val =>
      obtain ⟨node, present, _⟩ := step.2.2
      have sets : Sets (.setinfo var val) name := ⟨var, val, rfl, named⟩
      simp only [StateOp.var]
      simp [present, sets]
    | delinfo var => exact find_deleted_iff rfl named step.2.1
    | delinfoOlderthan var cutoff => exact find_deleted_iff rfl named step.2.1
    | _ => exact find_metadata_iff rfl ordered name
  · rw [step.1 name named]
    have notSets : ¬ Sets op name := by
      intro ⟨var, val, made, same⟩
      subst made
      exact named same
    simp [notSets, Deletes, named]

theorem find_iff_setSince (history : History) (name : CString) :
    (stateTreeFind (runOps history) name).isSome ↔ SetSince history name := by
  induction history using List.reverseRecOn with
  | nil => simp [runOps, stateTreeFind, SearchTree.find?, SetSince, SetAt]
  | append_singleton history step ih =>
    rw [runOps_append, setSince_append, <- ih]
    exact find_apply_iff step.2 step.1 (ordered_runOps history) (mutable_runOps history) name

-- The tree is a finite map from names, up to case, to entries.
theorem state_tree_is_map (history : History) : Ordered (runOps history) ∧
      (runOps history).toList.Pairwise (fun a b => strcasecmp a.var b.var ≠ .eq) ∧
      (∀ now op, MapStep op (runOps history) (op.apply now (runOps history)).1 (op.apply now (runOps history)).2) ∧
      ∀ name, (stateTreeFind (runOps history) name).isSome ↔ SetSince history name := by
  have ordered := ordered_runOps history
  refine ⟨ordered, ?_, ?_, find_iff_setSince history⟩
  · have sorted := (SearchTree.ordered_iff_sorted _ _ _).mp ordered
    apply sorted.imp
    intro a b below
    simp [below]
  · intro now op
    exact mapStep_apply op now ordered (mutable_runOps history)

end Nut
