import Nut.Drivers.Status

set_option autoImplicit false

namespace Nut

def held (t : StTree) (var : CString) : Option CString :=
  (stateTreeFind t var).map StNode.raw

section Held

variable {t : StTree} {var other : CString}

theorem held_congr (same : strcasecmp var other = .eq) (t : StTree) : held t var = held t other :=
  congrArg (Option.map StNode.raw) (stateTreeFind_congr same t)

theorem find_visit_other {ρ : Type} (ordered : Ordered t) {found : StNode -> Option StNode × ρ} {missing : Option StNode × ρ}
    (keep : ∀ node node', (found node).1 = some node' -> node'.var = node.var)
    (fresh : ∀ node, missing.1 = some node -> node.var = var) (different : strcasecmp var other ≠ .eq) :
    stateTreeFind (stateVisit var found missing t).1 other = stateTreeFind t other := by
  rw [stateVisit, SearchTree.visit_eq]
  refine SearchTree.find?_alter_other _ _ ordered different ?_ ?_
  · intro node node' same kept
    rw [keep node node' kept]
    exact same
  · intro node made
    rw [fresh node made]
    exact strcasecmp_self var

theorem find_visit_self {ρ : Type} (ordered : Ordered t) {found : StNode -> Option StNode × ρ} {missing : Option StNode × ρ}
    (keep : ∀ node node', (found node).1 = some node' -> node'.var = node.var)
    (fresh : ∀ node, missing.1 = some node -> node.var = var) : stateTreeFind (stateVisit var found missing t).1 var =
      (stateTreeFind t var).elim missing.1 fun node => (found node).1 := by
  rw [stateVisit, SearchTree.visit_eq]
  refine SearchTree.find?_alter_self _ _ ordered ?_ ?_
  · intro node node' same kept
    rw [keep node node' kept]
    exact same
  · intro node made
    rw [fresh node made]
    exact strcasecmp_self var

theorem held_visit {ρ : Type} (ordered : Ordered t) {found : StNode -> Option StNode × ρ} {failed : ρ}
    (keeps : ∀ node, ∃ node', (found node).1 = some node' ∧ node'.var = node.var ∧ node'.raw = node.raw) (other : CString) :
    held (stateVisit var found (none, failed) t).1 other = held t other := by
  have keep : ∀ node node', (found node).1 = some node' -> node'.var = node.var := by
    intro node node' kept
    obtain ⟨_, kept', var_, -⟩ := keeps node
    rw [kept, Option.some.injEq] at kept'
    rw [kept', var_]
  have fresh : ∀ node, ((none, failed) : Option StNode × ρ).1 = some node -> node.var = var := fun _ made => by cases made
  by_cases same : strcasecmp var other = .eq
  · rw [<- held_congr same, <- held_congr same, held, find_visit_self ordered keep fresh, held]
    cases stateTreeFind t var with
    | none => rfl
    | some node =>
      obtain ⟨node', kept, -, raw⟩ := keeps node
      rw [Option.elim_some, kept, Option.map_some, Option.map_some, raw]
  · rw [held, find_visit_other ordered keep fresh same, held]

theorem ordered_visit {ρ : Type} (ordered : Ordered t) {found : StNode -> Option StNode × ρ} {failed : ρ}
    (keep : ∀ node node', (found node).1 = some node' -> node'.var = node.var) :
    Ordered (stateVisit var found (none, failed) t).1 := ordered_stateVisit ordered keep fun _ made => by cases made

theorem setinfo_var {now : Int} {val : CString} (node node' : StNode) (kept : (StNode.setinfo now val node).1 = some node') :
    node'.var = node.var := StateOp.found_var (.setinfo [] val) now kept

theorem fresh_var {now : Int} {val : CString} (node : StNode)
    (made : ((some (StNode.fresh now var val), 1) : Option StNode × Int).1 = some node) : node.var = var :=
  StateOp.missing_var (.setinfo var val) now made

theorem delinfo_var (node node' : StNode) (kept : node.delinfo.1 = some node') : node'.var = node.var :=
  StateOp.found_var (.delinfo []) 0 kept

def Fixed (t : StTree) (var : CString) : Prop :=
  ∃ node, stateTreeFind t var = some node ∧ node.immutable = true

theorem held_setinfo (ordered : Ordered t) (now : Int) (val : CString) :
    held (stateSetinfo now var val t).1 var = some val ∨
      Fixed t var ∧ held (stateSetinfo now var val t).1 var = held t var := by
  have self : stateTreeFind (stateSetinfo now var val t).1 var =
      (stateTreeFind t var).elim (some (StNode.fresh now var val)) fun node => (StNode.setinfo now val node).1 :=
    find_visit_self ordered (@setinfo_var now val) (@fresh_var var now val)
  rw [held, self, held]
  cases present : stateTreeFind t var with
  | none => exact .inl rfl
  | some node =>
    simp only [Option.elim_some, StNode.setinfo]
    by_cases unchanged : (node.refreshTimestamp now).raw = val
    · rw [if_pos unchanged]
      exact .inl (congrArg some unchanged)
    · rw [if_neg unchanged]
      by_cases fixed : (node.refreshTimestamp now).immutable = true
      · rw [if_pos fixed]
        exact .inr ⟨⟨node, present, fixed⟩, rfl⟩
      · rw [if_neg fixed]
        exact .inl rfl

theorem find_setinfo_other (ordered : Ordered t) (now : Int) (val : CString) (different : strcasecmp var other ≠ .eq) :
    stateTreeFind (stateSetinfo now var val t).1 other = stateTreeFind t other :=
  find_visit_other ordered (@setinfo_var now val) (@fresh_var var now val) different

theorem held_delinfo_other (ordered : Ordered t) (different : strcasecmp var other ≠ .eq) :
    held (stateDelinfo var t).1 other = held t other :=
  congrArg (Option.map StNode.raw) (find_visit_other ordered (delinfo_var) (fun _ made => by cases made) different)

theorem held_delinfo (ordered : Ordered t) (kept : held t var = none ∨ Fixed t var) :
    held (stateDelinfo var t).1 var = held t var := by
  have self : stateTreeFind (stateDelinfo var t).1 var = (stateTreeFind t var).elim none fun node => node.delinfo.1 :=
    find_visit_self ordered (delinfo_var) fun _ made => by cases made
  rw [held, self, held]
  rcases kept with absent | ⟨node, present, fixed⟩
  · rw [held, Option.map_eq_none_iff] at absent
    rw [absent]
    rfl
  · rw [present, Option.elim_some, StNode.delinfo, if_pos fixed]

theorem held_delinfo_gone (ordered : Ordered t) (free : ¬ Fixed t var) : held (stateDelinfo var t).1 var = none := by
  have self : stateTreeFind (stateDelinfo var t).1 var = (stateTreeFind t var).elim none fun node => node.delinfo.1 :=
    find_visit_self ordered (delinfo_var) fun _ made => by cases made
  rw [held, self]
  cases present : stateTreeFind t var with
  | none => rfl
  | some node => rw [Option.elim_some, StNode.delinfo, if_neg fun fixed => free ⟨node, present, fixed⟩, Option.map_none]

structure Besides (var : CString) (t t' : StTree) : Prop where
  ordered : Ordered t'
  held : ∀ other, held t' other = held t other
  others : ∀ other, strcasecmp var other ≠ .eq -> stateTreeFind t' other = stateTreeFind t other

theorem besides_refl (ordered : Ordered t) (var : CString) : Besides var t t := ⟨ordered, fun _ => rfl, fun _ _ => rfl⟩

theorem besides_visit {ρ : Type} (ordered : Ordered t) {found : StNode -> Option StNode × ρ} {failed : ρ}
    (keeps : ∀ node, ∃ node', (found node).1 = some node' ∧ node'.var = node.var ∧ node'.raw = node.raw) :
    Besides var t (stateVisit var found (none, failed) t).1 := by
  have keep : ∀ node node', (found node).1 = some node' -> node'.var = node.var := by
    intro node node' kept
    obtain ⟨_, kept', var_, -⟩ := keeps node
    rw [kept, Option.some.injEq] at kept'
    rw [kept', var_]
  exact ⟨ordered_visit ordered keep, held_visit ordered keeps,
    fun other different => find_visit_other ordered keep (fun _ made => by cases made) different⟩

theorem besides_setflags {d : Dstate} (ordered : Ordered d.dtreeRoot) (flags : BitVec 32) :
    Besides var d.dtreeRoot (d.dstateSetflags var flags).1.dtreeRoot := by
  unfold Dstate.dstateSetflags
  split
  · exact besides_refl ordered var
  · split
    · exact besides_refl ordered var
    · split
      · exact besides_refl ordered var
      · exact besides_visit ordered fun node => ⟨{ node with flags }, rfl, rfl, rfl⟩

theorem besides_setaux {d : Dstate} (ordered : Ordered d.dtreeRoot) (aux : Int64) :
    Besides var d.dtreeRoot (d.dstateSetaux var aux).1.dtreeRoot := by
  unfold Dstate.dstateSetaux
  split
  · exact besides_refl ordered var
  · split
    · exact besides_refl ordered var
    · exact besides_visit ordered fun node => ⟨{ node with aux }, rfl, rfl, rfl⟩

end Held

section Calls

theorem ordered_dstate {d : Dstate} (ordered : Ordered d.dtreeRoot) (now : Int) (op : DstateOp) :
    Ordered (op.apply now d).1.dtreeRoot := by
  have flags (var : CString) {d : Dstate} (ordered : Ordered d.dtreeRoot) (flags : BitVec 32) :
      Ordered (d.dstateSetflags var flags).1.dtreeRoot := (besides_setflags ordered flags).ordered
  have added (var : CString) {d : Dstate} (ordered : Ordered d.dtreeRoot) (flags_ : BitVec 32) :
      Ordered (d.dstateAddflags var flags_).1.dtreeRoot := by
    unfold Dstate.dstateAddflags
    dsimp only
    split_ifs
    · exact ordered
    · exact ordered
    · exact flags var ordered _
  cases op with
  | setinfo var text => exact (StateOp.setinfo var _).ordered_apply now ordered
  | addenum var text => exact (StateOp.addenum var _).ordered_apply now ordered
  | delenum var val => exact (StateOp.delenum var val).ordered_apply now ordered
  | addrange var min max =>
    have ranged := (StateOp.addrange var min max).ordered_apply now ordered
    unfold DstateOp.apply Dstate.dstateAddrange
    dsimp only
    split
    · exact added var ranged stFlagNumber
    · exact ranged
  | delrange var min max => exact (StateOp.delrange var min max).ordered_apply now ordered
  | setflags var flags_ => exact flags var ordered flags_
  | addflags var flags_ => exact added var ordered flags_
  | delflags var flags_ =>
    unfold DstateOp.apply Dstate.dstateDelflags
    dsimp only
    split_ifs
    · exact ordered
    · exact ordered
    · exact flags var ordered _
  | setaux var aux => exact (besides_setaux ordered aux).ordered
  | delinfo var => exact (StateOp.delinfo var).ordered_apply now ordered
  | delinfoOlderthan var cutoff => exact (StateOp.delinfoOlderthan var cutoff).ordered_apply now ordered
  | addcmd | delcmd => exact ordered
  | dataok =>
    unfold DstateOp.apply Dstate.dstateDataok
    dsimp only
    split <;> exact ordered
  | datastale =>
    unfold DstateOp.apply Dstate.dstateDatastale
    dsimp only
    split <;> exact ordered

theorem commit_setinfo (now : Int) (trend : Trend) (s : Status) :
    ∃ text, (s.statusCommit now trend).dstate = (Dstate.vdstateSetinfo now (cstr "ups.status") text s.dstate).1 := by
  have lb : s.appendLB.dstate = s.dstate := by
    unfold Status.appendLB
    split_ifs <;> rfl
  have charge : ∀ s : Status, (s.addCharge trend).dstate = s.dstate := by
    intro s
    unfold Status.addCharge
    split_ifs
    · split <;> rfl
    · rfl
  refine ⟨(s.appendLB.addCharge trend).statusText, ?_⟩
  rw [<- lb, <- charge s.appendLB]
  rfl

theorem ordered_perform {s : Status} (ordered : Ordered s.dstate.dtreeRoot) (op : StatusOp) :
    Ordered (s.perform op).dstate.dtreeRoot := by
  cases op with
  | dstate now op => exact ordered_dstate ordered now op
  | statusCommit now trend =>
    obtain ⟨text, committed⟩ := commit_setinfo now trend s
    exact (congrArg Dstate.dtreeRoot committed).symm ▸ ordered_setinfo ordered now _ _
  | alarmSet buf =>
    unfold Status.perform Status.alarmSet
    dsimp only
    split <;> exact ordered
  | alarmCommit now =>
    unfold Status.perform Status.alarmCommit
    dsimp only
    split
    · exact ordered_setinfo ordered now _ _
    · exact (StateOp.delinfo _).ordered_apply now ordered
  | statusInit | statusSet | alarmInit => exact ordered

end Calls

end Nut
