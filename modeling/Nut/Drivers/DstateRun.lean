import Nut.Common.StateMap
import Nut.Drivers.DstateLines

set_option autoImplicit false

namespace Nut

-- One call that a driver makes on its state.
inductive DstateOp where
  | setinfo (var text : CString)
  | addenum (var text : CString)
  | delenum (var val : CString)
  | addrange (var : CString) (min max : Int32)
  | delrange (var : CString) (min max : Int32)
  | setflags (var : CString) (flags : BitVec 32)
  | addflags (var : CString) (flags : BitVec 32)
  | delflags (var : CString) (flags : BitVec 32)
  | setaux (var : CString) (aux : Int64)
  | delinfo (var : CString)
  | delinfoOlderthan (var : CString) (cutoff : Int)
  | addcmd (cmd : CString)
  | delcmd (cmd : CString)
  | dataok
  | datastale
  deriving DecidableEq

namespace DstateOp

open Dstate in
def apply (now : Int) (d : Dstate) : DstateOp -> Dstate × List CString
  | setinfo var text => let r := vdstateSetinfo now var text d; (r.1, r.2.1)
  | addenum var text => let r := vdstateAddenum now var text d; (r.1, r.2.1)
  | delenum var val => let r := dstateDelenum now var val d; (r.1, r.2.1)
  | addrange var min max => let r := dstateAddrange now var min max d; (r.1, r.2.1)
  | delrange var min max => let r := dstateDelrange now var min max d; (r.1, r.2.1)
  | setflags var flags => let r := dstateSetflags var flags d; (r.1, r.2.1)
  | addflags var flags => let r := dstateAddflags var flags d; (r.1, r.2.1)
  | delflags var flags => let r := dstateDelflags var flags d; (r.1, r.2.1)
  | setaux var aux => let r := dstateSetaux var aux d; (r.1, r.2.1)
  | delinfo var => let r := dstateDelinfo var d; (r.1, r.2.1)
  | delinfoOlderthan var cutoff => let r := dstateDelinfoOlderthan var cutoff d; (r.1, r.2.1)
  | addcmd cmd => let r := dstateAddcmd cmd d; (r.1, r.2.1)
  | delcmd cmd => let r := dstateDelcmd cmd d; (r.1, r.2.1)
  | dataok => let r := dstateDataok d; (r.1, r.2.1)
  | datastale => let r := dstateDatastale d; (r.1, r.2.1)

-- Names and values are as drivers choose them; the length of a value is not limited.
def Printable : DstateOp -> Prop
  | setinfo var text | addenum var text => IsName var ∧ ∀ b ∈ text, isText b = true
  | delenum var _ | addrange var _ _ | delrange var _ _ | setflags var _ | addflags var _
  | delflags var _ | setaux var _ | delinfo var | delinfoOlderthan var _ => IsName var
  | addcmd cmd | delcmd cmd => IsName cmd
  | dataok | datastale => True

end DstateOp

inductive Dstate.Reachable : Dstate -> Prop where
  | start : Reachable Dstate.empty
  | call {d : Dstate} (reachable : Reachable d) (now : Int) {op : DstateOp} (printable : op.Printable) :
      Reachable (op.apply now d).1

def Encoded (item : CString) : Prop :=
  ∃ src, (∀ b ∈ src, isText b = true) ∧ item = pconfEncode src [] stMaxValueLen

structure NodeOk (node : StNode) : Prop where
  name : IsName node.var
  raw : ∀ b ∈ node.raw, isText b = true
  enums : node.enumList.Nodup
  encoded : ∀ item ∈ node.enumList, Encoded item
  ranges : node.rangeList.Pairwise fun a b => a.1 ≠ b.1 ∧ a.2 ≠ b.2
  bounds : ∀ range ∈ node.rangeList, ¬ range.1 > range.2

structure DstateOk (d : Dstate) : Prop where
  ordered : Ordered d.dtreeRoot
  nodes : ∀ node ∈ d.dtreeRoot.toList, NodeOk node
  sorted : SortedList.Sorted id strcasecmp d.cmdhead
  cmds : ∀ cmd ∈ d.cmdhead, IsName cmd

def TreeOk (t : StTree) : Prop :=
  Ordered t ∧ ∀ node ∈ t.toList, NodeOk node

theorem treeOk_stateVisit {ρ : Type} {t : StTree} {var : CString} (ok : TreeOk t)
    {found : StNode -> Option StNode × ρ} {missing : Option StNode × ρ}
    (keep : ∀ node node', (found node).1 = some node' -> node'.var = node.var)
    (fresh : ∀ node, missing.1 = some node -> node.var = var ∧ NodeOk node)
    (kept : ∀ node node', NodeOk node -> (found node).1 = some node' -> NodeOk node') :
    TreeOk (stateVisit var found missing t).1 := by
  refine ⟨ordered_stateVisit ok.1 keep fun node made => (fresh node made).1, ?_⟩
  intro node member
  rw [stateVisit, SearchTree.visit_eq, SearchTree.toList_alter _ _ _ _ _ ok.1] at member
  obtain old | made | ⟨before, old, _, changed⟩ := SortedList.mem_alter _ _ member
  · exact ok.2 node old
  · exact (fresh node made).2
  · exact kept before node (ok.2 before old) changed

theorem StNode.setinfo_raw {now : Int} {val : CString} {node node' : StNode}
    (kept : (StNode.setinfo now val node).1 = some node') :
    node'.var = node.var ∧ (node'.raw = node.raw ∨ node'.raw = val) ∧
      node'.enumList = node.enumList ∧ node'.rangeList = node.rangeList := by
  simp only [StNode.setinfo] at kept
  split_ifs at kept <;> cases kept
  · exact ⟨rfl, Or.inl rfl, rfl, rfl⟩
  · exact ⟨rfl, Or.inl rfl, rfl, rfl⟩
  · exact ⟨rfl, Or.inr rfl, rfl, rfl⟩

theorem nodeOk_setinfo {now : Int} {val : CString} {node node' : StNode} (ok : NodeOk node)
    (printable : ∀ b ∈ val, isText b = true) (kept : (StNode.setinfo now val node).1 = some node') : NodeOk node' := by
  obtain ⟨sameVar, raw, enums, ranges⟩ := StNode.setinfo_raw kept
  constructor
  · rw [sameVar]
    exact ok.name
  · obtain same | changed := raw
    · rw [same]
      exact ok.raw
    · rw [changed]
      exact printable
  · rw [enums]
    exact ok.enums
  · rw [enums]
    exact ok.encoded
  · rw [ranges]
    exact ok.ranges
  · rw [ranges]
    exact ok.bounds

theorem nodeOk_addenum {val : CString} {node : StNode} (ok : NodeOk node) (printable : ∀ b ∈ val, isText b = true) :
    NodeOk (node.addenum (pconfEncode val [] stMaxValueLen)).1 := by
  simp only [StNode.addenum, stTreeEnumAdd_eq]
  split
  next => exact { ok with }
  next fresh =>
    refine { ok with enums := ?_, encoded := ?_ }
    · refine List.pairwise_append.mpr ⟨ok.enums, List.pairwise_singleton _ _, ?_⟩
      intro item old new isNew same
      obtain rfl := List.mem_singleton.mp isNew
      exact fresh (same ▸ old)
    · intro item member
      obtain old | new := List.mem_append.mp member
      · exact ok.encoded item old
      · obtain rfl := List.mem_singleton.mp new
        exact ⟨val, printable, rfl⟩

theorem nodeOk_delenum {val : CString} {node : StNode} (ok : NodeOk node) : NodeOk (node.delenum val).1 := by
  have sub := stTreeDelEnum_sublist val node.enumList
  exact { ok with enums := ok.enums.sublist sub, encoded := fun item member => ok.encoded item (sub.subset member) }

theorem nodeOk_addrange {min max : Int32} {node : StNode} (ok : NodeOk node) (order : ¬ min > max) :
    NodeOk (node.addrange min max).1 := by
  simp only [StNode.addrange, stTreeRangeAdd_eq]
  split
  next => exact { ok with }
  next fresh =>
    have apart : ∀ item ∈ node.rangeList, item.1 ≠ min ∧ item.2 ≠ max := by
      simpa [rangeHit] using fresh
    refine { ok with ranges := ?_, bounds := ?_ }
    · refine List.pairwise_append.mpr ⟨ok.ranges, List.pairwise_singleton _ _, ?_⟩
      intro item old new isNew
      obtain rfl := List.mem_singleton.mp isNew
      exact apart item old
    · intro range member
      obtain old | new := List.mem_append.mp member
      · exact ok.bounds range old
      · obtain rfl := List.mem_singleton.mp new
        exact order

theorem nodeOk_delrange {min max : Int32} {node : StNode} (ok : NodeOk node) : NodeOk (node.delrange min max).1 := by
  have sub := stTreeDelRange_sublist min max node.rangeList
  exact { ok with ranges := ok.ranges.sublist sub, bounds := fun range member => ok.bounds range (sub.subset member) }

theorem nodeOk_refresh {node : StNode} (ok : NodeOk node) (now : Int) : NodeOk (node.refreshTimestamp now) :=
  { ok with }

theorem treeOk_stateModify {ρ : Type} {t : StTree} (ok : TreeOk t) (now : Int) (var : CString)
    {change : StNode -> StNode × ρ} {failed : ρ} (keep : ∀ node, (change node).1.var = node.var)
    (kept : ∀ node, NodeOk node -> NodeOk (change node).1) : TreeOk (stateModify now var change failed t).1 := by
  apply treeOk_stateVisit ok
  · intro node node' changed
    cases changed
    exact keep (node.refreshTimestamp now)
  · intro node made
    cases made
  · intro node node' nodeOk changed
    cases changed
    exact kept _ (nodeOk_refresh nodeOk now)

section Calls

variable {t : StTree} (ok : TreeOk t) (var : CString)

include ok

theorem treeOk_setinfo (now : Int) {val : CString} (isName : IsName var)
    (printable : ∀ b ∈ val, isText b = true) : TreeOk (stateSetinfo now var val t).1 := by
  apply treeOk_stateVisit ok
  · intro node node' kept
    exact (StNode.setinfo_raw kept).1
  · intro node made
    cases made
    exact ⟨rfl, isName, printable, List.nodup_nil, by simp [StNode.fresh], .nil, by simp [StNode.fresh]⟩
  · intro node node' nodeOk kept
    exact nodeOk_setinfo nodeOk printable kept

theorem treeOk_delete {found : StNode -> Option StNode × Int}
    (same : ∀ node, (found node).1 = some node ∨ (found node).1 = none) :
    TreeOk (stateVisit var found (none, 0) t).1 := by
  have unchanged (node node' : StNode) (kept : (found node).1 = some node') : node' = node := by
    have := same node
    simp_all
  apply treeOk_stateVisit ok
  · intro node node' kept
    rw [unchanged node node' kept]
  · intro node made
    cases made
  · intro node node' nodeOk kept
    rw [unchanged node node' kept]
    exact nodeOk

theorem treeOk_addrange (now : Int) (min max : Int32) : TreeOk (stateAddrange now var min max t).1 := by
  simp only [stateAddrange]
  split
  next => exact ok
  next order =>
    exact treeOk_stateModify ok now var (fun _ => rfl) fun node nodeOk => nodeOk_addrange nodeOk order

theorem treeOk_assign {change : StNode -> StNode}
    (same : ∀ node, (change node).var = node.var ∧ (change node).raw = node.raw ∧
      (change node).enumList = node.enumList ∧ (change node).rangeList = node.rangeList) :
    TreeOk (stateVisit var (fun node => (some (change node), ())) (none, ()) t).1 := by
  apply treeOk_stateVisit ok
  · intro node node' kept
    cases kept
    exact (same node).1
  · intro node made
    cases made
  · intro node node' nodeOk kept
    cases kept
    obtain ⟨sameVar, raw, enums, ranges⟩ := same node
    exact ⟨by rw [sameVar]; exact nodeOk.name, by rw [raw]; exact nodeOk.raw,
      by rw [enums]; exact nodeOk.enums, by rw [enums]; exact nodeOk.encoded,
      by rw [ranges]; exact nodeOk.ranges, by rw [ranges]; exact nodeOk.bounds⟩

end Calls

theorem treeOk_setflags {d : Dstate} (ok : TreeOk d.dtreeRoot) (var : CString) (flags : BitVec 32) :
    TreeOk (Dstate.dstateSetflags var flags d).1.dtreeRoot := by
  simp only [Dstate.dstateSetflags]
  split
  next => exact ok
  next node present =>
    split_ifs
    · exact ok
    · exact ok
    · exact treeOk_assign ok var fun node => ⟨rfl, rfl, rfl, rfl⟩

theorem treeOk_addflags {d : Dstate} (ok : TreeOk d.dtreeRoot) (var : CString) (flags : BitVec 32) :
    TreeOk (Dstate.dstateAddflags var flags d).1.dtreeRoot := by
  simp only [Dstate.dstateAddflags]
  split_ifs
  · exact ok
  · exact ok
  · exact treeOk_setflags ok var _

theorem sorted_addcmd {cmd : CString} {list : CmdList} (sorted : SortedList.Sorted id strcasecmp list) :
    SortedList.Sorted id strcasecmp (stateAddcmd cmd list).1 := by
  rw [stateAddcmd, SortedList.visit_eq]
  apply SortedList.sorted_alter id strcasecmp sorted
  · intro item item' same kept
    cases kept
    exact same
  · intro item made
    cases made
    exact strcasecmp_self cmd

theorem sorted_delcmd {cmd : CString} {list : CmdList} (sorted : SortedList.Sorted id strcasecmp list) :
    SortedList.Sorted id strcasecmp (stateDelcmd cmd list).1 := by
  rw [stateDelcmd, SortedList.visit_eq]
  apply SortedList.sorted_alter id strcasecmp sorted
  · intro item item' _ kept
    cases kept
  · intro item made
    cases made

theorem mem_addcmd {cmd other : CString} {list : CmdList} (member : other ∈ (stateAddcmd cmd list).1) :
    other ∈ list ∨ other = cmd := by
  rw [stateAddcmd, SortedList.visit_eq] at member
  obtain old | made | ⟨item, old, _, kept⟩ := SortedList.mem_alter _ _ member
  · exact Or.inl old
  · cases made
    exact Or.inr rfl
  · cases kept
    exact Or.inl old

theorem mem_delcmd {cmd other : CString} {list : CmdList} (member : other ∈ (stateDelcmd cmd list).1) :
    other ∈ list := by
  rw [stateDelcmd, SortedList.visit_eq] at member
  obtain old | made | ⟨item, old, _, kept⟩ := SortedList.mem_alter _ _ member
  · exact old
  · cases made
  · cases kept

theorem printable_snprintf {text : CString} (printable : ∀ b ∈ text, isText b = true) (size : Nat) :
    ∀ b ∈ snprintf size text, isText b = true :=
  fun b member => printable b (List.mem_of_mem_take member)

theorem treeOk_apply {d : Dstate} (ok : TreeOk d.dtreeRoot) (now : Int) {op : DstateOp}
    (printable : op.Printable) : TreeOk (op.apply now d).1.dtreeRoot := by
  cases op with
  | setinfo var text =>
    exact treeOk_setinfo ok var now printable.1 (printable_snprintf printable.2 stMaxValueLen)
  | addenum var text =>
    exact treeOk_stateModify ok now var (fun _ => rfl)
      fun node nodeOk => nodeOk_addenum nodeOk (printable_snprintf printable.2 stMaxValueLen)
  | delenum var val =>
    exact treeOk_stateModify ok now var (fun _ => rfl) fun node nodeOk => nodeOk_delenum nodeOk
  | addrange var min max =>
    have added := treeOk_addrange ok var now min max
    simp only [DstateOp.apply, Dstate.dstateAddrange]
    split
    next => exact treeOk_addflags added var stFlagNumber
    next => exact added
  | delrange var min max =>
    exact treeOk_stateModify ok now var (fun _ => rfl) fun node nodeOk => nodeOk_delrange nodeOk
  | setflags var flags => exact treeOk_setflags ok var flags
  | addflags var flags => exact treeOk_addflags ok var flags
  | delflags var flags =>
    simp only [DstateOp.apply, Dstate.dstateDelflags]
    split_ifs
    · exact ok
    · exact ok
    · exact treeOk_setflags ok var _
  | setaux var aux =>
    simp only [DstateOp.apply, Dstate.dstateSetaux]
    split
    next => exact ok
    next =>
      split
      next => exact ok
      next => exact treeOk_assign ok var fun node => ⟨rfl, rfl, rfl, rfl⟩
  | delinfo var =>
    apply treeOk_delete ok var
    intro node
    simp only [StNode.delinfo]
    split
    · exact Or.inl rfl
    · exact Or.inr rfl
  | delinfoOlderthan var cutoff =>
    apply treeOk_delete ok var
    intro node
    simp only [StNode.delinfoOlderthan]
    split_ifs
    · exact Or.inl rfl
    · exact Or.inl rfl
    · exact Or.inr rfl
  | addcmd | delcmd => exact ok
  | dataok =>
    simp only [DstateOp.apply, Dstate.dstateDataok]
    split <;> exact ok
  | datastale =>
    simp only [DstateOp.apply, Dstate.dstateDatastale]
    split <;> exact ok

theorem cmdhead_setflags (var : CString) (flags : BitVec 32) (d : Dstate) :
    (Dstate.dstateSetflags var flags d).1.cmdhead = d.cmdhead := by
  simp only [Dstate.dstateSetflags]
  split
  · rfl
  · split_ifs <;> rfl

theorem cmdhead_addflags (var : CString) (flags : BitVec 32) (d : Dstate) :
    (Dstate.dstateAddflags var flags d).1.cmdhead = d.cmdhead := by
  simp only [Dstate.dstateAddflags]
  split_ifs
  · rfl
  · rfl
  · exact cmdhead_setflags var _ d

theorem cmdhead_apply (op : DstateOp) (now : Int) (d : Dstate) (other : ∀ cmd, op ≠ .addcmd cmd)
    (other' : ∀ cmd, op ≠ .delcmd cmd) : (op.apply now d).1.cmdhead = d.cmdhead := by
  cases op with
  | addcmd cmd => exact absurd rfl (other cmd)
  | delcmd cmd => exact absurd rfl (other' cmd)
  | setflags var flags => exact cmdhead_setflags var flags d
  | addflags var flags => exact cmdhead_addflags var flags d
  | delflags var flags =>
    simp only [DstateOp.apply, Dstate.dstateDelflags]
    split_ifs
    · rfl
    · rfl
    · exact cmdhead_setflags var _ d
  | addrange var min max =>
    simp only [DstateOp.apply, Dstate.dstateAddrange]
    split
    · exact cmdhead_addflags var stFlagNumber _
    · rfl
  | setaux var aux =>
    simp only [DstateOp.apply, Dstate.dstateSetaux]
    split
    · rfl
    · split <;> rfl
  | dataok =>
    simp only [DstateOp.apply, Dstate.dstateDataok]
    split <;> rfl
  | datastale =>
    simp only [DstateOp.apply, Dstate.dstateDatastale]
    split <;> rfl
  | _ => rfl

theorem cmds_apply {d : Dstate} (sorted : SortedList.Sorted id strcasecmp d.cmdhead)
    (names : ∀ cmd ∈ d.cmdhead, IsName cmd) (now : Int) {op : DstateOp} (printable : op.Printable) :
    SortedList.Sorted id strcasecmp (op.apply now d).1.cmdhead ∧ ∀ cmd ∈ (op.apply now d).1.cmdhead, IsName cmd := by
  by_cases adds : ∃ cmd, op = .addcmd cmd
  · obtain ⟨cmd, rfl⟩ := adds
    refine ⟨sorted_addcmd sorted, ?_⟩
    intro other member
    obtain old | rfl := mem_addcmd member
    · exact names other old
    · exact printable
  by_cases deletes : ∃ cmd, op = .delcmd cmd
  · obtain ⟨cmd, rfl⟩ := deletes
    exact ⟨sorted_delcmd sorted, fun other member => names other (mem_delcmd member)⟩
  rw [cmdhead_apply op now d (fun cmd same => adds ⟨cmd, same⟩) fun cmd same => deletes ⟨cmd, same⟩]
  exact ⟨sorted, names⟩

theorem dstateOk {d : Dstate} (reachable : d.Reachable) : DstateOk d := by
  induction reachable with
  | start =>
    exact ⟨trivial, by simp [Dstate.empty], .nil, by simp [Dstate.empty]⟩
  | call _ now printable ih =>
    obtain ⟨ordered, nodes⟩ := treeOk_apply ⟨ih.ordered, ih.nodes⟩ now printable
    obtain ⟨sorted, names⟩ := cmds_apply ih.sorted ih.cmds now printable
    exact ⟨ordered, nodes, sorted, names⟩

end Nut
