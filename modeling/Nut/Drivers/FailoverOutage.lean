import Nut.Drivers.FailoverTime
import Nut.Drivers.StatusTokens
import Nut.Server.Replay

set_option autoImplicit false

namespace Nut

namespace Status

structure Unlocked (s : Status) : Prop where
  ordered : Ordered s.dstate.dtreeRoot
  mutable : Mutable s.dstate.dtreeRoot
  alarmStatus : s.alarmStatus = false

section Trees

variable {t : StTree} {d : Dstate} {now : Int}

def TreeFree (d : Dstate) : Prop :=
  Ordered d.dtreeRoot ∧ Mutable d.dtreeRoot

theorem treeFree_stateOp (op : StateOp) (free : TreeFree d) {d' : Dstate} (same : d'.dtreeRoot = (op.apply now d.dtreeRoot).1) :
    TreeFree d' := by
  unfold TreeFree
  rw [same]
  exact ⟨op.ordered_apply now free.1, op.mutable_apply now free.1 free.2⟩

theorem treeFree_assign {ρ : Type} (var : CString) (change : StNode -> StNode) (result : ρ)
    (keep : ∀ node, (change node).var = node.var) (open_ : ∀ node, node.immutable = false -> (change node).immutable = false)
    (free : Ordered t ∧ Mutable t) :
    Ordered (stateVisit var (fun node => (some (change node), result)) (none, result) t).1 ∧
      Mutable (stateVisit var (fun node => (some (change node), result)) (none, result) t).1 := by
  have fresh (node : StNode) (made : (none : Option StNode) = some node) : node.var = var := by cases made
  refine ⟨ordered_stateVisit free.1 (fun node node' kept => ?_) fresh, fun node member => ?_⟩
  · cases kept
    exact keep node
  · rw [stateVisit, SearchTree.visit_eq, SearchTree.toList_alter _ _ _ _ _ free.1] at member
    obtain old | made | ⟨before, old, _, changed⟩ := SortedList.mem_alter _ _ member
    · exact free.2 node old
    · cases made
    · cases changed
      exact open_ before (free.2 before old)

theorem treeFree_setflags (var : CString) {flags : BitVec 32} (plain : flags &&& stFlagImmutable = 0) (free : TreeFree d) :
    TreeFree (Dstate.dstateSetflags var flags d).1 := by
  unfold Dstate.dstateSetflags
  split
  · exact free
  · split_ifs
    · exact free
    · exact free
    · exact treeFree_assign var _ () (fun _ => rfl) (fun node _ => by simp [StNode.immutable, plain]) free

theorem treeFree_setaux (var : CString) (aux : Int64) (free : TreeFree d) : TreeFree (Dstate.dstateSetaux var aux d).1 := by
  unfold Dstate.dstateSetaux
  split
  · exact free
  · split_ifs
    · exact free
    · exact treeFree_assign var _ () (fun _ => rfl) (fun node locked => locked) free

theorem treeFree_addflags (var : CString) (free : TreeFree d) : TreeFree (Dstate.dstateAddflags var stFlagNumber d).1 := by
  simp only [Dstate.dstateAddflags]
  split_ifs
  · exact free
  · exact free
  · refine treeFree_setflags var ?_ free
    next known _ =>
    unfold stateGetflags at known ⊢
    cases found : stateTreeFind d.dtreeRoot var with
    | none => exact absurd (by rw [found]) known
    | some node =>
      have flags : node.flags &&& stFlagImmutable = 0 := by
        simpa [StNode.immutable] using free.2 node ((stateTreeFind_iff free.1).mp found).1
      rw [BitVec.and_comm, BitVec.and_or_distrib_left, BitVec.and_comm stFlagImmutable node.flags, flags]
      rfl

theorem treeFree_apply (op : DstateOp) (plain : Plain (.dstate now op)) (free : TreeFree d) : TreeFree (op.apply now d).1 := by
  cases op with
  | setinfo var text => exact treeFree_stateOp (.setinfo var (snprintf stMaxValueLen text)) free rfl
  | addenum var text => exact treeFree_stateOp (.addenum var (snprintf stMaxValueLen text)) free rfl
  | delenum var val => exact treeFree_stateOp (.delenum var val) free rfl
  | delrange var min max => exact treeFree_stateOp (.delrange var min max) free rfl
  | delinfo var => exact @treeFree_stateOp d now (.delinfo var) free _ rfl
  | delinfoOlderthan var cutoff => exact @treeFree_stateOp d now (.delinfoOlderthan var cutoff) free _ rfl
  | addrange var min max =>
    have added : TreeFree { d with dtreeRoot := ((StateOp.addrange var min max).apply now d.dtreeRoot).1 } :=
      treeFree_stateOp (.addrange var min max) free rfl
    simp only [DstateOp.apply, Dstate.dstateAddrange]
    split
    · exact treeFree_addflags var added
    · exact added
  | setflags var flags => exact treeFree_setflags var plain free
  | addflags var flags => exact plain.elim
  | delflags var flags => exact plain.elim
  | setaux var aux => exact treeFree_setaux var aux free
  | addcmd | delcmd => exact free
  | dataok =>
    simp only [DstateOp.apply, Dstate.dstateDataok]
    split <;> exact free
  | datastale =>
    simp only [DstateOp.apply, Dstate.dstateDatastale]
    split <;> exact free

theorem unlocked_perform {s : Status} {op : StatusOp} (plain : Plain op) (free : s.Unlocked) : (s.perform op).Unlocked := by
  have tree : TreeFree s.dstate := ⟨free.ordered, free.mutable⟩
  have set (s : Status) (free : s.Unlocked) (now : Int) (var text : CString) :
      TreeFree (Dstate.vdstateSetinfo now var text s.dstate).1 :=
    treeFree_stateOp (.setinfo var (snprintf stMaxValueLen text)) ⟨free.ordered, free.mutable⟩ rfl
  have statusSet (s : Status) (free : s.Unlocked) (buf : CString) : (s.statusSet buf).Unlocked :=
    { free with }
  cases op with
  | dstate now op =>
    have applied := treeFree_apply op plain tree
    exact ⟨applied.1, applied.2, free.alarmStatus⟩
  | statusInit => exact ⟨free.ordered, free.mutable, rfl⟩
  | statusSet buf => exact statusSet s free buf
  | alarmInit => exact { free with }
  | statusCommit now trend =>
    have lb : s.appendLB.Unlocked := by
      unfold appendLB
      split
      · exact { free with }
      · exact free
    have charged : (s.appendLB.addCharge trend).Unlocked := by
      unfold addCharge
      split
      · split
        · exact statusSet _ lb _
        · exact lb
      · exact lb
    have written := set _ charged now (cstr "ups.status") (s.appendLB.addCharge trend).statusText
    exact ⟨written.1, written.2, charged.alarmStatus⟩
  | alarmSet buf =>
    obtain ⟨text, same⟩ := s.alarmSet_eq buf
    rw [perform, same]
    exact { free with }
  | alarmCommit now =>
    simp only [perform, alarmCommit]
    split
    · have written := set s free now (cstr "ups.alarm") s.alarmBuf
      exact ⟨written.1, written.2, free.alarmStatus⟩
    · have deleted : TreeFree (Dstate.dstateDelinfo (cstr "ups.alarm") s.dstate).1 :=
        @treeFree_stateOp s.dstate now (.delinfo (cstr "ups.alarm")) tree _ rfl
      exact ⟨deleted.1, deleted.2, free.alarmStatus⟩

end Trees

section Texts

variable {d : Dstate} {now : Int} {var other text word raw : CString}

theorem escapeAll_plain (plain : 92 ∉ escapeAll raw) : escapeAll raw = raw := by
  induction raw with
  | nil => rfl
  | cons b raw ih =>
    rw [escapeAll_cons] at plain ⊢
    by_cases special : pconfEscape b = true
    · rw [if_pos special] at plain
      simp at plain
    · rw [if_neg special] at plain ⊢
      rw [ih fun inside => plain (List.mem_append_right _ inside)]
      rfl

theorem valEscape_iff (short : word.length < 254) (plain : 92 ∉ word) (whole : escapeAll word = word) :
    valEscape raw = word ↔ raw = word := by
  have encoded (raw : CString) : valEscape raw = escapeAll (fitPrefix 255 raw) := by
    rw [valEscape_eq, pconfEncode_eq (by decide)]
    rfl
  have all {raw : CString} (fits : (escapeAll raw).length ≤ 255) : valEscape raw = escapeAll raw := by
    rw [encoded, fitPrefix_all fits]
  constructor
  · intro same
    have fits : (escapeAll raw).length ≤ 255 := by
      by_contra long
      have full := @escapeAll_fitPrefix_full 255 raw (by omega)
      rw [<- encoded, same] at full
      omega
    rw [all fits] at same
    rw [<- same] at plain
    rw [<- escapeAll_plain plain, same]
  · rintro rfl
    rw [all (by rw [whole]; omega), whole]

theorem getinfo_setinfo (free : TreeFree d) (short : word.length < 254) (plain : 92 ∉ word) (whole : escapeAll word = word) :
    stateGetinfo (Dstate.vdstateSetinfo now var text d).1.dtreeRoot var = some word ↔ text = word := by
  obtain ⟨-, -, node, found, -, val, -⟩ := mapStep_apply (.setinfo var (snprintf stMaxValueLen text)) now free.1 free.2
  have value : stateGetinfo (Dstate.vdstateSetinfo now var text d).1.dtreeRoot var =
      some (valEscape (snprintf stMaxValueLen text)) := by
    rw [stateGetinfo, <- val]
    exact congrArg (Option.map StNode.val) found
  rw [value, Option.some.injEq, valEscape_iff short plain whole]
  constructor
  · intro same
    have fits : text.length < stMaxValueLen := by
      by_contra long
      have full : (snprintf stMaxValueLen text).length = stMaxValueLen - 1 := by
        rw [snprintf, List.length_take]
        omega
      rw [same] at full
      simp only [stMaxValueLen] at full
      omega
    rwa [snprintf_fits fits] at same
  · rintro rfl
    exact snprintf_fits (by simp only [stMaxValueLen]; omega)

theorem getinfo_other (op : StateOp) (free : TreeFree d) (apart : strcasecmp op.var other ≠ .eq) :
    stateGetinfo (op.apply now d.dtreeRoot).1 other = stateGetinfo d.dtreeRoot other :=
  congrArg (Option.map StNode.val) (op.find_apply_other now free.1 apart)

theorem getinfo_absent (op : StateOp) (free : TreeFree d) (makes : (op.missing now).1 = none)
    (absent : stateGetinfo d.dtreeRoot other = none) : stateGetinfo (op.apply now d.dtreeRoot).1 other = none := by
  by_cases same : strcasecmp op.var other = .eq
  · have found : stateTreeFind d.dtreeRoot op.var = none := by
      rw [stateTreeFind_congr same]
      exact Option.map_eq_none_iff.mp absent
    have none_ := op.find_apply_self now free.1
    rw [found, Option.elim_none, makes, stateTreeFind_congr same] at none_
    rw [stateGetinfo, none_, Option.map_none]
  · rw [getinfo_other op free same, absent]

end Texts

def Quiet (s : Status) (trend : Trend) : Prop :=
  (s.ignorelb && s.isLow) = false ∧ ((s.getinfo "battery.charge").isSome = true -> trend = .unknown)

instance (s : Status) (trend : Trend) : Decidable (s.Quiet trend) := by
  unfold Quiet
  infer_instance

def noPrimaries : CString :=
  cstr "No suitable primaries for failover"

def outageWords (fsd : Bool) : CString :=
  if fsd then cstr "FSD" else []

section Buffers

variable {s : Status} {trend : Trend} {fsd : Bool}

theorem snprintfcat_short {dst text out : CString} (same : snprintfcat dst stMaxValueLen text = out) (short : out.length < 254) :
    dst ++ text = out := by
  have max : stMaxValueLen = 256 := rfl
  unfold snprintfcat at same
  split_ifs at same with long
  · rw [same] at long
    omega
  · have cut := congrArg List.length same
    rw [List.length_append, List.length_take] at cut
    rwa [List.take_of_length_le (by omega)] at same

theorem alarmSet_iff (free : s.alarmStatus = false) : (s.alarmSet noPrimaries).alarmBuf = noPrimaries ↔ s.alarmBuf = [] := by
  have length : noPrimaries.length = 34 := by decide
  unfold alarmSet
  rw [free]
  simp only [Nat.lt_one_iff, List.length_eq_zero_iff, Bool.false_eq_true, false_and, or_false]
  by_cases empty : s.alarmBuf = []
  · rw [if_pos empty]
    exact iff_of_true (snprintf_fits (by decide)) empty
  · rw [if_neg empty]
    refine iff_of_false (fun same => ?_) empty
    have whole := congrArg List.length (snprintfcat_short same (by omega))
    rw [List.length_append, List.length_append] at whole
    exact empty (List.length_eq_zero_iff.mp (by omega))

theorem strAddUniqueToken_single {accept : CString -> Bool} {tgt word : CString} (single : strtok 32 word = [word]) :
    (strAddUniqueToken tgt stMaxValueLen word accept).1 = (addToken stMaxValueLen accept tgt word).1 := by
  rw [strAddUniqueToken, single]
  rfl

theorem addToken_short {accept : CString -> Bool} {tgt token out : CString} (accepted : accept token = true)
    (same : (addToken stMaxValueLen accept tgt token).1 = out) (short : out.length ≤ 3) (fits : token.length ≤ 100) :
    (tgt = out ∧ strContainsToken tgt token = true) ∨ (if tgt = [] then [] else tgt ++ [32]) ++ token = out := by
  unfold addToken at same
  rw [accepted] at same
  simp only [Bool.not_true, Bool.false_eq_true, if_false] at same
  by_cases present : strContainsToken tgt token = true
  · rw [if_pos present] at same
    exact .inl ⟨same, present⟩
  · rw [if_neg present] at same
    right
    by_cases full : stMaxValueLen < tgt.length + (if tgt = [] then 0 else 1) + token.length + 1
    · rw [if_pos full] at same
      simp only at same
      subst same
      simp only [stMaxValueLen] at full
      split_ifs at full <;> omega
    · rw [if_neg full] at same
      have whole := snprintfcat_short same (by omega)
      by_cases empty : tgt = []
      · simpa [empty] using whole
      · simpa [empty] using whole

theorem statusSet_fsd_iff : (s.statusSet (cstr "FSD")).statusBuf = cstr "FSD" ↔
    s.statusBuf = [] ∨ s.statusBuf = cstr "FSD" := by
  have added : (s.statusSet (cstr "FSD")).statusBuf =
      (addToken stMaxValueLen (statusAccepts s.ignorelb) s.statusBuf (cstr "FSD")).1 :=
    strAddUniqueToken_single (by decide +kernel)
  have accepted : statusAccepts s.ignorelb (cstr "FSD") = true := by
    cases s.ignorelb <;> decide +kernel
  rw [added]
  constructor
  · intro same
    rcases addToken_short accepted same (by decide) (by decide) with ⟨there, -⟩ | ends
    · exact .inr there
    · by_cases empty : s.statusBuf = []
      · exact .inl empty
      · have length := congrArg List.length ends
        rw [if_neg empty, List.length_append, List.length_append] at length
        have one : ([32] : CString).length = 1 := rfl
        omega
  · rintro (empty | there)
    · rw [empty]
      cases s.ignorelb <;> decide +kernel
    · rw [there]
      cases s.ignorelb <;> decide +kernel

theorem appendLB_iff : s.appendLB.statusBuf = outageWords fsd ↔
    s.statusBuf = outageWords fsd ∧ (s.ignorelb && s.isLow) = false := by
  unfold appendLB
  cases low : s.ignorelb && s.isLow with
  | false => simp
  | true =>
    simp only [if_true, reduceCtorEq, and_false, iff_false]
    intro same
    have whole := snprintfcat_short same (by cases fsd <;> decide)
    have ends := congrArg List.getLast? whole
    rw [List.getLast?_append_of_ne_nil _ (by decide)] at ends
    revert ends
    cases fsd <;> decide

theorem addCharge_iff : (s.addCharge trend).statusBuf = outageWords fsd ↔
    s.statusBuf = outageWords fsd ∧ ((s.getinfo "battery.charge").isSome = true -> trend = .unknown) := by
  unfold addCharge
  cases charged : (s.getinfo "battery.charge").isSome with
  | false => simp
  | true =>
    simp only [if_true, forall_const]
    have absent {word : String} (charge : cstr word = cstr "CHRG" ∨ cstr word = cstr "DISCHRG")
        (same : s.statusBuf = outageWords fsd) : s.statusGet word = false := by
      rw [statusGet, same]
      rcases charge with word | word <;> rw [word] <;> cases fsd <;> decide +kernel
    cases known : chargeWord trend (s.statusGet "DISCHRG") (s.statusGet "CHRG") with
    | none =>
      refine ⟨fun same => ⟨same, ?_⟩, fun both => both.1⟩
      simp only at same
      rw [absent (.inl rfl) same, absent (.inr rfl) same] at known
      cases trend with
      | unknown => rfl
      | rising => cases known
      | falling => cases known
    | some word =>
      have charge := chargeWord_some known
      constructor
      · intro same
        simp only at same
        obtain ⟨single, noAlarm⟩ := chargeWord_plain charge
        have accepted : statusAccepts s.ignorelb word = true := by
          rcases charge with rfl | rfl <;> cases s.ignorelb <;> decide +kernel
        rw [statusSet, strAddUniqueToken_single single] at same
        rcases addToken_short accepted same (by cases fsd <;> decide) (by rcases charge with rfl | rfl <;> decide) with
          ⟨there, present⟩ | ends
        · exfalso
          rw [there] at present
          revert present
          rcases charge with rfl | rfl <;> cases fsd <;> decide +kernel
        · have length := congrArg List.length ends
          rw [List.length_append] at length
          have short : (outageWords fsd).length ≤ 3 := by cases fsd <;> decide
          have long : 4 ≤ word.length := by rcases charge with rfl | rfl <;> decide
          omega
      · rintro ⟨same, rfl⟩
        cases known

end Buffers

def announce (fsd : Bool) (now : Int) (trend : Trend) (s : Status) : Status :=
  let s := if fsd then s.statusSet (cstr "FSD") else s
  ((s.alarmSet noPrimaries).alarmCommit now).statusCommit now trend

-- The message alone in `ups.alarm`, and nothing besides what the mode asks for in `ups.status`.
def Announced (fsd : Bool) (s : Status) : Prop :=
  s.getinfo "ups.alarm" = some noPrimaries ∧
    s.getinfo "ups.status" = some (if fsd then cstr "ALARM FSD" else cstr "ALARM")

-- Nothing is left in the buffers that the message and the status are put together in.
structure Clear (fsd : Bool) (trend : Trend) (s : Status) : Prop where
  alarm : s.alarmBuf = []
  status : s.statusBuf = [] ∨ fsd = true ∧ s.statusBuf = cstr "FSD"
  quiet : s.Quiet trend

section Announcements

variable {s : Status} {fsd : Bool} {now : Int} {trend : Trend}

theorem addCharge_keeps : (s.addCharge trend).dstate = s.dstate ∧ (s.addCharge trend).alarmActive = s.alarmActive := by
  unfold addCharge
  split
  · split <;> exact ⟨rfl, rfl⟩
  · exact ⟨rfl, rfl⟩

theorem appendLB_keeps : s.appendLB.dstate = s.dstate ∧ s.appendLB.alarmActive = s.alarmActive := by
  unfold appendLB
  split <;> exact ⟨rfl, rfl⟩

theorem quiet_congr {s' : Status} (ignorelb : s'.ignorelb = s.ignorelb)
    (kept : ∀ var ∈ statusVars, s'.getinfo var = s.getinfo var) : s'.Quiet trend ↔ s.Quiet trend := by
  unfold Quiet isLow isBelow
  rw [ignorelb, kept _ (by decide), kept _ (by decide), kept _ (by decide), kept _ (by decide)]

theorem quiet_alarmCommit (free : TreeFree s.dstate) (some_ : s.alarmBuf.length > 0) :
    (s.alarmCommit now).Quiet trend ↔ s.Quiet trend := by
  unfold alarmCommit
  rw [if_pos some_]
  have apart : ∀ var ∈ statusVars, strcasecmp (cstr "ups.alarm") (cstr var) ≠ .eq := by decide
  exact quiet_congr rfl fun var member => getinfo_other (.setinfo _ _) free (apart var member)

theorem getinfo_exports {op : DstateOp} {var : String} (free : s.Unlocked) (exports : Exports op)
    (read : var ∈ statusVars) : (s.perform (.dstate now op)).getinfo var = s.getinfo var := by
  have tree : TreeFree s.dstate := ⟨free.ordered, free.mutable⟩
  cases op with
  | setinfo name text => exact getinfo_other (.setinfo _ _) tree (exports var read)
  | delinfo name => exact @getinfo_other s.dstate now _ (.delinfo name) tree (exports var read)
  | dataok =>
    simp only [getinfo, perform, DstateOp.apply, Dstate.dstateDataok]
    split <;> rfl
  | _ => exact exports.elim

theorem clear_exports {op : DstateOp} (free : s.Unlocked) (exports : Exports op) :
    (s.perform (.dstate now op)).Clear fsd trend ↔ s.Clear fsd trend := by
  have quiet : (s.perform (.dstate now op)).Quiet trend ↔ s.Quiet trend :=
    quiet_congr rfl fun var read => getinfo_exports free exports read
  exact ⟨fun clear => ⟨clear.alarm, clear.status, quiet.mp clear.quiet⟩,
    fun clear => ⟨clear.alarm, clear.status, quiet.mpr clear.quiet⟩⟩

theorem absent_withdraws {op : StatusOp} {var : String} (free : s.Unlocked) (withdraws : Withdraws op)
    (read : var ∈ statusVars) (absent : s.getinfo var = none) : (s.perform op).getinfo var = none := by
  have tree : TreeFree s.dstate := ⟨free.ordered, free.mutable⟩
  have written (now : Int) (name : String) (text : CString) (apart : strcasecmp (cstr name) (cstr var) ≠ .eq) :
      stateGetinfo (Dstate.vdstateSetinfo now (cstr name) text s.dstate).1.dtreeRoot (cstr var) = none :=
    (getinfo_other (.setinfo _ _) tree apart).trans absent
  have deleted (name : CString) : stateGetinfo (Dstate.dstateDelinfo name s.dstate).1.dtreeRoot (cstr var) = none :=
    @getinfo_absent s.dstate 0 _ (.delinfo name) tree rfl absent
  cases op with
  | dstate now op =>
    cases op with
    | delinfo name => exact deleted name
    | delenum name val => exact getinfo_absent (.delenum name val) tree rfl absent
    | delrange name min max => exact getinfo_absent (.delrange name min max) tree rfl absent
    | delcmd name => exact absent
    | _ => exact withdraws.elim
  | statusInit | alarmInit => exact absent
  | alarmCommit now =>
    have apart : ∀ var ∈ statusVars, strcasecmp (cstr "ups.alarm") (cstr var) ≠ .eq := by decide
    unfold perform alarmCommit
    dsimp only
    split
    · exact written now "ups.alarm" _ (apart var read)
    · exact deleted _
  | statusCommit now trend =>
    have apart : ∀ var ∈ statusVars, strcasecmp (cstr "ups.status") (cstr var) ≠ .eq := by decide
    change stateGetinfo (Dstate.vdstateSetinfo now _ _ (s.appendLB.addCharge trend).dstate).1.dtreeRoot _ = none
    rw [addCharge_keeps.1, appendLB_keeps.1]
    exact written now "ups.status" _ (apart var read)
  | _ => exact withdraws.elim

theorem statusText_iff (active : s.alarmActive = true) :
    s.statusText = (if fsd then cstr "ALARM FSD" else cstr "ALARM") ↔ s.statusBuf = outageWords fsd := by
  have split_ : (if fsd then cstr "ALARM FSD" else cstr "ALARM") =
      if fsd then cstr "ALARM " ++ outageWords fsd else cstr "ALARM" := by cases fsd <;> decide
  unfold statusText
  rw [split_, active]
  simp only [Bool.true_or, if_true]
  by_cases empty : s.statusBuf = []
  · rw [empty]
    cases fsd <;> decide
  · rw [if_pos empty]
    cases fsd with
    | false =>
      refine iff_of_false (fun same => ?_) empty
      have length := congrArg List.length same
      rw [List.length_append] at length
      have more : (cstr "ALARM ").length = (cstr "ALARM").length + 1 := by decide
      simp only [Bool.false_eq_true, if_false] at length
      omega
    | true => exact List.append_right_inj _

theorem committed_iff (free : s.Unlocked) (some_ : s.alarmBuf.length > 0) :
    ((s.alarmCommit now).statusCommit now trend).Announced fsd ↔
      s.alarmBuf = noPrimaries ∧ s.statusBuf = outageWords fsd ∧ s.Quiet trend := by
  have tree : TreeFree s.dstate := ⟨free.ordered, free.mutable⟩
  have alarmed : (s.alarmCommit now).Unlocked := @unlocked_perform s (.alarmCommit now) trivial free
  have alarmTree : TreeFree (s.alarmCommit now).dstate := ⟨alarmed.ordered, alarmed.mutable⟩
  have alarm : (s.alarmCommit now).getinfo "ups.alarm" = some noPrimaries ↔ s.alarmBuf = noPrimaries := by
    unfold alarmCommit getinfo
    rw [if_pos some_]
    exact getinfo_setinfo tree (by decide) (by decide) (by decide)
  have active : (s.alarmCommit now).alarmActive = true ∧ (s.alarmCommit now).statusBuf = s.statusBuf := by
    unfold alarmCommit
    rw [if_pos some_]
    exact ⟨rfl, rfl⟩
  have quiet := @quiet_alarmCommit s now trend tree some_
  generalize s.alarmCommit now = c at *
  have full : ((c.appendLB.addCharge trend).statusBuf = outageWords fsd ↔
      s.statusBuf = outageWords fsd ∧ s.Quiet trend) := by
    have same : c.appendLB.getinfo "battery.charge" = c.getinfo "battery.charge" := by
      rw [getinfo, appendLB_keeps.1, getinfo]
    rw [addCharge_iff, appendLB_iff, same, active.2, <- quiet, and_assoc]
    rfl
  have unchanged : (c.appendLB.addCharge trend).dstate = c.dstate := addCharge_keeps.1.trans appendLB_keeps.1
  have stillActive : (c.appendLB.addCharge trend).alarmActive = true := by
    rw [addCharge_keeps.2, appendLB_keeps.2, active.1]
  have status : (c.statusCommit now trend).getinfo "ups.status" =
      some (if fsd then cstr "ALARM FSD" else cstr "ALARM") ↔ (c.appendLB.addCharge trend).statusBuf = outageWords fsd := by
    rw [<- statusText_iff stillActive]
    unfold statusCommit getinfo
    dsimp only
    rw [unchanged]
    cases fsd <;> exact getinfo_setinfo alarmTree (by decide) (by decide) (by decide)
  have kept : (c.statusCommit now trend).getinfo "ups.alarm" = c.getinfo "ups.alarm" := by
    unfold statusCommit getinfo
    dsimp only
    rw [unchanged]
    exact getinfo_other (.setinfo (cstr "ups.status") _) alarmTree (by decide : strcasecmp (cstr "ups.status") _ ≠ .eq)
  rw [Announced, kept, alarm, status, full]

theorem alarmSet_some (s : Status) (buf : CString) (text : 0 < buf.length) : (s.alarmSet buf).alarmBuf.length > 0 := by
  unfold alarmSet
  split
  · rw [snprintf, List.length_take]
    simp only [stMaxValueLen]
    omega
  next kept =>
    unfold snprintfcat
    dsimp only
    split
    · omega
    · rw [List.length_append]
      omega

theorem announce_iff (free : s.Unlocked) : (s.announce fsd now trend).Announced fsd ↔ s.Clear fsd trend := by
  have words : ((if fsd then s.statusSet (cstr "FSD") else s).statusBuf = outageWords fsd) ↔
      s.statusBuf = [] ∨ fsd = true ∧ s.statusBuf = cstr "FSD" := by
    cases fsd with
    | false => simp [outageWords]
    | true => simpa [outageWords] using statusSet_fsd_iff
  have kept : (if fsd then s.statusSet (cstr "FSD") else s).Unlocked ∧
      (if fsd then s.statusSet (cstr "FSD") else s).alarmBuf = s.alarmBuf ∧
      ((if fsd then s.statusSet (cstr "FSD") else s).Quiet trend ↔ s.Quiet trend) := by
    cases fsd with
    | false => exact ⟨free, rfl, Iff.rfl⟩
    | true => exact ⟨@unlocked_perform s (.statusSet (cstr "FSD")) trivial free, rfl, Iff.rfl⟩
  unfold announce
  dsimp only
  generalize (if fsd then s.statusSet (cstr "FSD") else s) = c at *
  have set : (c.alarmSet noPrimaries).Unlocked := @unlocked_perform c (.alarmSet noPrimaries) trivial kept.1
  have same : (c.alarmSet noPrimaries).statusBuf = c.statusBuf ∧ ((c.alarmSet noPrimaries).Quiet trend ↔ c.Quiet trend) := by
    obtain ⟨text, same⟩ := c.alarmSet_eq noPrimaries
    rw [same]
    exact ⟨rfl, Iff.rfl⟩
  rw [committed_iff set (alarmSet_some c noPrimaries (by decide)), alarmSet_iff kept.1.alarmStatus, same.1, same.2, words,
    kept.2.1, kept.2.2]
  exact ⟨fun ⟨alarm, status, quiet⟩ => ⟨alarm, status, quiet⟩, fun clear => ⟨clear.alarm, clear.status, clear.quiet⟩⟩

-- The buffers were emptied, and nothing tells `status_commit` to put a word in.
structure Swept (trends : List Trend) (s : Status) : Prop where
  alarm : s.alarmBuf = []
  status : s.statusBuf = []
  ignorelb : s.ignorelb = false
  still : ∀ trend ∈ trends, trend = .unknown

variable {trends : List Trend}

theorem swept_dstate {op : DstateOp} (swept : s.Swept trends) : (s.perform (.dstate now op)).Swept trends :=
  ⟨swept.alarm, swept.status, swept.ignorelb, swept.still⟩

theorem swept_alarmCommit (swept : s.Swept trends) : (s.alarmCommit now).Swept trends := by
  unfold alarmCommit
  rw [swept.alarm]
  exact ⟨rfl, swept.status, swept.ignorelb, swept.still⟩

theorem swept_clear (swept : s.Swept trends) :
    (s.statusCommit now (trends.headD .unknown)).Clear fsd (trends.tail.headD .unknown) := by
  have head (l : List Trend) (still : ∀ trend ∈ l, trend = .unknown) : l.headD .unknown = .unknown := by
    cases l with
    | nil => rfl
    | cons trend l => exact still trend List.mem_cons_self
  have adds : s.appendLB.addCharge (trends.headD .unknown) = s := by
    unfold appendLB addCharge
    rw [swept.ignorelb, Bool.false_and, if_neg Bool.false_ne_true, head trends swept.still]
    exact ite_self s
  unfold statusCommit
  rw [adds]
  refine ⟨swept.alarm, .inl swept.status, ?_, fun _ => head _ fun trend member => swept.still trend (List.mem_of_mem_tail member)⟩
  rw [swept.ignorelb]
  rfl

end Announcements

end Status

namespace Failover

-- No published variable is fixed, and no driver has one to fix.
structure Ready (w : Failover) : Prop where
  own : w.own.Unlocked
  relays : ∀ ups ∈ w.upsList, ups.Relays

section Updates

variable {w : Failover} {i : Nat}

theorem publishing_ready : Publishing Status.Plain Ready where
  plain _ plain := plain
  relayed _ ready ups member var inside _ := ready.relays ups member var inside
  call _ _ plain ready := ⟨Status.unlocked_perform plain ready.own, ready.relays⟩
  rest _ _ _ _ _ _ _ _ ready kept := ⟨ready.own, kept ready.relays⟩

theorem ready_dstate (ready : w.Ready) {op : DstateOp} (plain : Status.Plain (.dstate w.clock op)) : (w.dstate op).Ready :=
  publishing_dstate publishing_ready plain ready

theorem ready_startOutage (gone : Int) (ready : w.Ready) : (w.startOutage gone).Ready := by
  unfold startOutage
  split
  · exact ⟨ready.own, ready.relays⟩
  · exact ready

theorem ready_handleNoPrimaries (clock : FailoverClock) (ready : w.Ready) : (w.handleNoPrimaries clock).Ready := by
  have dropped := publishing_dropPrimary publishing_ready (ready_startOutage clock.gone ready)
  unfold handleNoPrimaries
  dsimp only
  split
  · have failed := publishing_failPrimaries publishing_ready (clock.now - (w.startOutage clock.gone).dropPrimary.primariesGoneTime) dropped
    exact ⟨failed.own, failed.relays⟩
  · exact ready_dstate dropped trivial

theorem ready_serveCandidate (candidate : Nat) (ready : w.Ready) : (w.serveCandidate candidate).Ready := by
  have ended : (w.endOutage candidate).Ready := by
    have cleaned : (w.upsCleanDstate candidate).Ready := publishing_upsCleanDstate publishing_ready ready
    unfold endOutage
    dsimp only
    split_ifs
    · have flagged : ((w.upsCleanDstate candidate).modifyUps candidate fun ups =>
          { ups with forceDstateExport := true }).Ready :=
        steady_sameVars (publishing_steady publishing_ready) (fun _ => rfl) cleaned
      exact ⟨flagged.own, flagged.relays⟩
    · exact ⟨ready.own, ready.relays⟩
    · exact ready
  unfold serveCandidate
  dsimp only
  split_ifs
  · exact ready_dstate (publishing_upsExportDstate publishing_ready ended) trivial
  · exact ready_dstate (publishing_upsExportDstate publishing_ready ended) trivial
  · exact ready_dstate (publishing_upsPromotePrimary publishing_ready ended) trivial
  · exact ready_dstate (publishing_upsPromotePrimary publishing_ready ended) trivial

theorem ready_handleInitTime (candidate : Option Nat) (clock : FailoverClock) (ready : w.Ready) :
    (w.handleInitTime candidate clock).1.Ready := by
  unfold handleInitTime
  split_ifs
  · exact ready
  · exact ready_dstate ready trivial
  · exact ⟨ready.own, ready.relays⟩

theorem ready_step (ready : w.Ready) (event : FailoverEvent) : (w.step event).Ready := by
  cases event with
  | update round =>
    have exported_ := publishing_exportDriverState publishing_ready (publishing_elect publishing_ready round ready)
    have begun := ready_handleInitTime (w.elect round).2 round.times exported_
    change ((w.elect round).1.afterElection (w.elect round).2 round.times).Ready
    unfold afterElection
    split
    next w' waits =>
      rw [waits] at begun
      exact begun
    next w' served =>
      rw [served] at begun
      split
      · exact ready_handleNoPrimaries round.times begun
      · exact ready_serveCandidate _ begun
  | instcmd cmdname extra now =>
    change (w.instcmd cmdname extra now).1.Ready
    unfold instcmd
    dsimp only
    split
    · split
      · exact ready
      · refine steady_sameVars (publishing_steady publishing_ready) (fun ups => ?_) ready
        split <;> rfl
    · split
      · exact ready
      · exact ready

theorem ready_run (ready : w.Ready) (events : List FailoverEvent) : (events.foldl step w).Ready := by
  induction events generalizing w with
  | nil => exact ready
  | cons event events ih => exact ih (ready_step ready event)

end Updates

def atAlarm (w : Failover) (round : Round) : Failover :=
  (((w.elect round).1.exportDriverState.handleInitTime (w.elect round).2 round.times).1.startOutage
    round.times.gone).dropPrimary

def Announced (w : Failover) : Prop :=
  w.own.Announced (w.args.fsdmode = 2)

instance (w : Failover) : Decidable w.Announced :=
  inferInstanceAs (Decidable (_ ∧ _))

def BuffersClear (w : Failover) (round : Round) : Prop :=
  (w.atAlarm round).own.Clear (w.args.fsdmode = 2) ((w.atAlarm round).trends.headD .unknown)

def StillCritical (w : Failover) : FailoverEvent -> Prop
  | .update round => w.goesCritical round = true
  | .instcmd _ _ _ => True

instance StillCritical.decidable (w : Failover) : (event : FailoverEvent) -> Decidable (w.StillCritical event)
  | .update round => inferInstanceAs (Decidable (w.goesCritical round = true))
  | .instcmd _ _ _ => inferInstanceAs (Decidable True)

structure Marked (w : Failover) : Prop where
  primary : w.primaryUps = none
  alarm : w.own.alarmBuf ≠ []

section Outages

variable {w : Failover} {round : Round}

@[simp] theorem primaryUps_call (op : StatusOp) : (w.call op).primaryUps = w.primaryUps := rfl

@[simp] theorem primaryUps_dstate (op : DstateOp) : (w.dstate op).primaryUps = w.primaryUps := rfl

@[simp] theorem primaryUps_alarmCommit : w.alarmCommit.primaryUps = w.primaryUps := rfl

@[simp] theorem primaryUps_statusCommit : w.statusCommit.primaryUps = w.primaryUps := rfl

theorem primaryUps_foldl {α : Type} {change : Failover -> α -> Failover}
    (kept : ∀ (w : Failover) a, (change w a).primaryUps = w.primaryUps) (items : List α) :
    (items.foldl change w).primaryUps = w.primaryUps := by
  induction items generalizing w with
  | nil => rfl
  | cons a items ih => exact ih.trans (kept w a)

theorem alarmBuf_dstate (op : DstateOp) : (w.dstate op).own.alarmBuf = w.own.alarmBuf := rfl

theorem update_critical (critical : w.goesCritical round = true) : w.upsdrvUpdateinfo round =
      { (w.atAlarm round).failPrimaries (round.times.now - (w.atAlarm round).primariesGoneTime) with primariesGone := true } := by
  have none_ := (goesCritical_elapsed critical).1
  unfold goesCritical at critical
  unfold upsdrvUpdateinfo afterElection atAlarm
  split at critical
  · cases critical
  next w' begun =>
    have elapsed := (Bool.and_eq_true_iff.mp critical).2
    rw [none_] at begun ⊢
    rw [begun]
    dsimp only
    unfold handleNoPrimaries
    dsimp only
    rw [if_pos elapsed]

theorem atAlarm_args (w : Failover) (round : Round) : (w.atAlarm round).args = w.args := by
  obtain ⟨args, -, -⟩ := @handleInitTime_keeps (w.elect round).1.exportDriverState round.times (w.elect round).2
  have elected := timers_args ((timers_exportDriverState (w.elect round).1).trans (timers_elect w round))
  unfold atAlarm
  rw [timers_args (timers_dropPrimary _), (startOutage_goneTime _).1, args, elected]

theorem failPrimaries_own (elapsed : Int) (mode : w.args.fsdmode = 1 ∨ w.args.fsdmode = 2) :
    (w.failPrimaries elapsed).own.dstate.dtreeRoot =
        (w.own.announce (w.args.fsdmode = 2) w.clock (w.trends.headD .unknown)).dstate.dtreeRoot ∧
      (w.failPrimaries elapsed).own.alarmBuf =
        (w.own.announce (w.args.fsdmode = 2) w.clock (w.trends.headD .unknown)).alarmBuf ∧
      (w.failPrimaries elapsed).primaryUps = w.primaryUps := by
  have dataok (w : Failover) : (w.dstate .dataok).own.dstate.dtreeRoot = w.own.dstate.dtreeRoot := by
    change (Dstate.dstateDataok w.own.dstate).1.dtreeRoot = _
    unfold Dstate.dstateDataok
    split <;> rfl
  have datastale (w : Failover) : (w.dstate .datastale).own.dstate.dtreeRoot = w.own.dstate.dtreeRoot := by
    change (Dstate.dstateDatastale w.own.dstate).1.dtreeRoot = _
    unfold Dstate.dstateDatastale
    split <;> rfl
  have alarmed : ((w.call (.alarmSet Status.noPrimaries)).alarmCommit).statusCommit.own =
      w.own.announce false w.clock (w.trends.headD .unknown) := rfl
  have failed : ((((w.call (.statusSet (cstr "FSD"))).call (.alarmSet Status.noPrimaries)).alarmCommit).statusCommit).own =
      w.own.announce true w.clock (w.trends.headD .unknown) := rfl
  have message : cstr "No suitable primaries for failover" = Status.noPrimaries := rfl
  unfold failPrimaries
  dsimp only
  split
  next alarms =>
    have flag : decide (w.args.fsdmode = 2) = false := by rw [alarms]; rfl
    rw [flag, message, <- alarmed]
    split_ifs
    · exact ⟨dataok _, alarmBuf_dstate _, by simp⟩
    · exact ⟨datastale _, alarmBuf_dstate _, by simp⟩
  next fsd =>
    have flag : decide (w.args.fsdmode = 2) = true := by rw [fsd]; rfl
    rw [flag, message, <- failed]
    exact ⟨dataok _, alarmBuf_dstate _, by simp⟩
  next noAlarm noFsd => exact (mode.elim noAlarm noFsd).elim

theorem announce_alarmBuf (s : Status) (fsd : Bool) (now : Int) (trend : Trend) :
    (s.announce fsd now trend).alarmBuf ≠ [] := by
  have committed (c : Status) : ((c.alarmCommit now).statusCommit now trend).alarmBuf = c.alarmBuf := by
    have charged (c : Status) : (c.appendLB.addCharge trend).alarmBuf = c.alarmBuf := by
      have low : c.appendLB.alarmBuf = c.alarmBuf := by
        unfold Status.appendLB
        split <;> rfl
      rw [<- low]
      unfold Status.addCharge
      split
      · split <;> rfl
      · rfl
    refine (charged (c.alarmCommit now)).trans ?_
    unfold Status.alarmCommit
    split <;> rfl
  unfold Status.announce
  dsimp only
  rw [committed]
  exact List.ne_nil_of_length_pos (Status.alarmSet_some _ _ (by decide))

theorem dropPrimary_none (positive : w.dropPrimary.args.fsdmode > 0) : w.dropPrimary.primaryUps = none := by
  have demoted (w : Failover) (i : Nat) : (w.upsDemotePrimary i).primaryUps = none := by
    unfold upsDemotePrimary upsCleanDstate
    split
    · rfl
    next ups _ =>
      rw [primaryUps_statusCommit, primaryUps_alarmCommit, primaryUps_foldl fun w var => primaryUps_dstate _,
        primaryUps_foldl fun w cmd => primaryUps_dstate _]
      rfl
  rw [timers_args (timers_dropPrimary w)] at positive
  unfold dropPrimary
  split
  next i primary =>
    rw [if_pos positive]
    exact demoted w i
  next none_ => exact none_

theorem ready_atAlarm (ready : w.Ready) : (w.atAlarm round).Ready := publishing_dropPrimary publishing_ready (ready_startOutage _
    (ready_handleInitTime _ _ (publishing_exportDriverState publishing_ready (publishing_elect publishing_ready round ready))))

theorem critical_update (ready : w.Ready) (mode : w.args.fsdmode = 1 ∨ w.args.fsdmode = 2)
    (critical : w.goesCritical round = true) :
    ((w.upsdrvUpdateinfo round).Announced ↔ w.BuffersClear round) ∧ (w.upsdrvUpdateinfo round).Marked := by
  have args := atAlarm_args w round
  have published := failPrimaries_own (round.times.now - (w.atAlarm round).primariesGoneTime) (args ▸ mode)
  have failed := timers_args (timers_failPrimaries (w.atAlarm round) (round.times.now - (w.atAlarm round).primariesGoneTime))
  rw [update_critical critical]
  generalize (w.atAlarm round).failPrimaries (round.times.now - (w.atAlarm round).primariesGoneTime) = v at *
  rw [args] at published failed
  constructor
  · rw [BuffersClear, <- Status.announce_iff (ready_atAlarm ready).own, Announced]
    dsimp only
    rw [failed]
    unfold Status.Announced Status.getinfo
    rw [published.1]
  · refine ⟨?_, ?_⟩
    · change v.primaryUps = none
      rw [published.2.2]
      have positive : (w.atAlarm round).args.fsdmode > 0 := by
        rw [args]
        omega
      exact dropPrimary_none positive
    · change v.own.alarmBuf ≠ []
      rw [published.2.1]
      exact announce_alarmBuf _ _ _ _

theorem beforeAlarm_rule {P : Failover -> Prop}
    (kept : ∀ (w : Failover) (op : DstateOp), Status.Exports op -> P w -> P (w.dstate op))
    (timed : ∀ (w : Failover) (elapsed : Bool) (time : Int), P w ->
      P { w with initTimeElapsed := elapsed, primariesGoneTime := time })
    (holds : P (w.elect round).1) :
    P (((w.elect round).1.exportDriverState.handleInitTime (w.elect round).2 round.times).1.startOutage round.times.gone) := by
  have exported_ := exportDriverState_rule kept holds
  have begun (v : Failover) (holds : P v) : P (v.handleInitTime (w.elect round).2 round.times).1 := by
    unfold handleInitTime
    split_ifs
    · exact holds
    · exact kept v .dataok trivial holds
    · exact timed v true v.primariesGoneTime holds
  unfold startOutage
  split
  · exact timed _ _ _ (begun _ exported_)
  · exact begun _ exported_

-- Without a primary nothing touches the buffers before the message is set.
theorem buffersClear_alone (ready : w.Ready) (alone : w.primaryUps = none) :
    w.BuffersClear round ↔ w.own.Clear (w.args.fsdmode = 2) (round.trends.headD .unknown) := by
  have idle : Steady fun v => v.own = w.own ∧ v.primaryUps = none ∧ v.trends = round.trends :=
    { devices := fun _ _ _ _ _ same _ _ => same
      publish := fun v i op primary _ same => by rw [same.2.1] at primary; cases primary
      commit := fun v i primary same => by rw [same.2.1] at primary; cases primary }
  obtain ⟨own, primary, trends⟩ := steady_elect idle round ⟨rfl, alone, rfl⟩
  obtain ⟨-, primary, trends, clear⟩ := @beforeAlarm_rule w round
    (fun v => v.own.Unlocked ∧ v.primaryUps = none ∧ v.trends = round.trends ∧
      ∀ fsd trend, v.own.Clear fsd trend ↔ w.own.Clear fsd trend)
    (fun v op exports ⟨free, primary, trends, clear⟩ => ⟨Status.unlocked_perform (Status.plain_of_exports exports) free,
      primary, trends, fun fsd trend => (Status.clear_exports free exports).trans (clear fsd trend)⟩)
    (fun v elapsed time same => same) ⟨own ▸ ready.own, primary, trends, fun fsd trend => by rw [own]⟩
  unfold BuffersClear atAlarm dropPrimary
  rw [primary, trends]
  exact clear _ _

structure Behind (i : Nat) (w : Failover) : Prop where
  ready : w.Ready
  primary : w.primaryUps = some i
  there : i < w.upsList.length
  noFlag : w.own.getinfo "driver.flag.ignorelb" = none
  still : ∀ trend ∈ w.trends, trend = .unknown

theorem steady_behind {i : Nat} : Steady (Behind i) where
  devices _ _ _ _ _ behind length kept :=
    { behind with ready := ⟨behind.ready.own, kept behind.ready.relays⟩, there := length ▸ behind.there }
  publish _ _ _ _ withdraws behind :=
    { ready := publishing_ready.call _ _ (Status.plain_of_withdraws withdraws) behind.ready
      primary := behind.primary
      there := behind.there
      noFlag := Status.absent_withdraws behind.ready.own withdraws (by decide) behind.noFlag
      still := behind.still }
  commit _ _ _ behind :=
    { behind with
      ready := ⟨behind.ready.own, behind.ready.relays⟩
      still := fun trend member => behind.still trend (List.mem_of_mem_tail member) }

theorem dropPrimary_clear {i : Nat} {fsd : Bool} (behind : w.Behind i) (mode : w.args.fsdmode > 0) :
    w.dropPrimary.own.Clear fsd (w.dropPrimary.trends.headD .unknown) := by
  have begun : (w.own.statusInit.alarmInit).Swept w.trends :=
    ⟨rfl, rfl, by simp only [Status.alarmInit, Status.statusInit, behind.noFlag, Option.isSome_none], behind.still⟩
  have sweep {α : Type} (v : Failover) (items : List α) (op : α -> DstateOp) (swept : v.own.Swept v.trends) :
      (items.foldl (fun v a => v.dstate (op a)) v).own.Swept (items.foldl (fun v a => v.dstate (op a)) v).trends :=
    List.foldlRecOn (motive := fun v : Failover => v.own.Swept v.trends) items _ swept fun _ swept _ _ => Status.swept_dstate swept
  obtain ⟨ups, there⟩ : ∃ ups, (w.upsList.modify i fun ups => { ups with primary := false })[i]? = some ups :=
    ⟨_, List.getElem?_eq_getElem ((List.length_modify ..).symm ▸ behind.there)⟩
  unfold dropPrimary
  rw [behind.primary]
  dsimp only
  rw [if_pos mode]
  unfold upsDemotePrimary upsCleanDstate modifyUps
  dsimp only
  rw [there]
  exact Status.swept_clear (Status.swept_alarmCommit (sweep _ _ (fun var : UpsVar => .delinfo var.key)
    (sweep _ _ (fun cmd : UpsCmd => .delcmd cmd.value) begun)))

-- With one they are emptied, and `status_commit` leaves them so without ignorelb and a charge that changes.
theorem buffersClear_behind {i : Nat} (behind : { w with trends := round.trends }.Behind i) (mode : w.args.fsdmode > 0) :
    w.BuffersClear round := by
  have elected : (w.elect round).1.Behind i :=
    steady_elect steady_behind round { behind with ready := ⟨behind.ready.own, behind.ready.relays⟩ }
  have begun := beforeAlarm_rule (P := Behind i) (fun v op exports behind =>
    { behind with
      ready := ready_dstate behind.ready (Status.plain_of_exports exports)
      noFlag := (Status.getinfo_exports behind.ready.own exports (by decide)).trans behind.noFlag })
    (fun v elapsed time behind => { behind with ready := ⟨behind.ready.own, behind.ready.relays⟩ }) elected
  have args := (timers_args (timers_dropPrimary _)).symm.trans (atAlarm_args w round)
  exact dropPrimary_clear begun (by rw [args]; exact mode)

theorem marked_unclear (ready : w.Ready) (marked : w.Marked) : ¬ w.BuffersClear round := fun clear =>
  marked.alarm ((buffersClear_alone ready marked.primary).mp clear).alarm

theorem instcmd_own (w : Failover) (cmdname : CString) (extra : Option CString) (now : Int) :
    (w.instcmd cmdname extra now).1.own = w.own ∧ (w.instcmd cmdname extra now).1.primaryUps = w.primaryUps := by
  unfold instcmd
  dsimp only
  split
  · split <;> exact ⟨rfl, rfl⟩
  · split <;> exact ⟨rfl, rfl⟩

theorem announced_instcmd (w : Failover) (cmdname : CString) (extra : Option CString) (now : Int) :
    (w.instcmd cmdname extra now).1.Announced ↔ w.Announced := by
  unfold Announced
  rw [(instcmd_own w cmdname extra now).1, timers_args (timers_instcmd w cmdname extra now)]

theorem critical_run {more : List FailoverEvent} (ready : w.Ready) (mode : w.args.fsdmode = 1 ∨ w.args.fsdmode = 2)
    (critical : Always step (EachAction StillCritical) w (.update round :: more)) :
    ((more.foldl step (w.upsdrvUpdateinfo round)).Announced ↔ (∀ later, .update later ∉ more) ∧ w.BuffersClear round) ∧
      (more.foldl step (w.upsdrvUpdateinfo round)).Marked := by
  induction more using List.reverseRecOn with
  | nil =>
    obtain ⟨announced, marked⟩ := critical_update ready mode critical.1
    exact ⟨by simpa using announced, marked⟩
  | append_singleton more event ih =>
    have upto : FailoverEvent.update round :: (more ++ [event]) = (.update round :: more) ++ [event] := rfl
    rw [upto] at critical
    obtain ⟨announced, marked⟩ := ih (always_upto critical)
    have last := always_last critical
    have before : (FailoverEvent.update round :: more).foldl step w = more.foldl step (w.upsdrvUpdateinfo round) := rfl
    rw [before] at last
    have readyBefore : (more.foldl step (w.upsdrvUpdateinfo round)).Ready := ready_run ready (.update round :: more)
    have args : (more.foldl step (w.upsdrvUpdateinfo round)).args = w.args := args_run (.update round :: more)
    rw [List.foldl_append]
    generalize more.foldl step (w.upsdrvUpdateinfo round) = v at *
    cases event with
    | instcmd cmdname extra now =>
      have kept := instcmd_own v cmdname extra now
      change ((v.instcmd cmdname extra now).1.Announced ↔ _) ∧ (v.instcmd cmdname extra now).1.Marked
      rw [announced_instcmd, announced]
      exact ⟨by simp, kept.2.trans marked.primary, kept.1 ▸ marked.alarm⟩
    | update later =>
      obtain ⟨again, stillMarked⟩ := critical_update readyBefore (args ▸ mode) last
      refine ⟨?_, stillMarked⟩
      change (v.upsdrvUpdateinfo later).Announced ↔ _
      rw [again]
      refine iff_of_false (marked_unclear readyBefore marked) fun both => ?_
      exact both.1 later (List.mem_append_right _ (List.mem_singleton.mpr rfl))

-- The message and the status are as they should be in the first update that finds the outage too long
-- if the buffers are clear there, and in no further one.
theorem outage_announced {events more : List FailoverEvent} (ready : w.Ready) (mode : w.args.fsdmode = 1 ∨ w.args.fsdmode = 2)
    (critical : Always step (EachAction StillCritical) (events.foldl step w) (.update round :: more)) :
    (more.foldl step ((events.foldl step w).upsdrvUpdateinfo round)).Announced ↔
      (∀ later, .update later ∉ more) ∧ (events.foldl step w).BuffersClear round :=
  (critical_run (ready_run ready events) ((args_run events (w := w)) ▸ mode) critical).1

end Outages

def sampleLoss : List FailoverEvent :=
  [.update (sampleRound 1001 sampleDump), .update (sampleRound 1003 .failed)]

def sampleOutage : List FailoverEvent :=
  [.update (sampleRound 1020 .failed), .update (sampleRound 1021 .failed)]

theorem sampleStart_ready : sampleStart.Ready := by
  have vars : ∀ ups ∈ sampleStart.upsList, ups.varList = [] := by decide +kernel
  have empty : Mutable sampleStart.own.dstate.dtreeRoot := fun node member => by cases member
  refine ⟨⟨trivial, empty, rfl⟩, fun ups member var there => ?_⟩
  rw [vars ups member] at there
  cases there

-- The first update of an outage, behind a primary.
theorem outage_announced_sample : ([FailoverEvent.instcmd (cstr "other") none 1020].foldl step
        ((sampleLoss.foldl step sampleStart).upsdrvUpdateinfo (sampleRound 1020 .failed))).Announced :=
  (outage_announced sampleStart_ready (.inr rfl) (by decide +kernel)).mpr (by
    refine ⟨fun later member => ?_, ?_⟩
    · simp at member
    · exact ⟨by decide +kernel, by decide +kernel, by decide +kernel⟩)

-- The message is there twice after the second update.
theorem announced_twice : Always step (EachAction StillCritical) (sampleLoss.foldl step sampleStart) sampleOutage ∧
      stateGetinfo ((sampleLoss ++ sampleOutage).foldl step sampleStart).own.dstate.dtreeRoot (cstr "ups.alarm") =
        some (cstr "No suitable primaries for failover No suitable primaries for failover") ∧
      ¬ ((sampleLoss ++ sampleOutage).foldl step sampleStart).Announced := by
  decide +kernel

end Failover

end Nut
