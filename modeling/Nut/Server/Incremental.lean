import Nut.Drivers.DstateRun
import Nut.Server.Mirror

set_option autoImplicit false

namespace Nut

namespace DstateOp

def IsValue (text : CString) : Prop :=
  text.length < stMaxValueLen ∧ ∀ b ∈ text, isText b = true

def WellFormed : DstateOp -> Prop
  | setinfo var text | addenum var text | delenum var text => IsName var ∧ IsValue text
  | addrange var _ _ | delrange var _ _ | setflags var _ | addflags var _ | delflags var _
  | setaux var _ | delinfo var | delinfoOlderthan var _ => IsName var
  | addcmd cmd | delcmd cmd => IsName cmd
  | dataok | datastale => True

def Unescaped (text : CString) : Prop :=
  ∀ b ∈ text, b ≠ 34 ∧ b ≠ 92

def FlagsShown (d : Dstate) (var : CString) (flags : BitVec 32) : Prop :=
  flagWords flags ≠ [] ∨
    ∀ node, stateTreeFind d.dtreeRoot var = some node ->
      node.immutable = true ∨ node.flags = flags ∨ flagWords node.flags = []

def Relayable (d : Dstate) : DstateOp -> Prop
  | setinfo var text =>
    Unescaped text ∨ ∃ node, stateTreeFind d.dtreeRoot var = some node ∧
      (node.raw = text ∨ node.immutable = true)
  | addenum var text =>
    Unescaped text ∨ ∀ node, stateTreeFind d.dtreeRoot var = some node ->
      pconfEncode text [] stMaxValueLen ∈ node.enumList
  | delenum var val =>
    Unescaped val ∨ ∀ node, stateTreeFind d.dtreeRoot var = some node ->
      ∀ item ∈ node.enumList, strcasecmp item val ≠ .eq
  | setflags var flags => FlagsShown d var flags
  | delflags var flags => FlagsShown d var (stateGetflags d.dtreeRoot var &&& ~~~flags)
  | _ => True

end DstateOp

def Synced (d : Dstate) (ups : Upstype) : Prop :=
  SyncedTree d.dtreeRoot ups.inforoot ∧ d.cmdhead = ups.cmdlist

theorem stable_synced (d : Dstate) : Stable (Synced d) :=
  fun _ _ _ synced => synced

-- The lines make upsd follow the driver to `d`.
def Relays (d : Dstate) (lines : List CString) (ups : Upstype) : Prop :=
  Hears (· = ups) lines (Synced d)

theorem flagWords_or {flags added : BitVec 32} (hidden : flagWords (flags ||| added) = []) : flagWords flags = [] := by
  have bit (flag : BitVec 32) (none : (flags ||| added) &&& flag = 0) : flags &&& flag = 0 := by
    rw [BitVec.and_comm, BitVec.and_or_distrib_left] at none
    rw [BitVec.and_comm]
    exact (BitVec.or_eq_zero_iff.mp none).1
  have optional (shown : Prop) [Decidable shown] (word : CString) : (if shown then [word] else []) = [] ↔ ¬ shown := by
    split <;> simp_all
  simp only [flagWords, List.append_eq_nil_iff, optional, not_not] at hidden ⊢
  exact ⟨⟨bit _ hidden.1.1, bit _ hidden.1.2⟩, bit _ hidden.2⟩

section Relay

variable {d d' : Dstate} {ups : Upstype}

theorem relays_nil (synced : Synced d ups) : Relays d [] ups := hears_nil fun _ same => same ▸ synced

theorem relays_append {lines more : List CString} (first : Relays d lines ups)
    (second : ∀ ups, Synced d ups -> Relays d' more ups) : Relays d' (lines ++ more) ups :=
  hears_append first fun now tracking ups synced => second ups synced now tracking ups rfl

theorem relays_line {text : CString} {words : List CString}
    (line : IsLine 32 512 text words ∧ text.length < stSockBufLen)
    (synced : ∀ now tracking, Synced d (parseArgs now ups tracking words).1) : Relays d (sockLine text) ups :=
  hears_line line (stable_synced d) fun now tracking _ same => same ▸ synced now tracking

theorem relays_repeated {op : StateOp} (repeated : op.isRepeated = true) (now : Int)
    (synced : Synced d ups) (text : CString) (words : List CString)
    (told : (op.apply now d.dtreeRoot).2 = 1 -> IsLine 32 512 text words ∧ text.length < stSockBufLen)
    (effect : ∀ now tracking, (parseArgs now ups tracking words).1 =
      { ups with inforoot := (op.apply now ups.inforoot).1 }) :
    Relays { d with dtreeRoot := (op.apply now d.dtreeRoot).1 }
      (if (op.apply now d.dtreeRoot).2 = 1 then sockLine text else []) ups := by
  by_cases changed : (op.apply now d.dtreeRoot).2 = 1
  · rw [if_pos changed]
    apply relays_line (told changed)
    intro now' tracking
    rw [effect]
    exact ⟨synced_repeated repeated now now' synced.1 changed, synced.2⟩
  · rw [if_neg changed]
    exact relays_nil ⟨synced_same repeated now synced.1 changed, synced.2⟩

theorem quotedAs_value {value : CString} (isValue : DstateOp.IsValue value)
    (unescaped : DstateOp.Unescaped value) : QuotedAs value value := quotedAs_plain fun b member =>
    ⟨isValue.2 b member, (unescaped b member).1, (unescaped b member).2⟩

theorem IsValue.snprintf {text : CString} (isValue : DstateOp.IsValue text) : Nut.snprintf stMaxValueLen text = text :=
  snprintf_fits isValue.1

theorem relays_setinfo {var text : CString} (now : Int) (synced : Synced d ups)
    (wellFormed : DstateOp.WellFormed (.setinfo var text)) (relayable : DstateOp.Relayable d (.setinfo var text)) :
    Relays (DstateOp.apply now d (.setinfo var text)).1 (DstateOp.apply now d (.setinfo var text)).2
      ups := by
  have repeats := relays_repeated (show (StateOp.setinfo var text).isRepeated = true from rfl) now
    synced (formatValue (cstr "SETINFO") var text) [cstr "SETINFO", var, text] ?_ fun _ _ => rfl
  · simp only [DstateOp.apply, Dstate.vdstateSetinfo, IsValue.snprintf wellFormed.2]
    exact repeats
  · intro changed
    obtain unescaped | ⟨node, present, kept⟩ := relayable
    · exact isLine_formatValue (by decide) (by decide) wellFormed.1 (quotedAs_value wellFormed.2 unescaped)
        wellFormed.2.1 wellFormed.2.1
    · rw [StateOp.apply_snd] at changed
      rw [show (StateOp.setinfo var text).var = var from rfl, present, Option.elim_some] at changed
      obtain same | locked := kept
      · simp [StateOp.found, StNode.setinfo, StNode.refreshTimestamp, same] at changed
      · have free := StNode.setinfo_changed changed
        rw [locked] at free
        cases free

theorem stTreeDelEnum_missing {val : CString} {list : List CString}
    (missing : ∀ item ∈ list, strcasecmp item val ≠ .eq) : (stTreeDelEnum val list).2 = 0 := by
  induction list with
  | nil => rfl
  | cons item rest ih =>
    have other := missing item (by simp)
    simp only [stTreeDelEnum, other, if_false]
    exact ih fun item member => missing item (by simp [member])

theorem relays_addenum {var text : CString} (now : Int) (synced : Synced d ups)
    (wellFormed : DstateOp.WellFormed (.addenum var text)) (relayable : DstateOp.Relayable d (.addenum var text)) :
    Relays (DstateOp.apply now d (.addenum var text)).1 (DstateOp.apply now d (.addenum var text)).2
      ups := by
  have repeats := relays_repeated (show (StateOp.addenum var text).isRepeated = true from rfl) now
    synced (formatValue (cstr "ADDENUM") var text) [cstr "ADDENUM", var, text] ?_ fun _ _ => rfl
  · simp only [DstateOp.apply, Dstate.vdstateAddenum, IsValue.snprintf wellFormed.2]
    exact repeats
  · intro changed
    obtain unescaped | present := relayable
    · exact isLine_formatValue (by decide) (by decide) wellFormed.1 (quotedAs_value wellFormed.2 unescaped)
        wellFormed.2.1 wellFormed.2.1
    · rw [StateOp.apply_snd, show (StateOp.addenum var text).var = var from rfl] at changed
      cases found : stateTreeFind d.dtreeRoot var with
      | none => simp [found, StateOp.missing] at changed
      | some node =>
        rw [found, Option.elim_some] at changed
        change (stTreeEnumAdd _ node.enumList).2 = 1 at changed
        rw [stTreeEnumAdd_eq, if_pos (present node found)] at changed
        cases changed

theorem relays_delenum {var val : CString} (now : Int) (synced : Synced d ups)
    (wellFormed : DstateOp.WellFormed (.delenum var val)) (relayable : DstateOp.Relayable d (.delenum var val)) :
    Relays (DstateOp.apply now d (.delenum var val)).1 (DstateOp.apply now d (.delenum var val)).2
      ups := by
  apply relays_repeated (show (StateOp.delenum var val).isRepeated = true from rfl) now synced
    (formatValue (cstr "DELENUM") var val) [cstr "DELENUM", var, val] ?_ fun _ _ => rfl
  intro changed
  obtain unescaped | absent := relayable
  · exact isLine_formatValue (by decide) (by decide) wellFormed.1 (quotedAs_value wellFormed.2 unescaped)
      wellFormed.2.1 wellFormed.2.1
  · rw [StateOp.apply_snd, show (StateOp.delenum var val).var = var from rfl] at changed
    cases found : stateTreeFind d.dtreeRoot var with
    | none => simp [found, StateOp.missing] at changed
    | some node =>
      rw [found, Option.elim_some] at changed
      have kept := stTreeDelEnum_missing (absent node found)
      change (stTreeDelEnum _ node.enumList).2 = 1 at changed
      omega

theorem relays_setflags {var : CString} {flags : BitVec 32} (synced : Synced d ups)
    (isName : IsName var) (shown : DstateOp.FlagsShown d var flags) :
    Relays (Dstate.dstateSetflags var flags d).1 (Dstate.dstateSetflags var flags d).2.1 ups := by
  cases present : stateTreeFind d.dtreeRoot var with
  | none =>
    simp only [Dstate.dstateSetflags, present]
    exact relays_nil synced
  | some node =>
    simp only [Dstate.dstateSetflags, present]
    by_cases locked : node.immutable = true
    · rw [if_pos locked]
      exact relays_nil synced
    by_cases same : node.flags = flags
    · rw [if_neg locked, if_pos same]
      exact relays_nil synced
    rw [if_neg locked, if_neg same]
    apply relays_line (isLine_setflags isName flags)
    intro now tracking
    cases words : flagWords flags with
    | nil =>
      have before : flagWords node.flags = [] := by
        obtain shown | hidden := shown
        · exact absurd words shown
        · obtain immutable | unchanged | hidden := hidden node present
          · exact absurd immutable locked
          · exact absurd unchanged same
          · exact hidden
      refine ⟨synced_hidden synced.1 words ?_, synced.2⟩
      intro other found
      rw [present] at found
      cases found
      exact before
    | cons word rest =>
      refine ⟨?_, synced.2⟩
      have heard := synced_setflags var flags now synced.1
      rw [words] at heard
      exact heard

theorem relays_addflags {var : CString} {flags : BitVec 32} (synced : Synced d ups) (isName : IsName var) :
    Relays (Dstate.dstateAddflags var flags d).1 (Dstate.dstateAddflags var flags d).2.1 ups := by
  simp only [Dstate.dstateAddflags]
  by_cases unknown : stateGetflags d.dtreeRoot var = -1
  · rw [if_pos unknown]
    exact relays_nil synced
  by_cases already : stateGetflags d.dtreeRoot var &&& flags = flags
  · rw [if_neg unknown, if_pos already]
    exact relays_nil synced
  rw [if_neg unknown, if_neg already]
  apply relays_setflags synced isName
  -- Adding flags never hides one that showed before.
  cases present : stateTreeFind d.dtreeRoot var with
  | none => simp [stateGetflags, present] at unknown
  | some node =>
    have flagsOf : stateGetflags d.dtreeRoot var = node.flags := by simp [stateGetflags, present]
    rw [flagsOf]
    by_cases hidden : flagWords (node.flags ||| flags) = []
    · refine Or.inr ?_
      intro other found
      rw [present] at found
      cases found
      exact Or.inr (Or.inr (flagWords_or hidden))
    · exact Or.inl hidden

theorem relays_delflags {var : CString} {flags : BitVec 32} (synced : Synced d ups) (isName : IsName var)
    (shown : DstateOp.FlagsShown d var (stateGetflags d.dtreeRoot var &&& ~~~flags)) :
    Relays (Dstate.dstateDelflags var flags d).1 (Dstate.dstateDelflags var flags d).2.1 ups := by
  simp only [Dstate.dstateDelflags]
  by_cases unknown : stateGetflags d.dtreeRoot var = -1
  · rw [if_pos unknown]
    exact relays_nil synced
  by_cases already : stateGetflags d.dtreeRoot var &&& flags = 0
  · rw [if_neg unknown, if_pos already]
    exact relays_nil synced
  rw [if_neg unknown, if_neg already]
  exact relays_setflags synced isName shown

theorem relays_range {var : CString} {min max : Int32} (now : Int) (synced : Synced d ups) (isName : IsName var) :
    Relays { d with dtreeRoot := (stateAddrange now var min max d.dtreeRoot).1 }
      (if (stateAddrange now var min max d.dtreeRoot).2 = 1 then sockLine (formatRange (cstr "ADDRANGE") var min max) else [])
      ups := by
  apply relays_repeated (show (StateOp.addrange var min max).isRepeated = true from rfl) now
    synced (formatRange (cstr "ADDRANGE") var min max)
    [cstr "ADDRANGE", var, printInt min.toInt, printInt max.toInt]
    (fun _ => isLine_formatRange (by decide) (by decide) isName min max)
  intro now tracking
  have same : (parseArgs now ups tracking [cstr "ADDRANGE", var, printInt min.toInt, printInt max.toInt]).1 =
    { ups with inforoot := (stateAddrange now var (atoi (printInt min.toInt))
        (atoi (printInt max.toInt)) ups.inforoot).1 } := rfl
  rw [same, atoi_printInt, atoi_printInt]
  rfl

theorem relays_addrange {var : CString} {min max : Int32} (now : Int) (synced : Synced d ups) (isName : IsName var) :
    Relays (Dstate.dstateAddrange now var min max d).1 (Dstate.dstateAddrange now var min max d).2.1 ups := by
  have repeats := @relays_range d ups var min max now synced isName
  simp only [Dstate.dstateAddrange]
  by_cases changed : (stateAddrange now var min max d.dtreeRoot).2 = 1
  · rw [if_pos changed] at repeats ⊢
    exact relays_append repeats fun ups synced => relays_addflags synced isName
  · rw [if_neg changed] at repeats ⊢
    exact repeats

theorem relays_delrange {var : CString} {min max : Int32} (now : Int) (synced : Synced d ups) (isName : IsName var) :
    Relays (DstateOp.apply now d (.delrange var min max)).1 (DstateOp.apply now d (.delrange var min max)).2 ups := by
  apply relays_repeated (show (StateOp.delrange var min max).isRepeated = true from rfl) now synced
    (formatRange (cstr "DELRANGE") var min max)
    [cstr "DELRANGE", var, printInt min.toInt, printInt max.toInt]
    (fun _ => isLine_formatRange (by decide) (by decide) isName min max)
  intro now tracking
  have same : (parseArgs now ups tracking [cstr "DELRANGE", var, printInt min.toInt, printInt max.toInt]).1 =
    { ups with inforoot := (stateDelrange now var (atoi (printInt min.toInt))
        (atoi (printInt max.toInt)) ups.inforoot).1 } := rfl
  rw [same, atoi_printInt, atoi_printInt]
  rfl

theorem relays_setaux {var : CString} {aux : Int64} (synced : Synced d ups) (isName : IsName var) :
    Relays (Dstate.dstateSetaux var aux d).1 (Dstate.dstateSetaux var aux d).2.1 ups := by
  cases present : stateTreeFind d.dtreeRoot var with
  | none =>
    simp only [Dstate.dstateSetaux, present]
    exact relays_nil synced
  | some node =>
    simp only [Dstate.dstateSetaux, present]
    by_cases same : node.aux = aux
    · rw [if_pos same]
      exact relays_nil synced
    rw [if_neg same]
    apply relays_line (isLine_formatAux isName aux)
    intro now tracking
    exact ⟨synced_setaux var aux now synced.1, synced.2⟩

theorem relays_delinfo {var : CString} (now : Int) (synced : Synced d ups) (isName : IsName var) :
    Relays (DstateOp.apply now d (.delinfo var)).1 (DstateOp.apply now d (.delinfo var)).2 ups :=
  relays_repeated (show (StateOp.delinfo var).isRepeated = true from rfl) now synced
    (formatWord (cstr "DELINFO") var) [cstr "DELINFO", var]
    (fun _ => isLine_formatWord (by decide) (by decide) isName) fun _ _ => rfl

theorem relays_olderthan {var : CString} {cutoff : Int} (synced : Synced d ups) (isName : IsName var) :
    Relays (Dstate.dstateDelinfoOlderthan var cutoff d).1 (Dstate.dstateDelinfoOlderthan var cutoff d).2.1 ups := by
  have follows := synced_olderthan var cutoff 0 0 synced.1
  simp only [Dstate.dstateDelinfoOlderthan]
  by_cases deleted : (stateDelinfoOlderthan var cutoff d.dtreeRoot).2 = 1
  · rw [if_pos deleted] at follows ⊢
    exact relays_line (isLine_formatWord (by decide) (by decide) isName)
      fun now tracking => ⟨follows, synced.2⟩
  · rw [if_neg deleted] at follows ⊢
    exact relays_nil ⟨follows, synced.2⟩

theorem stateAddcmd_same {cmd : CString} {list : CmdList} (same : (stateAddcmd cmd list).2 ≠ 1) :
    (stateAddcmd cmd list).1 = list := by
  rw [stateAddcmd, SortedList.visit_eq] at same ⊢
  apply SortedList.alter_eq_self
  · intro item _
    rfl
  · intro absent
    rw [absent] at same
    exact absurd rfl same

theorem stateDelcmd_same {cmd : CString} {list : CmdList} (same : (stateDelcmd cmd list).2 ≠ 1) :
    (stateDelcmd cmd list).1 = list := by
  rw [stateDelcmd, SortedList.visit_eq] at same ⊢
  apply SortedList.alter_eq_self
  · intro item present
    rw [present] at same
    exact absurd rfl same
  · intro _
    rfl

theorem relays_addcmd {cmd : CString} (synced : Synced d ups) (isName : IsName cmd) :
    Relays (Dstate.dstateAddcmd cmd d).1 (Dstate.dstateAddcmd cmd d).2.1 ups := by
  simp only [Dstate.dstateAddcmd]
  by_cases added : (stateAddcmd cmd d.cmdhead).2 = 1
  · rw [if_pos added]
    apply relays_line (isLine_formatWord (by decide) (by decide) isName)
    intro now tracking
    exact ⟨synced.1, congrArg (fun list => (stateAddcmd cmd list).1) synced.2⟩
  · rw [if_neg added, stateAddcmd_same added]
    exact relays_nil synced

theorem relays_delcmd {cmd : CString} (synced : Synced d ups) (isName : IsName cmd) :
    Relays (Dstate.dstateDelcmd cmd d).1 (Dstate.dstateDelcmd cmd d).2.1 ups := by
  simp only [Dstate.dstateDelcmd]
  by_cases deleted : (stateDelcmd cmd d.cmdhead).2 = 1
  · rw [if_pos deleted]
    apply relays_line (isLine_formatWord (by decide) (by decide) isName)
    intro now tracking
    exact ⟨synced.1, congrArg (fun list => (stateDelcmd cmd list).1) synced.2⟩
  · rw [if_neg deleted, stateDelcmd_same deleted]
    exact relays_nil synced

theorem relays_dataok (synced : Synced d ups) : Relays (Dstate.dstateDataok d).1 (Dstate.dstateDataok d).2.1 ups := by
  simp only [Dstate.dstateDataok]
  by_cases stale : d.stale = true
  · rw [if_pos stale]
    exact relays_line (isLine_keyword (cstr "DATAOK") (by decide) (by decide))
      fun now tracking => synced
  · rw [if_neg stale]
    exact relays_nil synced

theorem relays_datastale (synced : Synced d ups) :
    Relays (Dstate.dstateDatastale d).1 (Dstate.dstateDatastale d).2.1 ups := by
  simp only [Dstate.dstateDatastale]
  by_cases stale : d.stale = true
  · rw [if_pos stale]
    exact relays_nil synced
  · rw [if_neg stale]
    exact relays_line (isLine_keyword (cstr "DATASTALE") (by decide) (by decide))
      fun now tracking => synced

theorem relays_apply {op : DstateOp} (now : Int) (synced : Synced d ups) (wellFormed : op.WellFormed)
    (relayable : op.Relayable d) : Relays (op.apply now d).1 (op.apply now d).2 ups := by
  cases op with
  | setinfo var text => exact relays_setinfo now synced wellFormed relayable
  | addenum var text => exact relays_addenum now synced wellFormed relayable
  | delenum var val => exact relays_delenum now synced wellFormed relayable
  | addrange var min max => exact relays_addrange now synced wellFormed
  | delrange var min max => exact relays_delrange now synced wellFormed
  | setflags var flags => exact relays_setflags synced wellFormed relayable
  | addflags var flags => exact relays_addflags synced wellFormed
  | delflags var flags => exact relays_delflags synced wellFormed relayable
  | setaux var aux => exact relays_setaux synced wellFormed
  | delinfo var => exact relays_delinfo now synced wellFormed
  | delinfoOlderthan var cutoff => exact relays_olderthan synced wellFormed
  | addcmd cmd => exact relays_addcmd synced wellFormed
  | delcmd cmd => exact relays_delcmd synced wellFormed
  | dataok => exact relays_dataok synced
  | datastale => exact relays_datastale synced

end Relay

abbrev Pair := Dstate × Upstype × TrackingList

def mirrorStep (pair : Pair) (step : (Int × Int) × DstateOp) : Pair :=
  let (d, lines) := step.2.apply step.1.1 pair.1
  (d, sstateReadline step.1.2 pair.2.1 pair.2.2 lines.flatten)

def mirrorRun (pair : Pair) (steps : List ((Int × Int) × DstateOp)) : Pair :=
  steps.foldl mirrorStep pair

-- Every step of the run meets the condition in the state it is taken in.
def EveryRelayable : Pair -> List ((Int × Int) × DstateOp) -> Prop
  | _, [] => True
  | pair, step :: rest =>
    step.2.Relayable pair.1 ∧ EveryRelayable (mirrorStep pair step) rest

theorem mirrorStep_synced {pair : Pair} {step : (Int × Int) × DstateOp}
    (synced : Synced pair.1 pair.2.1) (listening : Listening pair.2.1)
    (wellFormed : step.2.WellFormed) (relayable : step.2.Relayable pair.1) :
    Synced (mirrorStep pair step).1 (mirrorStep pair step).2.1 ∧ Listening (mirrorStep pair step).2.1 := by
  exact sstateReadline_hears (relays_apply step.1.1 synced wellFormed relayable) (stable_synced _)
    listening rfl step.1.2 pair.2.2

theorem mirrorRun_synced {pair : Pair} {steps : List ((Int × Int) × DstateOp)}
    (synced : Synced pair.1 pair.2.1) (listening : Listening pair.2.1)
    (wellFormed : ∀ step ∈ steps, step.2.WellFormed) (relayable : EveryRelayable pair steps) :
    Synced (mirrorRun pair steps).1 (mirrorRun pair steps).2.1 ∧ Listening (mirrorRun pair steps).2.1 := by
  induction steps generalizing pair with
  | nil => exact ⟨synced, listening⟩
  | cons step rest ih =>
    obtain ⟨synced', listening'⟩ := mirrorStep_synced synced listening (wellFormed step (by simp)) relayable.1
    exact ih synced' listening' (fun later member => wellFormed later (by simp [member])) relayable.2

theorem synced_iff {d : Dstate} {ups : Upstype} :
    Synced d ups ↔ Ordered d.dtreeRoot ∧ Ordered ups.inforoot ∧ Mutable ups.inforoot ∧
      Mirrors d ups := by
  simp only [Synced, syncedTree_iff, Mirrors]
  tauto

-- upsd keeps following the driver in every run whose messages can be told apart.
theorem incremental_mirroring (pair : Pair) (steps : List ((Int × Int) × DstateOp))
    (driver : Ordered pair.1.dtreeRoot) (upsd : Ordered pair.2.1.inforoot ∧ Mutable pair.2.1.inforoot)
    (equal : Mirrors pair.1 pair.2.1) (listening : Listening pair.2.1)
    (wellFormed : ∀ step ∈ steps, step.2.WellFormed) (relayable : EveryRelayable pair steps) :
    Mirrors (mirrorRun pair steps).1 (mirrorRun pair steps).2.1 := by
  have synced := synced_iff.mpr ⟨driver, upsd.1, upsd.2, equal⟩
  exact (synced_iff.mp (mirrorRun_synced synced listening wellFormed relayable).1).2.2.2

def sampleTree : StTree :=
  (stateSetinfo 0 (cstr "ups.id") (cstr "x") .nil).1

def sampleUps : Upstype :=
  { name := cstr "ups", fn := cstr "dummy-ups", desc := none, connected := true, stale := false,
    dumpdone := true, dataOk := true, lastHeard := 0, lastPing := 0, sockCtx := pconfInit,
    inforoot := sampleTree, cmdlist := [], numlogins := 0, fsd := false, retain := true }

def samplePair : Pair :=
  ({ dtreeRoot := sampleTree, cmdhead := [], stale := false }, sampleUps, [])

theorem samplePair_synced :
    Ordered samplePair.1.dtreeRoot ∧ (Ordered samplePair.2.1.inforoot ∧ Mutable samplePair.2.1.inforoot) ∧
      Mirrors samplePair.1 samplePair.2.1 ∧ Listening samplePair.2.1 := by
  have empty : Ordered .nil := trivial
  have ordered := StateOp.ordered_apply (.setinfo (cstr "ups.id") (cstr "x")) 0 empty
  have mutable := StateOp.mutable_apply (.setinfo (cstr "ups.id") (cstr "x")) 0 empty
    fun node member => by cases member
  exact ⟨ordered, ⟨ordered, mutable⟩, ⟨rfl, rfl⟩, atLineStart_init _ _, rfl, rfl⟩

theorem incremental_mirroring_sample :
    Mirrors (mirrorRun samplePair [((1, 1), .setinfo (cstr "ups.id") (cstr "a b"))]).1
      (mirrorRun samplePair [((1, 1), .setinfo (cstr "ups.id") (cstr "a b"))]).2.1 :=
  incremental_mirroring samplePair [((1, 1), .setinfo (cstr "ups.id") (cstr "a b"))]
    samplePair_synced.1 samplePair_synced.2.1 samplePair_synced.2.2.1 samplePair_synced.2.2.2 (by
      intro step member
      obtain rfl := List.mem_singleton.mp member
      exact ⟨by decide, by decide, by decide +kernel⟩)
    ⟨Or.inl (show ∀ b ∈ cstr "a b", b ≠ 34 ∧ b ≠ 92 by decide +kernel), trivial⟩

-- A double quote in a value ends the value on the way, and a message without flags is ignored.
theorem incremental_mirroring_broken : Synced samplePair.1 samplePair.2.1 ∧ Listening samplePair.2.1 ∧
      (DstateOp.setinfo (cstr "ups.id") (cstr "a\"b")).WellFormed ∧
      ¬ Mirrors (mirrorRun samplePair [((1, 1), .setinfo (cstr "ups.id") (cstr "a\"b"))]).1
        (mirrorRun samplePair [((1, 1), .setinfo (cstr "ups.id") (cstr "a\"b"))]).2.1 ∧
      (DstateOp.addflags (cstr "ups.id") 1).WellFormed ∧ (DstateOp.delflags (cstr "ups.id") 1).WellFormed ∧
      ¬ Mirrors (mirrorRun samplePair [((1, 1), .addflags (cstr "ups.id") 1), ((2, 2), .delflags (cstr "ups.id") 1)]).1
        (mirrorRun samplePair [((1, 1), .addflags (cstr "ups.id") 1), ((2, 2), .delflags (cstr "ups.id") 1)]).2.1 := by
  have isName : IsName (cstr "ups.id") := by decide
  obtain ⟨driver, upsd, equal, listening⟩ := samplePair_synced
  refine ⟨synced_iff.mpr ⟨driver, upsd.1, upsd.2, equal⟩, listening,
    ⟨isName, by decide, by decide +kernel⟩, ?_, isName, isName, ?_⟩
  · decide +kernel
  · decide +kernel

end Nut
