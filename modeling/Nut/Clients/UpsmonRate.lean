import Nut.Clients.UpsmonAlarms
import Nut.Clients.UpsmonEco

set_option autoImplicit false

namespace Nut

open UpsPoll

def alertStates : List StFlag :=
  [.onbatt, .off, .bypass, .alarm]

def powerStates : List StFlag :=
  [.onbatt, .off, .bypass, .alarm, .cal, .overload, .trim, .boost]

def Utype.alerted (ups : Utype) : Bool :=
  alertStates.any ups.status

def Utype.inPowerState (ups : Utype) : Bool :=
  powerStates.any ups.status

section Handlers

variable {conf : UpsmonConf} {clock : Nat -> Int} {p q r : UpsPoll}

structure RateKept (conf : UpsmonConf) (p q : UpsPoll) : Prop where
  alert : q.sleepval = conf.pollfreqalert ∨
    q.sleepval = p.sleepval ∧ ∀ flag ∈ alertStates, q.ups.status flag = true -> p.ups.status flag = true
  relax : (∃ flag ∈ powerStates, q.ups.status flag = true) ∨
    q.sleepval = p.sleepval ∧ ∀ flag ∈ powerStates, p.ups.status flag = true -> q.ups.status flag = true

theorem rateKept_trans (first : RateKept conf p q) (second : RateKept conf q r) : RateKept conf p r := by
  constructor
  · rcases second.alert with alert | ⟨same, back⟩
    · exact .inl alert
    · rcases first.alert with alert | ⟨same', back'⟩
      · exact .inl (same.trans alert)
      · exact .inr ⟨same.trans same', fun flag member set => back' flag member (back flag member set)⟩
  · rcases second.relax with some_ | ⟨same, onward⟩
    · exact .inl some_
    · rcases first.relax with ⟨flag, member, set⟩ | ⟨same', onward'⟩
      · exact .inl ⟨flag, member, onward flag member set⟩
      · exact .inr ⟨same.trans same', fun flag member set => onward flag member (onward' flag member set)⟩

theorem rateKept_quiet (sleepval : q.sleepval = p.sleepval)
    (status : ∀ flag ∈ powerStates, q.ups.status flag = p.ups.status flag) : RateKept conf p q := by
  have inPower : ∀ flag ∈ alertStates, flag ∈ powerStates := by decide
  exact ⟨.inr ⟨sleepval, fun flag member set => status flag (inPower flag member) ▸ set⟩,
    .inr ⟨sleepval, fun flag member set => (status flag member).trans set⟩⟩

theorem rateKept_refl (p : UpsPoll) : RateKept conf p p := rateKept_quiet rfl fun _ _ => rfl

theorem rateKept_update {flag : StFlag} {value : Bool} (other : flag ∉ powerStates) (sleepval : q.sleepval = p.sleepval)
    (status : q.ups.status = Function.update p.ups.status flag value) : RateKept conf p q := by
  refine rateKept_quiet sleepval fun f member => ?_
  have apart : f ≠ flag := fun same => other (same ▸ member)
  rw [status, Function.update_of_ne apart]

theorem rateKept_enterState {flag : StFlag} {type : NotifyType} {extra : Option CString} {before : UpsPoll -> UpsPoll}
    (other : flag ∉ alertStates) (sleepval : (before p).sleepval = p.sleepval) (status : (before p).ups.status = p.ups.status) :
    RateKept conf p (p.enterState flag type extra before) := by
  have after := enterState_status p flag type extra status
  unfold enterState at after ⊢
  split at after
  next known =>
    rw [if_pos known]
    exact rateKept_refl p
  next unknown =>
    rw [if_neg unknown]
    refine ⟨.inr ⟨sleepval, fun f member set => ?_⟩, .inr ⟨sleepval, fun f member set => ?_⟩⟩
    · have apart : f ≠ flag := fun same => other (same ▸ member)
      rwa [after, Function.update_of_ne apart] at set
    · rw [after]
      by_cases own : f = flag <;> simp [own, set]

theorem rateKept_alert {flag : StFlag} {type : NotifyType} {extra : Option CString} {before : UpsPoll -> UpsPoll}
    (member : flag ∈ powerStates) (sleepval : (before p).sleepval = conf.pollfreqalert) :
    RateKept conf p (p.enterState flag type extra before) := by
  unfold enterState
  split
  · exact rateKept_refl p
  · refine ⟨.inl sleepval, .inl ⟨flag, member, ?_⟩⟩
    rw [setflag_status, Function.update_self]

theorem rateKept_upsIsAlive : RateKept conf p (p.upsIsAlive clock) := by
  refine rateKept_quiet ?_ fun flag _ => by rw [upsIsAlive_status]
  unfold upsIsAlive
  dsimp only
  split_ifs <;> rfl

theorem rateKept_updateCrittimer : RateKept conf p (p.updateCrittimer clock) := by
  refine rateKept_quiet ?_ fun flag _ => by rw [updateCrittimer_status]
  unfold updateCrittimer
  split <;> rfl

theorem rateKept_upsOnBatt : RateKept conf p (p.upsOnBatt conf) := by
  unfold upsOnBatt
  split
  · exact rateKept_refl p
  · exact rateKept_trans (rateKept_alert (by decide) rfl)
      (rateKept_update (by decide : StFlag.online ∉ powerStates) rfl (clearflag_status _ _))

theorem rateKept_upsreplbatt : RateKept conf p (p.upsreplbatt conf clock) := by
  refine rateKept_quiet ?_ fun flag _ => by rw [upsreplbatt_status]
  unfold upsreplbatt
  dsimp only
  split_ifs <;> rfl

theorem rateKept_upsIsOff : RateKept conf p (p.upsIsOff conf clock) := by
  unfold upsIsOff
  dsimp only
  split_ifs
  · exact rateKept_quiet rfl fun _ _ => rfl
  · exact rateKept_quiet rfl fun _ _ => rfl
  · exact rateKept_quiet rfl fun _ _ => rfl
  all_goals exact rateKept_trans (rateKept_quiet (p := p) (q := p.tick) rfl fun _ _ => rfl) (rateKept_alert (by decide) rfl)

theorem rateKept_upsIsAlarm (alarms : Option CString) : RateKept conf p (p.upsIsAlarm conf alarms) := by
  unfold upsIsAlarm
  split
  · cases alarms with
    | none => exact rateKept_refl p
    | some alarms =>
      dsimp only
      split_ifs
      · exact rateKept_refl p
      · exact rateKept_quiet rfl fun _ _ => rfl
  · have entered : RateKept conf p (p.enterState .alarm .alarm (alarms.getD (cstr "n/a"))
        fun p => { p.alert conf with ups.alarmstate := 1 }) := rateKept_alert (by decide) rfl
    exact rateKept_trans entered (rateKept_quiet rfl fun _ _ => rfl)

theorem rateKept_upsIsOver : RateKept conf p (p.upsIsOver conf clock) := by
  have ticked : RateKept conf p p.tick := rateKept_quiet rfl fun _ _ => rfl
  unfold upsIsOver
  dsimp only
  split_ifs
  · exact rateKept_quiet rfl fun _ _ => rfl
  · exact ticked
  · exact rateKept_trans ticked (rateKept_alert (by decide) rfl)
  · exact rateKept_trans ticked (rateKept_enterState (by decide) rfl rfl)

theorem rateKept_upsFsd : RateKept conf p (p.upsFsd clock) := by
  refine rateKept_update (by decide : StFlag.fsd ∉ powerStates) ?_ (upsFsd_status clock p)
  unfold upsFsd
  dsimp only
  split_ifs <;> rfl

theorem rateKept_parseStatword (alarms : Option CString) {statword : CString} (other : isStatword statword "OL" = false) :
    RateKept conf p (p.parseStatword conf clock alarms statword) := by
  apply parseStatword_cases conf clock (P := RateKept conf p)
  case online =>
    intro is
    rw [other] at is
    cases is
  case onbatt => exact fun _ => rateKept_upsOnBatt
  case lowbatt => exact fun _ => rateKept_enterState (by decide) rfl rfl
  case replbatt => exact fun _ => rateKept_upsreplbatt
  case cal => exact fun _ => rateKept_enterState (by decide) rfl rfl
  case off => exact fun _ => rateKept_upsIsOff
  case bypass => exact fun _ => rateKept_alert (by decide) rfl
  case eco => exact fun _ => rateKept_enterState (by decide) rfl rfl
  case alarm => exact fun _ => rateKept_upsIsAlarm alarms
  case overload => exact fun _ => rateKept_upsIsOver
  case trim => exact fun _ => rateKept_enterState (by decide) rfl rfl
  case boost => exact fun _ => rateKept_enterState (by decide) rfl rfl
  case fsd => exact fun _ => rateKept_upsFsd
  case other => exact fun _ => rateKept_refl p

end Handlers

namespace UpsPoll

def restores (p : UpsPoll) : Bool :=
  !powerStates.all p.isset

def still (status : CString) (p : UpsPoll) (flag : StFlag) : Bool :=
  p.isset flag && tracked.all fun entry => entry.flag ≠ flag || strstr status (cstr entry.word)

def leavesState (report : Report) (p : UpsPoll) : Bool :=
  (tracked.any fun entry => entry.leave.isSome && p.isset entry.flag && !strstr report.status (cstr entry.word)) ||
    p.isset .eco && !strstr report.status (cstr "ECO") && !report.ecoFound && !powerStates.all (p.still report.status)

def leavesRightly (others : Bool) (report : Report) (p : UpsPoll) : Bool :=
  !p.leavesState report || !others && alertStates.all fun flag => !p.still report.status flag

def onlineRightly (others : Bool) (p : UpsPoll) : Bool :=
  !p.restores || !others && !p.isset .off && !p.isset .bypass && !p.isset .alarm && !(p.isset .onbatt && p.isset .online)

variable (conf : UpsmonConf) (clock : Nat -> Int)

def wordsRightly (others : Bool) (alarm : Nat -> Option CString) : Nat -> List CString -> UpsPoll -> Bool
  | _, [], _ => true
  | i, statword :: rest, p =>
    (!isStatword statword "OL" || p.onlineRightly others) &&
      wordsRightly others alarm (i + 1) rest ((p.parseStatword conf clock (alarm i) statword).updateCrittimer clock)

def reportRightly (others : Bool) (report : Report) (p : UpsPoll) : Bool :=
  report.status = [] ||
    p.leavesRightly others report &&
      wordsRightly conf clock others report.alarm 0 (report.status.splitOn 32)
        (((p.upsIsAlive clock).leaveStates conf report.status).ecoMode conf report)

def pollRightly (others : Bool) (answer : PollAnswer) (p : UpsPoll) : Bool :=
  let connected := if p.isset .cliconnected then (p, true) else p.tryConnect conf clock answer.connect
  !connected.2 || !(answer.status.isSome || answer.buzzword.isSome || answer.buzzwordX.isSome) ||
    connected.1.reportRightly conf clock others answer.report

end UpsPoll

section Words

variable {conf : UpsmonConf} {clock : Nat -> Int} {p q : UpsPoll} {others : Bool}

def RateAlerted (conf : UpsmonConf) (others : Bool) (p : UpsPoll) : Prop :=
  others = true ∨ p.ups.alerted = true -> p.sleepval ≤ conf.pollfreqalert

def RateRelaxed (conf : UpsmonConf) (p : UpsPoll) : Prop :=
  p.ups.inPowerState = false -> p.sleepval = conf.pollfreq

theorem alerted_iff (ups : Utype) : ups.alerted = true ↔ ∃ flag ∈ alertStates, ups.status flag = true :=
  List.any_eq_true

theorem inPowerState_iff (ups : Utype) : ups.inPowerState = true ↔ ∃ flag ∈ powerStates, ups.status flag = true :=
  List.any_eq_true

theorem rateAlerted_kept (kept : RateKept conf p q) (alerted : RateAlerted conf others p) : RateAlerted conf others q := by
  intro some_
  rcases kept.alert with alert | ⟨same, back⟩
  · exact le_of_eq alert
  · rw [same]
    refine alerted (some_.imp_right fun here => ?_)
    obtain ⟨flag, member, set⟩ := (alerted_iff _).mp here
    exact (alerted_iff _).mpr ⟨flag, member, back flag member set⟩

theorem rateRelaxed_kept (kept : RateKept conf p q) (relaxed : RateRelaxed conf p) : RateRelaxed conf q := by
  intro none_
  rcases kept.relax with some_ | ⟨same, onward⟩
  · rw [(inPowerState_iff _).mpr some_] at none_
    cases none_
  · rw [same]
    refine relaxed (Bool.eq_false_iff.mpr fun here => ?_)
    obtain ⟨flag, member, set⟩ := (inPowerState_iff _).mp here
    rw [(inPowerState_iff _).mpr ⟨flag, member, onward flag member set⟩] at none_
    cases none_

theorem tryRestorePollfreq_eq (p : UpsPoll) :
    p.tryRestorePollfreq conf = if p.restores then { p with sleepval := conf.pollfreq } else p := by
  unfold tryRestorePollfreq restores powerStates
  cases [StFlag.onbatt, .off, .bypass, .alarm, .cal, .overload, .trim, .boost].all p.isset <;> rfl

theorem restores_false (kept : p.restores = false) {flag : StFlag} (member : flag ∈ powerStates) : p.isset flag = true := by
  have all : powerStates.all p.isset = true := by simpa [restores] using kept
  exact List.all_eq_true.mp all flag member

theorem rateRelaxed_restore (p : UpsPoll) : RateRelaxed conf (p.tryRestorePollfreq conf) := by
  rw [tryRestorePollfreq_eq]
  intro none_
  cases restores : p.restores with
  | true => rfl
  | false =>
    rw [restores] at none_
    change p.ups.inPowerState = false at none_
    rw [(inPowerState_iff _).mpr ⟨.off, by decide, restores_false restores (by decide)⟩] at none_
    cases none_

theorem rateRelaxed_leaveState {flag : StFlag} {type : NotifyType} (relaxed : RateRelaxed conf p) :
    RateRelaxed conf (p.leaveState conf flag type) := by
  unfold leaveState
  split
  · exact rateRelaxed_restore _
  · exact relaxed

theorem rateRelaxed_upsOnLine (p : UpsPoll) : RateRelaxed conf (p.upsOnLine conf) := by
  have sleepval : (p.upsOnLine conf).sleepval = (p.tryRestorePollfreq conf).sleepval := by
    unfold upsOnLine
    dsimp only
    split_ifs <;> rfl
  intro none_
  rw [sleepval]
  cases restores : p.restores with
  | true => rw [tryRestorePollfreq_eq, restores]; rfl
  | false =>
    have off : (p.upsOnLine conf).ups.status .off = true := by
      have set : p.ups.status .off = true := restores_false restores (by decide)
      rw [upsOnLine_status]
      split_ifs <;> simpa [Function.update] using set
    rw [(inPowerState_iff _).mpr ⟨.off, by decide, off⟩] at none_
    cases none_

theorem rateAlerted_upsOnLine (right : p.onlineRightly others = true) (alerted : RateAlerted conf others p) :
    RateAlerted conf others (p.upsOnLine conf) := by
  have sleepval : (p.upsOnLine conf).sleepval = (p.tryRestorePollfreq conf).sleepval := by
    unfold upsOnLine
    dsimp only
    split_ifs <;> rfl
  have status := upsOnLine_status conf p
  unfold onlineRightly at right
  intro some_
  cases restores : p.restores with
  | false =>
    rw [sleepval, tryRestorePollfreq_eq, restores]
    refine alerted (some_.imp_right fun here => ?_)
    exact (alerted_iff _).mpr ⟨.off, by decide, restores_false restores (by decide)⟩
  | true =>
    rw [restores] at right
    simp only [Bool.not_true, Bool.false_or, Bool.and_eq_true, Bool.not_eq_true', Bool.and_eq_false_iff] at right
    obtain ⟨⟨⟨⟨noOthers, off⟩, bypass⟩, alarm⟩, battery⟩ := right
    have quiet : (p.upsOnLine conf).ups.alerted = false := by
      unfold isset at *
      unfold Utype.alerted alertStates
      rw [status]
      cases online : p.ups.status .online with
      | true => simp_all
      | false => simp_all [Function.update]
    rw [noOthers, quiet] at some_
    rcases some_ with some_ | some_ <;> cases some_

theorem wordsRightly_alerted {alarm : Nat -> Option CString} {i : Nat} {statwords : List CString}
    (right : wordsRightly conf clock others alarm i statwords p = true) (alerted : RateAlerted conf others p) :
    RateAlerted conf others (p.parseStatwords conf clock alarm i statwords) := by
  induction statwords generalizing i p with
  | nil => exact alerted
  | cons statword rest ih =>
    obtain ⟨here, later⟩ := Bool.and_eq_true_iff.mp right
    refine ih later (rateAlerted_kept rateKept_updateCrittimer ?_)
    cases is : isStatword statword "OL" with
    | false => exact rateAlerted_kept (rateKept_parseStatword _ is) alerted
    | true =>
      have online : p.parseStatword conf clock (alarm i) statword = p.upsOnLine conf := by simp [parseStatword, is]
      rw [online]
      exact rateAlerted_upsOnLine (by simpa [is] using here) alerted

theorem parseStatwords_relaxed {alarm : Nat -> Option CString} {i : Nat} {statwords : List CString}
    (relaxed : RateRelaxed conf p ∨ (statwords.any fun statword => isStatword statword "OL") = true) :
    RateRelaxed conf (p.parseStatwords conf clock alarm i statwords) := by
  induction statwords generalizing i p with
  | nil => exact relaxed.resolve_right (by simp)
  | cons statword rest ih =>
    apply ih
    cases is : isStatword statword "OL" with
    | false =>
      rw [List.any_cons, is, Bool.false_or] at relaxed
      exact relaxed.imp_left fun relaxed =>
        rateRelaxed_kept rateKept_updateCrittimer (rateRelaxed_kept (rateKept_parseStatword _ is) relaxed)
    | true =>
      have online : p.parseStatword conf clock (alarm i) statword = p.upsOnLine conf := by simp [parseStatword, is]
      rw [online]
      exact .inl (rateRelaxed_kept rateKept_updateCrittimer (rateRelaxed_upsOnLine p))

theorem leaveStates_relaxed (status : CString) (relaxed : RateRelaxed conf p) : RateRelaxed conf (p.leaveStates conf status) := by
  have quiet {q r : UpsPoll} (relaxed : RateRelaxed conf q) (sleepval : r.sleepval = q.sleepval)
      (same : r.ups.status = q.ups.status) : RateRelaxed conf r :=
    rateRelaxed_kept (rateKept_quiet sleepval fun flag _ => by rw [same]) relaxed
  apply leaveStates_cases conf relaxed
  case lowbatt =>
    intro _ q relaxed
    have kept : RateKept conf q (q.clearflag .lowbatt) := rateKept_update (by decide) rfl (clearflag_status q .lowbatt)
    exact rateRelaxed_kept kept relaxed
  case fsd =>
    intro _ q relaxed
    have kept : RateKept conf q { q.clearflag .fsd with ups.lastfsdnotify := 0 } :=
      rateKept_update (by decide) rfl (clearflag_status q .fsd)
    exact rateRelaxed_kept kept relaxed
  case cal => exact fun _ q relaxed => rateRelaxed_leaveState relaxed
  case off =>
    intro _ q relaxed
    have before : RateRelaxed conf { q with ups.offsince := 0, ups.offstate := 0 } := quiet relaxed rfl rfl
    exact rateRelaxed_leaveState before
  case bypass =>
    intro _ q relaxed
    have before : RateRelaxed conf { q with ups.bypassstate := 0 } := quiet relaxed rfl rfl
    exact rateRelaxed_leaveState before
  case alarm =>
    intro _ q relaxed
    have before : RateRelaxed conf { q with ups.alarmstate := 0 } := quiet relaxed rfl rfl
    exact rateRelaxed_leaveState before
  case overload =>
    intro _ q relaxed
    have before : RateRelaxed conf { q with ups.oversince := 0, ups.overstate := 0 } := quiet relaxed rfl rfl
    exact rateRelaxed_leaveState before
  case trim => exact fun _ q relaxed => rateRelaxed_leaveState relaxed
  case boost => exact fun _ q relaxed => rateRelaxed_leaveState relaxed

theorem ecoMode_relaxed (report : Report) (relaxed : RateRelaxed conf p) : RateRelaxed conf (p.ecoMode conf report) := by
  rw [ecoMode_eq]
  split_ifs
  · have before : RateRelaxed conf { p with ups.ecostate := 0 } := rateRelaxed_kept (rateKept_quiet rfl fun _ _ => rfl) relaxed
    exact rateRelaxed_leaveState before
  · exact rateRelaxed_kept (rateKept_enterState (by decide) rfl rfl) relaxed
  · exact relaxed

theorem leaveStates_sleepval {report : Report}
    (stays : (tracked.any fun entry => entry.leave.isSome && p.isset entry.flag && !strstr report.status (cstr entry.word)) = false) :
    (p.leaveStates conf report.status).sleepval = p.sleepval := by
  have unset {entry : Tracked} (member : entry ∈ tracked) (leaves : entry.leave.isSome = true)
      (missing : strstr report.status (cstr entry.word) = false) {q : UpsPoll}
      (back : ∀ flag, q.isset flag = true -> p.isset flag = true) : q.isset entry.flag = false := by
    refine Bool.eq_false_iff.mpr fun set => ?_
    have known := List.any_eq_false.mp stays entry member
    simp [leaves, back _ set, missing] at known
  have left {q : UpsPoll} {flag : StFlag} {type : NotifyType} (unset : q.isset flag = false) : q.leaveState conf flag type = q := by
    unfold leaveState
    rw [unset]
    rfl
  have cleared (q : UpsPoll) (flag : StFlag) (back : ∀ flag, q.isset flag = true -> p.isset flag = true) (f : StFlag)
      (set : (q.clearflag flag).isset f = true) : p.isset f = true := by
    refine back f ?_
    unfold isset at set ⊢
    rw [clearflag_status] at set
    by_cases own : f = flag
    · simp [own] at set
    · rwa [Function.update_of_ne own] at set
  have kept : (p.leaveStates conf report.status).sleepval = p.sleepval ∧
      ∀ flag, (p.leaveStates conf report.status).isset flag = true -> p.isset flag = true := by
    apply leaveStates_cases conf (P := fun q => q.sleepval = p.sleepval ∧ ∀ flag, q.isset flag = true -> p.isset flag = true)
      (⟨rfl, fun _ set => set⟩ : p.sleepval = p.sleepval ∧ ∀ flag, p.isset flag = true -> p.isset flag = true)
    case lowbatt => exact fun _ q kept => ⟨kept.1, cleared q .lowbatt kept.2⟩
    case fsd => exact fun _ q kept => ⟨kept.1, cleared q .fsd kept.2⟩
    case cal =>
      intro missing q kept
      rw [upsIsNotcal, left (@unset ⟨.cal, "CAL", .cal, some .notcal⟩ (by decide) rfl missing q kept.2)]
      exact kept
    case off =>
      intro missing q kept
      have off := @unset ⟨.off, "OFF", .off, some .notoff⟩ (by decide) rfl missing q kept.2
      have same : q.upsIsNotoff conf = { q with ups.offsince := 0, ups.offstate := 0 } := left off
      rw [same]
      exact kept
    case bypass =>
      intro missing q kept
      have bypass := @unset ⟨.bypass, "BYPASS", .bypass, some .notbypass⟩ (by decide) rfl missing q kept.2
      have same : q.upsIsNotbypass conf = { q with ups.bypassstate := 0 } := left bypass
      rw [same]
      exact kept
    case alarm =>
      intro missing q kept
      have alarm := @unset ⟨.alarm, "ALARM", .alarm, some .notalarm⟩ (by decide) rfl missing q kept.2
      have same : q.upsIsNotalarm conf = { q with ups.alarmstate := 0 } := left alarm
      rw [same]
      exact kept
    case overload =>
      intro missing q kept
      have overload := @unset ⟨.overload, "OVER", .overload, some .notoverload⟩ (by decide) rfl missing q kept.2
      have same : q.upsIsNotover conf = { q with ups.oversince := 0, ups.overstate := 0 } := left overload
      rw [same]
      exact kept
    case trim =>
      intro missing q kept
      rw [upsIsNottrim, left (@unset ⟨.trim, "TRIM", .trim, some .nottrim⟩ (by decide) rfl missing q kept.2)]
      exact kept
    case boost =>
      intro missing q kept
      rw [upsIsNotboost, left (@unset ⟨.boost, "BOOST", .boost, some .notboost⟩ (by decide) rfl missing q kept.2)]
      exact kept
  exact kept.1

theorem left_still (report : Report) {flag : StFlag} (other : flag ≠ .eco) :
    ((p.leaveStates conf report.status).ecoMode conf report).ups.status flag = p.still report.status flag := by
  rw [ecoMode_status _ _ _ other, leaveStates_status]
  rfl

theorem ecoMode_sleepval {report : Report}
    (stays : (p.isset .eco && !strstr report.status (cstr "ECO") && !report.ecoFound && p.restores) = false) :
    (p.ecoMode conf report).sleepval = p.sleepval := by
  have entered : p.upsIsEco.sleepval = p.sleepval := by
    unfold upsIsEco enterState
    split <;> rfl
  rw [ecoMode_eq]
  split_ifs with left found
  · unfold upsIsNoteco leaveState
    split
    next known =>
      have eco : p.isset .eco = true := known
      have kept : p.restores = false := by
        simp only [Bool.and_eq_true, Bool.not_eq_true'] at left
        simpa [eco, left.1, left.2] using stays
      have same : ((({ p with ups.ecostate := 0 } : UpsPoll).doNotify .noteco none).clearflag .eco).restores = p.restores := by
        simp [restores, isset, powerStates, Function.update]
      rw [tryRestorePollfreq_eq, same, kept]
      rfl
    next => rfl
  · exact entered
  · rfl

theorem leaving_alerted {report : Report} (right : p.leavesRightly others report = true) (alerted : RateAlerted conf others p) :
    RateAlerted conf others ((p.leaveStates conf report.status).ecoMode conf report) := by
  have notEco : ∀ flag ∈ alertStates, flag ≠ .eco := by decide
  intro some_
  unfold leavesRightly at right
  cases leaves : p.leavesState report with
  | true =>
    rw [leaves] at right
    obtain ⟨noOthers, none_⟩ := Bool.and_eq_true_iff.mp right
    rcases some_ with some_ | some_
    · rw [some_] at noOthers
      cases noOthers
    · obtain ⟨flag, member, set⟩ := (alerted_iff _).mp some_
      rw [left_still report (notEco flag member)] at set
      have unset := List.all_eq_true.mp none_ flag member
      rw [set] at unset
      cases unset
  | false =>
    obtain ⟨stays, eco⟩ := Bool.or_eq_false_iff.mp leaves
    have untracked : (p.leaveStates conf report.status).isset .eco = p.isset .eco := by
      rw [isset, leaveStates_status]
      simp [tracked, isset]
    have all : (p.leaveStates conf report.status).restores = !powerStates.all (p.still report.status) := by
      unfold restores
      congr 2
      funext flag
      exact leaveStates_status conf p report.status flag
    rw [ecoMode_sleepval (by rw [untracked, all]; exact eco), leaveStates_sleepval stays]
    refine alerted (some_.imp_right fun here => ?_)
    obtain ⟨flag, member, set⟩ := (alerted_iff _).mp here
    rw [left_still report (notEco flag member)] at set
    exact (alerted_iff _).mpr ⟨flag, member, (Bool.and_eq_true_iff.mp set).1⟩

theorem leavesRightly_congr {report : Report} (same : q.ups.status = p.ups.status) :
    q.leavesRightly others report = p.leavesRightly others report := by
  unfold leavesRightly leavesState still isset
  rw [same]

theorem rateKept_upsIsGone : RateKept conf p (p.upsIsGone conf clock) := by
  unfold upsIsGone
  dsimp only
  split_ifs <;> exact rateKept_quiet rfl fun _ _ => rfl

theorem rateKept_dropConnection : RateKept conf p p.dropConnection := by
  have noted : RateKept conf p { p with ups.commstate := 0 } := rateKept_quiet rfl fun _ _ => rfl
  have login : RateKept conf { p with ups.commstate := 0 } (clearflag .login { p with ups.commstate := 0 }) :=
    rateKept_update (by decide) rfl (clearflag_status _ .login)
  have connected : RateKept conf (clearflag .login { p with ups.commstate := 0 }) p.dropConnection :=
    rateKept_update (by decide) rfl (clearflag_status _ .cliconnected)
  exact rateKept_trans (rateKept_trans noted login) connected

theorem rateKept_tryConnect (connect : Connect) : RateKept conf p (p.tryConnect conf clock connect).1 := by
  have cleared : RateKept conf p (p.clearflag .cliconnected) := rateKept_update (by decide) rfl (clearflag_status p .cliconnected)
  have connected : RateKept conf p ((p.clearflag .cliconnected).setflag .cliconnected) :=
    rateKept_trans cleared (rateKept_update (by decide) rfl (setflag_status _ .cliconnected))
  have login : RateKept conf p (((p.clearflag .cliconnected).setflag .cliconnected).setflag .login) :=
    rateKept_trans connected (rateKept_update (by decide) rfl (setflag_status _ .login))
  unfold tryConnect
  cases connect with
  | noCertpath => exact rateKept_trans (rateKept_trans cleared rateKept_upsIsGone) rateKept_dropConnection
  | failed => exact rateKept_trans cleared rateKept_upsIsGone
  | refused isLogin =>
    cases isLogin
    · exact connected
    · exact login
  | accepted => exact login

theorem parseStatus_alerted {report : Report} (right : p.reportRightly conf clock others report = true)
    (alerted : RateAlerted conf others p) : RateAlerted conf others (p.parseStatus conf clock report) := by
  unfold reportRightly at right
  unfold parseStatus
  split
  · exact rateAlerted_kept rateKept_upsIsGone alerted
  next nonempty =>
    simp only [nonempty, decide_false, Bool.false_or, Bool.and_eq_true] at right
    have alive : (p.upsIsAlive clock).leavesRightly others report = true :=
      (leavesRightly_congr (upsIsAlive_status clock p)).trans right.1
    exact wordsRightly_alerted right.2 (leaving_alerted alive (rateAlerted_kept rateKept_upsIsAlive alerted))

theorem parseStatus_relaxed {report : Report}
    (relaxed : RateRelaxed conf p ∨ hasStatword report.status "OL" = true) : RateRelaxed conf (p.parseStatus conf clock report) := by
  unfold parseStatus
  split
  next empty =>
    have none_ : ¬ hasStatword report.status "OL" = true := by
      rw [empty]
      decide
    exact rateRelaxed_kept rateKept_upsIsGone (relaxed.resolve_right none_)
  next =>
    exact parseStatwords_relaxed (relaxed.imp_left fun relaxed =>
      ecoMode_relaxed report (leaveStates_relaxed report.status (rateRelaxed_kept rateKept_upsIsAlive relaxed)))

structure ReadsOnline (ups : Utype) (answer : PollAnswer) : Prop where
  connected : ups.status .cliconnected = true ∨ answer.connect = .accepted
  status : hasStatword answer.report.status "OL" = true

theorem pollups_alerted {answer : PollAnswer} (right : p.pollRightly conf clock others answer = true)
    (alerted : RateAlerted conf others p) : RateAlerted conf others (p.pollups conf clock answer) := by
  have connected : RateKept conf p (if p.isset .cliconnected then (p, true) else p.tryConnect conf clock answer.connect).1 := by
    split
    · exact rateKept_refl p
    · exact rateKept_tryConnect answer.connect
  unfold pollRightly at right
  unfold pollups
  dsimp only at right ⊢
  generalize (if p.isset .cliconnected then (p, true) else p.tryConnect conf clock answer.connect) = c at *
  have alertedThere := rateAlerted_kept connected alerted
  split_ifs with refused answered
  · exact alertedThere
  · rw [Bool.not_eq_false] at refused
    exact parseStatus_alerted (by simpa [refused, answered] using right) alertedThere
  · exact rateAlerted_kept (rateKept_trans rateKept_upsIsGone rateKept_dropConnection) alertedThere
  · exact rateAlerted_kept rateKept_upsIsGone alertedThere

theorem pollups_relaxed {answer : PollAnswer} (relaxed : RateRelaxed conf p ∨ ReadsOnline p.ups answer) :
    RateRelaxed conf (p.pollups conf clock answer) := by
  have connected : RateKept conf p (if p.isset .cliconnected then (p, true) else p.tryConnect conf clock answer.connect).1 := by
    split
    · exact rateKept_refl p
    · exact rateKept_tryConnect answer.connect
  have reached (reads : ReadsOnline p.ups answer) :
      (if p.isset .cliconnected then (p, true) else p.tryConnect conf clock answer.connect).2 = true := by
    split
    · rfl
    next unconnected =>
      have accepted : answer.connect = .accepted := reads.connected.resolve_left unconnected
      rw [accepted]
      rfl
  have answered (reads : ReadsOnline p.ups answer) : answer.status.isSome = true := by
    cases given : answer.status with
    | some _ => rfl
    | none =>
      have missing : ¬ hasStatword (snprintf smallbuf ([] : CString)) "OL" = true := by decide
      have status := reads.status
      unfold PollAnswer.report at status
      rw [given] at status
      exact absurd status missing
  unfold pollups
  dsimp only
  generalize (if p.isset .cliconnected then (p, true) else p.tryConnect conf clock answer.connect) = c at *
  have there : RateRelaxed conf c.1 ∨ ReadsOnline p.ups answer :=
    relaxed.imp_left fun relaxed => rateRelaxed_kept connected relaxed
  split_ifs with refused some_
  · exact there.resolve_right fun reads => absurd (reached reads) (by simp [refused])
  · exact parseStatus_relaxed (there.imp_right ReadsOnline.status)
  all_goals
    have relaxedThere := there.resolve_right fun reads => some_ (by rw [answered reads, Bool.true_or, Bool.true_or])
  · exact rateRelaxed_kept (rateKept_trans rateKept_upsIsGone rateKept_dropConnection) relaxedThere
  · exact rateRelaxed_kept rateKept_upsIsGone relaxedThere

end Words

namespace UpsPoll

-- is_ups_critical comes to what it does about OB with LB.
def reachesOblb (conf : UpsmonConf) (now : Int) (p : UpsPoll) : Bool :=
  !p.isset .fsd && !(p.ups.commstate = 0 && p.lostCritical conf now) &&
    !(p.isset .off && 0 ≤ conf.offdurationtime && p.ups.offstate = 1)

def judgedRightly (conf : UpsmonConf) (clock : Nat -> Int) (some_ : Bool) (p : UpsPoll) : Bool :=
  !p.reachesOblb conf (clock p.ticks) ||
    if p.isset .onbatt && p.isset .lowbatt then
      p.isset .cal || !(0 < conf.oblbdurationtime && p.ups.oblbsince < 1 && 0 < clock p.ticks) || 0 < conf.pollfreqalert
    else !(0 < p.ups.oblbsince) || p.isset .onbatt || !some_

end UpsPoll

def Upsmon.recalcRightly (conf : UpsmonConf) (clock : Nat -> Int) (some_ : Bool) (now : Int) : List Utype -> UpsmonShared -> Bool
  | [], _ => true
  | ups :: rest, shared =>
    let found := UpsPoll.promoteDead conf now { shared with ups }
    found.judgedRightly conf clock some_ &&
      recalcRightly conf clock some_ now rest (found.isUpsCritical conf clock).1.toUpsmonShared

section Judged

variable {conf : UpsmonConf} {clock : Nat -> Int} {p : UpsPoll} {now : Int}

theorem promoteDead_flags (flag : StFlag) (other : flag ≠ .lowbatt) :
    (promoteDead conf now p).ups.status flag = p.ups.status flag ∧ (promoteDead conf now p).sleepval = p.sleepval := by
  unfold promoteDead
  split
  · exact ⟨by rw [setflag_status, Function.update_of_ne other], rfl⟩
  · exact ⟨rfl, rfl⟩

theorem isUpsCritical_cases (p : UpsPoll) : (p.isUpsCritical conf clock).1.ups.status = p.ups.status ∧
      ((p.isUpsCritical conf clock).1.sleepval = p.sleepval ∨ p.reachesOblb conf (clock p.ticks) = true ∧
          ((p.isset .onbatt && p.isset .lowbatt) = true ∧ p.isset .cal = false ∧ 0 < conf.oblbdurationtime ∧
              p.ups.oblbsince < 1 ∧ 0 < clock p.ticks ∧ (p.isUpsCritical conf clock).1.sleepval =
                Nat.gcd (max conf.pollfreqalert 1) (max conf.oblbdurationtime 1).toNat ∨
            (p.isset .onbatt && p.isset .lowbatt) = false ∧ 0 < p.ups.oblbsince ∧
              (p.isUpsCritical conf clock).1.sleepval = if p.isset .onbatt then conf.pollfreqalert else conf.pollfreq)) := by
  unfold isUpsCritical
  dsimp only
  split
  next => exact ⟨rfl, .inl rfl⟩
  next fsd =>
    split
    next => exact ⟨rfl, .inl rfl⟩
    next lost =>
      split
      next => exact ⟨rfl, .inl rfl⟩
      next off =>
        have reaches : p.reachesOblb conf (clock p.ticks) = true := by
          unfold reachesOblb
          rw [Bool.eq_false_iff.mpr fsd, Bool.eq_false_iff.mpr (show ¬ (p.ups.commstate = 0 && p.lostCritical conf (clock p.ticks)) = true from lost),
            Bool.eq_false_iff.mpr (show ¬ (p.isset .off && 0 ≤ conf.offdurationtime && p.ups.offstate = 1) = true from off)]
          rfl
        split
        next calm =>
          have both : (p.isset .onbatt && p.isset .lowbatt) = false := by
            have calm' : (!p.isset .onbatt || !p.isset .lowbatt) = true := calm
            rw [<- Bool.not_and] at calm'
            exact (Bool.not_eq_true' _).mp calm'
          unfold returnFromOblb
          split
          next since => exact ⟨rfl, .inr ⟨reaches, .inr ⟨both, since, rfl⟩⟩⟩
          next => exact ⟨rfl, .inl rfl⟩
        next grave =>
          have both : (p.isset .onbatt && p.isset .lowbatt) = true := by
            have grave' : ¬ (!p.isset .onbatt || !p.isset .lowbatt) = true := grave
            rw [<- Bool.not_and] at grave'
            simpa using grave'
          split
          next => exact ⟨rfl, .inl rfl⟩
          next cal =>
            split
            next watch =>
              exact ⟨rfl, .inr ⟨reaches, .inl ⟨both, Bool.eq_false_iff.mpr cal, watch.1, watch.2.1, watch.2.2, rfl⟩⟩⟩
            next => split_ifs <;> exact ⟨rfl, .inl rfl⟩

theorem isUpsCritical_alerted {some_ : Bool} (right : p.judgedRightly conf clock some_ = true)
    (alerted : some_ = true -> p.sleepval ≤ conf.pollfreqalert) (here : some_ = true) :
    (p.isUpsCritical conf clock).1.sleepval ≤ conf.pollfreqalert := by
  obtain ⟨-, same | ⟨reaches, watched | returned⟩⟩ := @isUpsCritical_cases conf clock p
  · rw [same]
    exact alerted here
  · obtain ⟨both, cal, lasts, since, now, sleepval⟩ := watched
    have positive : 0 < conf.pollfreqalert := by
      simpa [judgedRightly, reaches, both, cal, lasts, since, now] using right
    rw [sleepval, max_eq_left positive]
    exact Nat.gcd_le_left _ positive
  · obtain ⟨both, since, sleepval⟩ := returned
    cases onbatt : p.isset .onbatt with
    | true =>
      rw [sleepval, onbatt]
      exact le_refl _
    | false => simp [judgedRightly, reaches, onbatt, since, here] at right

theorem isUpsCritical_relaxed (quiet : p.ups.inPowerState = false) (relaxed : p.sleepval = conf.pollfreq) :
    (p.isUpsCritical conf clock).1.sleepval = conf.pollfreq := by
  have onbatt : p.isset .onbatt = false := by
    refine Bool.eq_false_iff.mpr fun set => ?_
    rw [(inPowerState_iff _).mpr ⟨.onbatt, by decide, set⟩] at quiet
    cases quiet
  obtain ⟨-, same | ⟨-, watched | returned⟩⟩ := @isUpsCritical_cases conf clock p
  · rw [same, relaxed]
  · rw [onbatt] at watched
    cases watched.1
  · rw [returned.2.2, onbatt]
    rfl

theorem any_same {states : List StFlag} {a b : Utype} (same : ∀ flag ∈ states, a.status flag = b.status flag) :
    states.any a.status = states.any b.status := by
  induction states with
  | nil => rfl
  | cons flag states ih =>
    rw [List.any_cons, List.any_cons, same flag List.mem_cons_self, ih fun f member => same f (List.mem_cons_of_mem _ member)]

theorem judged_states (p : UpsPoll) :
    ((promoteDead conf now p).isUpsCritical conf clock).1.ups.alerted = p.ups.alerted ∧
      ((promoteDead conf now p).isUpsCritical conf clock).1.ups.inPowerState = p.ups.inPowerState := by
  have other : ∀ flag ∈ powerStates, flag ≠ .lowbatt := by decide
  have inPower : ∀ flag ∈ alertStates, flag ∈ powerStates := by decide
  have same (flag : StFlag) (member : flag ∈ powerStates) :
      ((promoteDead conf now p).isUpsCritical conf clock).1.ups.status flag = p.ups.status flag := by
    rw [(isUpsCritical_cases _).1]
    exact (promoteDead_flags flag (other flag member)).1
  exact ⟨any_same fun flag member => same flag (inPower flag member), any_same same⟩

theorem promoteDead_states (p : UpsPoll) :
    (promoteDead conf now p).ups.inPowerState = p.ups.inPowerState ∧ (promoteDead conf now p).sleepval = p.sleepval := by
  have other : ∀ flag ∈ powerStates, flag ≠ .lowbatt := by decide
  exact ⟨any_same fun flag member => (promoteDead_flags flag (other flag member)).1, (promoteDead_flags .onbatt (by decide)).2⟩

theorem recalcUpses_states (upses : List Utype) (shared : UpsmonShared) :
    (Upsmon.recalcUpses conf clock now upses shared).1.any Utype.alerted = upses.any Utype.alerted ∧
      (Upsmon.recalcUpses conf clock now upses shared).1.any Utype.inPowerState = upses.any Utype.inPowerState := by
  induction upses generalizing shared with
  | nil => exact ⟨rfl, rfl⟩
  | cons ups rest ih =>
    obtain ⟨alerted, inPower⟩ := @judged_states conf clock now { shared with ups }
    obtain ⟨restAlerted, restInPower⟩ :=
      ih ((promoteDead conf now { shared with ups }).isUpsCritical conf clock).1.toUpsmonShared
    simp only [Upsmon.recalcUpses, List.any_cons]
    rw [alerted, inPower, restAlerted, restInPower]
    exact ⟨rfl, rfl⟩

theorem recalcUpses_alerted {some_ : Bool} {upses : List Utype} {shared : UpsmonShared}
    (right : Upsmon.recalcRightly conf clock some_ now upses shared = true)
    (alerted : some_ = true -> shared.sleepval ≤ conf.pollfreqalert) (here : some_ = true) :
    (Upsmon.recalcUpses conf clock now upses shared).2.sleepval ≤ conf.pollfreqalert := by
  induction upses generalizing shared with
  | nil => exact alerted here
  | cons ups rest ih =>
    obtain ⟨first, later⟩ := Bool.and_eq_true_iff.mp right
    refine ih later fun here => isUpsCritical_alerted first (fun here => ?_) here
    rw [(promoteDead_states _).2]
    exact alerted here

theorem recalcUpses_relaxed {upses : List Utype} {shared : UpsmonShared} (quiet : upses.any Utype.inPowerState = false)
    (relaxed : shared.sleepval = conf.pollfreq) :
    (Upsmon.recalcUpses conf clock now upses shared).2.sleepval = conf.pollfreq := by
  induction upses generalizing shared with
  | nil => exact relaxed
  | cons ups rest ih =>
    obtain ⟨first, later⟩ := Bool.or_eq_false_iff.mp quiet
    obtain ⟨states, sleepval⟩ := @promoteDead_states conf now { shared with ups }
    exact ih later (isUpsCritical_relaxed (states.trans first) (sleepval.trans relaxed))

end Judged

namespace Upsmon

variable (conf : UpsmonConf) (clock : Nat -> Int)

def othersAlerted (w : Upsmon) (i : Nat) : Bool :=
  (w.upsList.eraseIdx i).any Utype.alerted

def rightly (w : Upsmon) : UpsmonEvent -> Bool
  | .poll i answer =>
    match w.upsList[i]? with
    | none => true
    | some ups => UpsPoll.pollRightly conf clock (w.othersAlerted i) answer { w.toUpsmonShared with ups }
  | .recalc =>
    recalcRightly conf clock (w.upsList.any Utype.alerted) (clock w.ticks) w.upsList
      { w.toUpsmonShared with ticks := w.ticks + 1 }

def Alerted (w : Upsmon) : Prop :=
  w.upsList.any Utype.alerted = true -> w.sleepval ≤ conf.pollfreqalert

instance (w : Upsmon) : Decidable (w.Alerted conf) :=
  inferInstanceAs (Decidable (_ -> _))

def Relaxed (w : Upsmon) : Prop :=
  w.upsList.any Utype.inPowerState = false -> w.sleepval = conf.pollfreq

def passEvents (w : Upsmon) (answers : Nat -> PollAnswer) : List UpsmonEvent :=
  ((List.range w.upsList.length).map fun i => .poll i (answers i)) ++ [.recalc]

def PassRightly (w : Upsmon) (answers : Nat -> PollAnswer) : Prop :=
  Always (step conf clock) (EachAction fun w event => w.rightly conf clock event = true) w (w.passEvents answers)

def nextPass (w : Upsmon) (answers : Nat -> PollAnswer) : Upsmon :=
  (pass conf clock answers w).1

instance (w : Upsmon) (answers : Nat -> PollAnswer) : Decidable (PassRightly conf clock w answers) :=
  inferInstanceAs (Decidable (Always _ _ _ _))

structure RateFollows (w : Upsmon) (answers : Nat -> PollAnswer) : Prop where
  alert : (nextPass conf clock w answers).upsList.any Utype.alerted = true ->
    (nextPass conf clock w answers).sleepval ≤ conf.pollfreqalert
  relax : (nextPass conf clock w answers).upsList.any Utype.inPowerState = false ->
    (∃ (i : Nat) (ups : Utype), w.upsList[i]? = some ups ∧ ReadsOnline ups (answers i)) ->
      (nextPass conf clock w answers).sleepval = conf.pollfreq

end Upsmon

section Runs

open Upsmon

variable {conf : UpsmonConf} {clock : Nat -> Int} {w : Upsmon} {i : Nat} {ups : Utype}

theorem any_at {f : Utype -> Bool} {l : List Utype} (place : l[i]? = some ups) :
    l.any f = (f ups || (l.eraseIdx i).any f) ∧ ∀ a, (l.set i a).any f = (f a || (l.eraseIdx i).any f) := by
  induction l generalizing i with
  | nil => cases place
  | cons first rest ih =>
    cases i with
    | zero =>
      obtain rfl : first = ups := by simpa using place
      simp
    | succ i =>
      obtain ⟨here, set⟩ := ih (by simpa using place)
      constructor
      · rw [List.any_cons, here, List.eraseIdx_cons_succ, List.any_cons, Bool.or_left_comm]
      · intro a
        rw [List.set_cons_succ, List.any_cons, set, List.eraseIdx_cons_succ, List.any_cons, Bool.or_left_comm]

theorem poll_eq (place : w.upsList[i]? = some ups) (answer : PollAnswer) : w.poll conf clock i answer =
      { (pollups conf clock answer { w.toUpsmonShared with ups }).toUpsmonShared with
        upsList := w.upsList.set i (pollups conf clock answer { w.toUpsmonShared with ups }).ups } := by
  unfold Upsmon.poll
  rw [place]

theorem step_alerted (event : UpsmonEvent) (right : w.rightly conf clock event = true) (alerted : w.Alerted conf) :
    (w.step conf clock event).Alerted conf := by
  cases event with
  | poll i answer =>
    change (w.poll conf clock i answer).Alerted conf
    cases place : w.upsList[i]? with
    | none =>
      have same : w.poll conf clock i answer = w := by
        unfold Upsmon.poll
        rw [place]
      rw [same]
      exact alerted
    | some ups =>
      obtain ⟨here, set⟩ := @any_at i ups Utype.alerted w.upsList place
      have rated : RateAlerted conf (w.othersAlerted i) { w.toUpsmonShared with ups } := by
        intro some_
        refine alerted ?_
        rw [here, Bool.or_comm]
        exact Bool.or_eq_true_iff.mpr some_
      have polled := pollups_alerted (by simpa [Upsmon.rightly, place] using right) rated
      intro some_
      rw [poll_eq place] at some_ ⊢
      refine polled ?_
      rw [set, Bool.or_comm] at some_
      exact Bool.or_eq_true_iff.mp some_
  | recalc =>
    intro some_
    have states := (@recalcUpses_states conf clock (clock w.ticks) w.upsList { w.toUpsmonShared with ticks := w.ticks + 1 }).1
    have before : w.upsList.any Utype.alerted = true := states.symm.trans some_
    exact recalcUpses_alerted right alerted before

theorem step_relaxed (event : UpsmonEvent)
    (relaxed : w.Relaxed conf ∨ ∃ i answer ups, event = .poll i answer ∧ w.upsList[i]? = some ups ∧ ReadsOnline ups answer) :
    (w.step conf clock event).Relaxed conf := by
  cases event with
  | poll i answer =>
    change (w.poll conf clock i answer).Relaxed conf
    cases place : w.upsList[i]? with
    | none =>
      have same : w.poll conf clock i answer = w := by
        unfold Upsmon.poll
        rw [place]
      rw [same]
      refine relaxed.resolve_right ?_
      rintro ⟨j, a, ups, same, there, -⟩
      cases same
      rw [place] at there
      cases there
    | some ups =>
      intro quiet
      obtain ⟨here, set⟩ := @any_at i ups Utype.inPowerState w.upsList place
      rw [poll_eq place] at quiet ⊢
      rw [set] at quiet
      obtain ⟨own, others⟩ := Bool.or_eq_false_iff.mp quiet
      refine pollups_relaxed (relaxed.imp (fun relaxed own => ?_) ?_) own
      · refine relaxed ?_
        rw [here, others, Bool.or_false]
        exact own
      · rintro ⟨j, a, u, same, there, reads⟩
        cases same
        rw [place] at there
        cases there
        exact reads
  | recalc =>
    intro quiet
    have states := (@recalcUpses_states conf clock (clock w.ticks) w.upsList { w.toUpsmonShared with ticks := w.ticks + 1 }).2
    have before : w.upsList.any Utype.inPowerState = false := states.symm.trans quiet
    have held : w.Relaxed conf := relaxed.resolve_right fun ⟨_, _, _, same, _⟩ => by cases same
    exact recalcUpses_relaxed before (held before)

theorem steps_alerted {events : List UpsmonEvent}
    (right : Always (step conf clock) (EachAction fun w event => w.rightly conf clock event = true) w events)
    (alerted : w.Alerted conf) : (events.foldl (step conf clock) w).Alerted conf := by
  induction events generalizing w with
  | nil => exact alerted
  | cons event rest ih => exact ih right.2 (step_alerted event right.1 alerted)

theorem steps_relaxed (events : List UpsmonEvent) (relaxed : w.Relaxed conf) :
    (events.foldl (step conf clock) w).Relaxed conf :=
  invariant_foldl (fun _ event relaxed => step_relaxed event (.inl relaxed)) relaxed events

theorem polls_place {answers : Nat -> PollAnswer} {places : List Nat} (other : i ∉ places) :
    ((places.map fun j => UpsmonEvent.poll j (answers j)).foldl (step conf clock) w).upsList[i]? = w.upsList[i]? := by
  induction places generalizing w with
  | nil => rfl
  | cons j places ih =>
    rw [List.map_cons, List.foldl_cons, ih fun member => other (List.mem_cons_of_mem _ member)]
    have apart : j ≠ i := fun same => other (same ▸ List.mem_cons_self)
    change (w.poll conf clock j (answers j)).upsList[i]? = _
    unfold Upsmon.poll
    split
    · rfl
    · exact List.getElem?_set_ne apart

theorem pass_relaxed {answers : Nat -> PollAnswer} (place : w.upsList[i]? = some ups) (reads : ReadsOnline ups (answers i)) :
    (nextPass conf clock w answers).Relaxed conf := by
  have inside : i < w.upsList.length := (List.getElem?_eq_some_iff.mp place).1
  obtain ⟨before, after, split⟩ := List.append_of_mem (List.mem_range.mpr inside)
  have unique : i ∉ before := by
    have nodup := List.nodup_range (n := w.upsList.length)
    rw [split] at nodup
    exact fun member => (List.nodup_append.mp nodup).2.2 i member i List.mem_cons_self rfl
  unfold nextPass
  rw [pass_events, split, List.map_append, List.map_cons, List.append_assoc, List.foldl_append, List.cons_append, List.foldl_cons]
  refine steps_relaxed _ (step_relaxed _ (.inr ⟨i, answers i, ups, rfl, ?_, reads⟩))
  rw [polls_place unique, place]

-- The delay follows the states after every pass of a run in which it is relaxed only when no UPS asks for an alert.
theorem rate_follows {w : Upsmon} {answers : List (Nat -> PollAnswer)} (start : w.Alerted conf)
    (right : Always (nextPass conf clock) (EachAction (PassRightly conf clock)) w answers) :
    Always (nextPass conf clock) (EachAction (RateFollows conf clock)) w answers := by
  induction answers generalizing w with
  | nil => exact trivial
  | cons first rest ih =>
    have alerted : (nextPass conf clock w first).Alerted conf := by
      unfold nextPass
      rw [pass_events]
      exact steps_alerted right.1 start
    refine ⟨⟨alerted, fun quiet => ?_⟩, ih alerted right.2⟩
    rintro ⟨i, ups, place, reads⟩
    exact pass_relaxed place reads quiet

def UpsmonConf.patient : UpsmonConf :=
  { UpsmonConf.defaults with pollfreq := 30 }

def UpsPoll.PollAnswer.plain (status : CString) : PollAnswer :=
  { connect := .accepted, status := some status, buzzword := none, buzzwordX := none, alarm := fun _ => none
    disconnected := false }

def Upsmon.single : Upsmon :=
  { UpsmonShared.start with upsList := [Utype.added (cstr "ups@host") 1 [] [] true] }

-- A UPS that goes on battery and comes back.
theorem rate_follows_outage :
    Always (nextPass .patient fun _ => 1000) (EachAction (RateFollows .patient fun _ => 1000)) Upsmon.single
      [fun _ => .plain (cstr "OL"), fun _ => .plain (cstr "OB"), fun _ => .plain (cstr "OL")] :=
  rate_follows (by decide) (by decide +kernel)

-- A UPS on line with an alarm is polled at the usual delay.
theorem alarm_unhurried :
    UpsmonConf.patient.pollfreqalert < UpsmonConf.patient.pollfreq ∧ Upsmon.single.Alerted .patient ∧
      ¬ Always (nextPass .patient fun _ => 1000) (EachAction (RateFollows .patient fun _ => 1000)) Upsmon.single
        [fun _ => .plain (cstr "ALARM OL")] := by
  refine ⟨by decide, by decide, fun follows => ?_⟩
  have alert := follows.1.alert (by decide +kernel)
  revert alert
  decide +kernel

end Runs

end Nut
