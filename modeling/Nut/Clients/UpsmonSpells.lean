import Nut.Clients.UpsmonWake

set_option autoImplicit false

namespace Nut

open UpsPoll

section Handlers

variable {conf : UpsmonConf} {clock : Nat -> Int} {p q r : UpsPoll}

structure TimersKept (p q : UpsPoll) : Prop where
  ticks : p.ticks ≤ q.ticks
  off : q.ups.status .off = p.ups.status .off
  overload : q.ups.status .overload = p.ups.status .overload
  latched : q.ups.offstate = p.ups.offstate ∧ q.ups.overstate = p.ups.overstate
  since : q.ups.offsince = p.ups.offsince ∧ q.ups.oversince = p.ups.oversince ∧ q.ups.oblbsince = p.ups.oblbsince

theorem timersKept_trans (first : TimersKept p q) (second : TimersKept q r) : TimersKept p r :=
  ⟨first.ticks.trans second.ticks, second.off.trans first.off, second.overload.trans first.overload,
    ⟨second.latched.1.trans first.latched.1, second.latched.2.trans first.latched.2⟩,
    ⟨second.since.1.trans first.since.1, second.since.2.1.trans first.since.2.1, second.since.2.2.trans first.since.2.2⟩⟩

def timersOf (p : UpsPoll) : (Bool × Bool) × (Int × Int) × Int × Int × Int :=
  ((p.ups.status .off, p.ups.status .overload), (p.ups.offstate, p.ups.overstate), p.ups.offsince, p.ups.oversince, p.ups.oblbsince)

theorem timersKept_of (ticks : p.ticks ≤ q.ticks) (same : timersOf q = timersOf p) : TimersKept p q := by
  simp only [timersOf, Prod.mk.injEq] at same
  obtain ⟨⟨off, overload⟩, latched, since⟩ := same
  exact ⟨ticks, off, overload, latched, since⟩

theorem timersKept_refl (p : UpsPoll) : TimersKept p p := timersKept_of (le_refl _) rfl

theorem timersKept_tick : TimersKept p p.tick := timersKept_of (Nat.le_succ _) rfl

theorem timersKept_status {flag : StFlag} {value : Bool} (off : flag ≠ .off) (overload : flag ≠ .overload)
    (same : q = { p with ups.status := Function.update p.ups.status flag value }) : TimersKept p q := by
  subst same
  exact ⟨le_refl _, Function.update_of_ne off.symm _ _, Function.update_of_ne overload.symm _ _, ⟨rfl, rfl⟩, ⟨rfl, rfl, rfl⟩⟩

theorem timersKept_doNotify (type : NotifyType) (extra : Option CString) : TimersKept p (p.doNotify type extra) :=
  timersKept_of (le_refl _) rfl

theorem timersKept_restore : TimersKept p (p.tryRestorePollfreq conf) := by
  unfold tryRestorePollfreq
  split
  · exact timersKept_refl p
  · exact timersKept_of (le_refl _) rfl

theorem timersKept_enterState {flag : StFlag} {type : NotifyType} {extra : Option CString} {before : UpsPoll -> UpsPoll}
    (off : flag ≠ .off) (overload : flag ≠ .overload) (kept : TimersKept p (before p)) :
    TimersKept p (p.enterState flag type extra before) := by
  unfold enterState
  split
  · exact timersKept_refl p
  · exact timersKept_trans (timersKept_trans kept (timersKept_doNotify type extra)) (timersKept_status off overload rfl)

theorem timersKept_leaveState {flag : StFlag} {type : NotifyType} (off : flag ≠ .off) (overload : flag ≠ .overload) :
    TimersKept p (p.leaveState conf flag type) := by
  have cleared : TimersKept (p.doNotify type none) ((p.doNotify type none).clearflag flag) :=
    timersKept_status off overload rfl
  unfold leaveState
  split
  · exact timersKept_trans (timersKept_trans (timersKept_doNotify type none) cleared) timersKept_restore
  · exact timersKept_refl p

theorem timersKept_upsIsAlive : TimersKept p (p.upsIsAlive clock) := by
  unfold upsIsAlive
  dsimp only
  split_ifs <;> exact timersKept_of (Nat.le_succ _) rfl

theorem timersKept_upsIsGone : TimersKept p (p.upsIsGone conf clock) := by
  unfold upsIsGone
  dsimp only
  split_ifs
  · exact timersKept_of (le_refl _) rfl
  all_goals exact timersKept_of (Nat.le_succ _) rfl

theorem timersKept_dropConnection : TimersKept p p.dropConnection := by
  have noted : TimersKept p { p with ups.commstate := 0 } := timersKept_of (le_refl _) rfl
  have login : TimersKept p (clearflag .login { p with ups.commstate := 0 }) :=
    timersKept_trans noted (timersKept_status (by decide) (by decide) rfl)
  exact timersKept_trans login (timersKept_status (by decide) (by decide) rfl)

theorem timersKept_tryConnect (connect : Connect) : TimersKept p (p.tryConnect conf clock connect).1 := by
  have cleared : TimersKept p (p.clearflag .cliconnected) := timersKept_status (by decide) (by decide) rfl
  have connected : TimersKept p ((p.clearflag .cliconnected).setflag .cliconnected) :=
    timersKept_trans cleared (timersKept_status (by decide) (by decide) rfl)
  have login : TimersKept p (((p.clearflag .cliconnected).setflag .cliconnected).setflag .login) :=
    timersKept_trans connected (timersKept_status (by decide) (by decide) rfl)
  unfold tryConnect
  cases connect with
  | noCertpath => exact timersKept_trans (timersKept_trans cleared timersKept_upsIsGone) timersKept_dropConnection
  | failed => exact timersKept_trans cleared timersKept_upsIsGone
  | refused isLogin =>
    cases isLogin
    · exact connected
    · exact login
  | accepted => exact login

theorem timersKept_updateCrittimer : TimersKept p (p.updateCrittimer clock) := by
  unfold updateCrittimer
  split
  · exact timersKept_of (Nat.le_succ _) rfl
  · exact timersKept_refl p

theorem timersKept_upsOnLine : TimersKept p (p.upsOnLine conf) := by
  have online (q : UpsPoll) (kept : TimersKept p q) :
      TimersKept p ((setflag .online { q with ups.linestate := 1 }).clearflag .onbatt) := by
    have noted : TimersKept p { q with ups.linestate := 1 } := timersKept_trans kept (timersKept_of (le_refl _) rfl)
    have set : TimersKept p (setflag .online { q with ups.linestate := 1 }) :=
      timersKept_trans noted (timersKept_status (by decide) (by decide) rfl)
    exact timersKept_trans set (timersKept_status (by decide) (by decide) rfl)
  unfold upsOnLine
  dsimp only
  split_ifs
  · exact timersKept_restore
  · exact online _ (timersKept_trans timersKept_restore (timersKept_doNotify .online none))
  · exact online _ timersKept_restore

theorem timersKept_upsOnBatt : TimersKept p (p.upsOnBatt conf) := by
  unfold upsOnBatt
  split
  · exact timersKept_refl p
  · have batt : TimersKept p (p.enterState .onbatt .onbatt none fun p => { p.alert conf with ups.linestate := 0 }) :=
      timersKept_enterState (by decide) (by decide) (timersKept_of (le_refl _) rfl)
    exact timersKept_trans batt (timersKept_status (by decide) (by decide) rfl)

theorem timersKept_upsreplbatt : TimersKept p (p.upsreplbatt conf clock) := by
  unfold upsreplbatt
  dsimp only
  split_ifs
  · exact timersKept_of (Nat.le_succ _) rfl
  · exact timersKept_tick

theorem timersKept_upsIsBypass : TimersKept p (p.upsIsBypass conf) :=
  timersKept_enterState (by decide) (by decide) (timersKept_of (le_refl _) rfl)

theorem timersKept_upsIsEco : TimersKept p p.upsIsEco :=
  timersKept_enterState (by decide) (by decide) (timersKept_of (le_refl _) rfl)

theorem timersKept_upsIsAlarm (alarms : Option CString) : TimersKept p (p.upsIsAlarm conf alarms) := by
  unfold upsIsAlarm
  split
  · cases alarms with
    | none => exact timersKept_refl p
    | some alarms =>
      dsimp only
      split_ifs
      · exact timersKept_refl p
      · exact timersKept_of (le_refl _) rfl
  · have entered : TimersKept p (p.enterState .alarm .alarm (alarms.getD (cstr "n/a"))
        fun p => { p.alert conf with ups.alarmstate := 1 }) :=
      timersKept_enterState (by decide) (by decide) (timersKept_of (le_refl _) rfl)
    exact timersKept_trans entered (timersKept_of (le_refl _) rfl)

theorem timersKept_upsFsd : TimersKept p (p.upsFsd clock) := by
  unfold upsFsd
  dsimp only
  split_ifs
  · exact timersKept_refl p
  · have asked : TimersKept p ({ p.tick with ups.lastfsdnotify := clock p.ticks }.doNotify .fsd none) :=
      timersKept_of (Nat.le_succ _) rfl
    exact timersKept_trans asked (timersKept_status (by decide) (by decide) rfl)
  · exact timersKept_status (by decide) (by decide) rfl

theorem timersKept_ecoMode (report : Report) : TimersKept p (p.ecoMode conf report) := by
  rw [ecoMode_eq]
  split_ifs
  · have before : TimersKept p { p with ups.ecostate := 0 } := timersKept_of (le_refl _) rfl
    exact timersKept_trans before (timersKept_leaveState (by decide) (by decide))
  · exact timersKept_upsIsEco
  · exact timersKept_refl p

end Handlers

def ReadSince (clock : Nat -> Int) (first upto : Nat) (value : Int) : Prop :=
  ∃ n, first ≤ n ∧ n < upto ∧ value = clock n

def Outlasted (clock : Nat -> Int) (first upto : Nat) (duration : Int) : Prop :=
  ∃ n m, first ≤ n ∧ m < upto ∧ duration < clock m - clock n

section Words

variable {conf : UpsmonConf} {clock : Nat -> Int} {p q : UpsPoll} {base off overs : Nat} {oblbsince : Int}

theorem readSince_mono {first upto upto' : Nat} {value : Int} (later : upto ≤ upto') (read : ReadSince clock first upto value) :
    ReadSince clock first upto' value := by
  obtain ⟨n, after, before, same⟩ := read
  exact ⟨n, after, before.trans_le later, same⟩

theorem outlasted_mono {first upto upto' : Nat} {duration : Int} (later : upto ≤ upto')
    (outlasted : Outlasted clock first upto duration) : Outlasted clock first upto' duration := by
  obtain ⟨n, m, after, before, lasts⟩ := outlasted
  exact ⟨n, m, after, before.trans_le later, lasts⟩

structure TimersRead (conf : UpsmonConf) (clock : Nat -> Int) (base off overs : Nat) (oblbsince : Int) (p : UpsPoll) : Prop where
  started : (off ≤ base ∧ overs ≤ base) ∧ base ≤ p.ticks
  offsince : p.isset .off = true -> p.ups.offsince < 1 ∨ ReadSince clock off p.ticks p.ups.offsince
  offstate : p.ups.offstate = 1 ->
    p.isset .off = true ∧ (0 < conf.offdurationtime -> Outlasted clock off p.ticks conf.offdurationtime)
  oversince : p.isset .overload = true -> ReadSince clock overs p.ticks p.ups.oversince
  overstate : p.ups.overstate = 1 -> conf.overdurationtime < 0 ∨ p.isset .overload = true
  oblb : p.ups.oblbsince = oblbsince

theorem timed_kept (kept : TimersKept p q) (timed : TimersRead conf clock base off overs oblbsince p) :
    TimersRead conf clock base off overs oblbsince q := by
  obtain ⟨offsince, oversince, oblb⟩ := kept.since
  obtain ⟨offstate, overstate⟩ := kept.latched
  refine ⟨⟨timed.started.1, timed.started.2.trans kept.ticks⟩, fun set => ?_, fun latched => ?_,
    fun set => ?_, fun latched => ?_, oblb.trans timed.oblb⟩
  · rw [isset, kept.off] at set
    rw [offsince]
    exact (timed.offsince set).imp_right (readSince_mono kept.ticks)
  · rw [offstate] at latched
    obtain ⟨set, lasts⟩ := timed.offstate latched
    exact ⟨kept.off.trans set, fun positive => outlasted_mono kept.ticks (lasts positive)⟩
  · rw [isset, kept.overload] at set
    rw [oversince]
    exact readSince_mono kept.ticks (timed.oversince set)
  · rw [overstate] at latched
    exact (timed.overstate latched).imp_right fun set => kept.overload.trans set

theorem timed_upsIsNotoff (timed : TimersRead conf clock base off overs oblbsince p) :
    TimersRead conf clock base off overs oblbsince (p.upsIsNotoff conf) := by
  have status := upsIsNotoff_status conf p
  have ups : (p.upsIsNotoff conf).ups = { p.ups with
      offsince := 0, offstate := 0, status := (p.upsIsNotoff conf).ups.status } ∧ (p.upsIsNotoff conf).ticks = p.ticks := by
    unfold upsIsNotoff leaveState tryRestorePollfreq
    split_ifs <;> exact ⟨rfl, rfl⟩
  have overload : (p.upsIsNotoff conf).isset .overload = p.isset .overload := by
    rw [isset, status, Function.update_of_ne (by decide)]
    rfl
  constructor
  case started => rw [ups.2]; exact timed.started
  case offsince =>
    intro set
    rw [isset, status, Function.update_self] at set
    cases set
  case offstate =>
    intro latched
    rw [ups.1] at latched
    cases latched
  case oversince =>
    rw [overload, ups.1, ups.2]
    exact timed.oversince
  case overstate =>
    rw [overload, ups.1]
    exact timed.overstate
  case oblb => rw [ups.1]; exact timed.oblb

theorem timed_upsIsNotover (timed : TimersRead conf clock base off overs oblbsince p) :
    TimersRead conf clock base off overs oblbsince (p.upsIsNotover conf) := by
  have status := upsIsNotover_status conf p
  have ups : (p.upsIsNotover conf).ups = { p.ups with
      oversince := 0, overstate := 0, status := (p.upsIsNotover conf).ups.status } ∧ (p.upsIsNotover conf).ticks = p.ticks := by
    unfold upsIsNotover leaveState tryRestorePollfreq
    split_ifs <;> exact ⟨rfl, rfl⟩
  have isOff : (p.upsIsNotover conf).isset .off = p.isset .off := by
    rw [isset, status, Function.update_of_ne (by decide)]
    rfl
  constructor
  case started => rw [ups.2]; exact timed.started
  case offsince =>
    rw [isOff, ups.1, ups.2]
    exact timed.offsince
  case offstate =>
    rw [isOff, ups.1, ups.2]
    exact timed.offstate
  case oversince =>
    intro set
    rw [isset, status, Function.update_self] at set
    cases set
  case overstate =>
    intro latched
    rw [ups.1] at latched
    cases latched
  case oblb => rw [ups.1]; exact timed.oblb

theorem isset_setflag (p : UpsPoll) (flag : StFlag) : (p.setflag flag).isset flag = true := by
  rw [isset, setflag_status, Function.update_self]

theorem timed_upsIsOff (timed : TimersRead conf clock base off overs oblbsince p) :
    TimersRead conf clock base off overs oblbsince (p.upsIsOff conf clock) := by
  have ticked := timed_kept timersKept_tick timed
  have read : ReadSince clock off p.tick.ticks (clock p.ticks) := ⟨p.ticks, timed.started.1.1.trans timed.started.2, Nat.lt_succ_self _, rfl⟩
  unfold upsIsOff
  dsimp only
  split_ifs with known early lasts
  · exact { ticked with offsince := fun _ => .inr read }
  · refine { ticked with offstate := fun _ => ⟨known, fun _ => ?_⟩ }
    obtain ⟨n, after, -, since⟩ := (timed.offsince known).resolve_left early
    refine ⟨n, p.ticks, after, Nat.lt_succ_self _, ?_⟩
    rw [<- since]
    exact lasts.2
  · exact ticked
  all_goals
    have unlatched : p.ups.offstate ≠ 1 := fun latched => known (timed.offstate latched).1
    unfold enterState
    rw [if_neg known]
  · next immediate =>
      refine { ticked with offsince := fun _ => .inr read, offstate := fun _ => ⟨isset_setflag _ .off, fun positive => ?_⟩ }
      rw [immediate] at positive
      exact absurd positive (Int.lt_irrefl 0)
  · exact { ticked with offsince := fun _ => .inr read, offstate := fun latched => absurd latched unlatched }

theorem timed_upsIsOver (timed : TimersRead conf clock base off overs oblbsince p) :
    TimersRead conf clock base off overs oblbsince (p.upsIsOver conf clock) := by
  have ticked := timed_kept timersKept_tick timed
  have read : ReadSince clock overs p.tick.ticks (clock p.ticks) := ⟨p.ticks, timed.started.1.2.trans timed.started.2, Nat.lt_succ_self _, rfl⟩
  unfold upsIsOver
  dsimp only
  split_ifs with known early
  · exact { ticked with oversince := fun _ => read, overstate := fun _ => .inr known }
  · exact ticked
  all_goals
    unfold enterState
    rw [if_neg known]
    exact { ticked with oversince := fun _ => read, overstate := fun _ => .inr (isset_setflag _ .overload) }

theorem timed_leaveStates (status : CString) (timed : TimersRead conf clock base off overs oblbsince p) :
    TimersRead conf clock base off overs oblbsince (p.leaveStates conf status) := by
  have left {q r : UpsPoll} (same : TimersKept q r) (timed : TimersRead conf clock base off overs oblbsince q) :
      TimersRead conf clock base off overs oblbsince r := timed_kept same timed
  apply leaveStates_cases conf timed
  case lowbatt => exact fun _ q timed => left (timersKept_status (by decide) (by decide) rfl) timed
  case fsd =>
    intro _ q timed
    have cleared : TimersKept q (q.clearflag .fsd) := timersKept_status (by decide) (by decide) rfl
    exact left (timersKept_trans cleared (timersKept_of (le_refl _) rfl)) timed
  case cal => exact fun _ q timed => left (timersKept_leaveState (by decide) (by decide)) timed
  case off => exact fun _ q timed => timed_upsIsNotoff timed
  case bypass =>
    intro _ q timed
    have before : TimersKept q { q with ups.bypassstate := 0 } := timersKept_of (le_refl _) rfl
    exact left (timersKept_trans before (timersKept_leaveState (by decide) (by decide))) timed
  case alarm =>
    intro _ q timed
    have before : TimersKept q { q with ups.alarmstate := 0 } := timersKept_of (le_refl _) rfl
    exact left (timersKept_trans before (timersKept_leaveState (by decide) (by decide))) timed
  case overload => exact fun _ q timed => timed_upsIsNotover timed
  case trim => exact fun _ q timed => left (timersKept_leaveState (by decide) (by decide)) timed
  case boost => exact fun _ q timed => left (timersKept_leaveState (by decide) (by decide)) timed

theorem timed_parseStatword (alarms : Option CString) (statword : CString) (timed : TimersRead conf clock base off overs oblbsince p) :
    TimersRead conf clock base off overs oblbsince (p.parseStatword conf clock alarms statword) := by
  have entered {flag : StFlag} {type : NotifyType} (off_ : flag ≠ .off) (over_ : flag ≠ .overload) :
      TimersRead conf clock base off overs oblbsince (p.enterState flag type none id) :=
    timed_kept (timersKept_enterState off_ over_ (timersKept_refl p)) timed
  apply parseStatword_cases conf clock (P := TimersRead conf clock base off overs oblbsince)
  case online => exact fun _ => timed_kept timersKept_upsOnLine timed
  case onbatt => exact fun _ => timed_kept timersKept_upsOnBatt timed
  case lowbatt => exact fun _ => entered (by decide) (by decide)
  case replbatt => exact fun _ => timed_kept timersKept_upsreplbatt timed
  case cal => exact fun _ => entered (by decide) (by decide)
  case off => exact fun _ => timed_upsIsOff timed
  case bypass => exact fun _ => timed_kept timersKept_upsIsBypass timed
  case eco => exact fun _ => timed_kept timersKept_upsIsEco timed
  case alarm => exact fun _ => timed_kept (timersKept_upsIsAlarm alarms) timed
  case overload => exact fun _ => timed_upsIsOver timed
  case trim => exact fun _ => entered (by decide) (by decide)
  case boost => exact fun _ => entered (by decide) (by decide)
  case fsd => exact fun _ => timed_kept timersKept_upsFsd timed
  case other => exact fun _ => timed

theorem timed_parseStatwords (alarm : Nat -> Option CString) (i : Nat) (statwords : List CString)
    (timed : TimersRead conf clock base off overs oblbsince p) :
    TimersRead conf clock base off overs oblbsince (p.parseStatwords conf clock alarm i statwords) := by
  induction statwords generalizing i p with
  | nil => exact timed
  | cons statword rest ih => exact ih (i + 1) (timed_kept timersKept_updateCrittimer (timed_parseStatword _ statword timed))

theorem timed_pollups (answer : PollAnswer) (timed : TimersRead conf clock base off overs oblbsince p) :
    TimersRead conf clock base off overs oblbsince (p.pollups conf clock answer) := by
  have connected : TimersKept p (if p.isset .cliconnected then (p, true) else p.tryConnect conf clock answer.connect).1 := by
    split
    · exact timersKept_refl p
    · exact timersKept_tryConnect answer.connect
  unfold pollups
  dsimp only
  generalize (if p.isset .cliconnected then (p, true) else p.tryConnect conf clock answer.connect) = c at *
  have there := timed_kept connected timed
  split_ifs
  · exact there
  · unfold parseStatus
    split
    · exact timed_kept timersKept_upsIsGone there
    · have alive := timed_leaveStates answer.report.status (timed_kept (@timersKept_upsIsAlive clock c.1) there)
      exact timed_parseStatwords _ _ _ (timed_kept (timersKept_ecoMode answer.report) alive)
  · exact timed_kept (timersKept_trans timersKept_upsIsGone timersKept_dropConnection) there
  · exact timed_kept timersKept_upsIsGone there

end Words

def UpsPoll.PollAnswer.hears (answer : PollAnswer) (ups : Utype) : Bool :=
  (ups.status .cliconnected || answer.connect = .accepted) && answer.report.status ≠ []

def connectionFlags : List StFlag :=
  [.primary, .login, .cliconnected]

structure Unread (conf : UpsmonConf) (ups : Utype) : Prop where
  flags : ∀ flag, flag ∉ connectionFlags -> ups.status flag = false
  bypass : ups.bypassstate ≠ 1
  alarm : ups.alarmstate = 1 -> conf.alarmcritical ≠ 1

section Unheard

variable {conf : UpsmonConf} {clock : Nat -> Int} {p q : UpsPoll}

theorem unread_status {flag : StFlag} {value : Bool} (connection : flag ∈ connectionFlags) (unread : Unread conf p.ups)
    (status : q.ups.status = Function.update p.ups.status flag value)
    (latched : q.ups.bypassstate = p.ups.bypassstate ∧ q.ups.alarmstate = p.ups.alarmstate) : Unread conf q.ups := by
  refine ⟨fun f other => ?_, latched.1 ▸ unread.bypass, latched.2 ▸ unread.alarm⟩
  have apart : f ≠ flag := fun same => other (same ▸ connection)
  rw [status, Function.update_of_ne apart]
  exact unread.flags f other

theorem unread_setflag {flag : StFlag} (connection : flag ∈ connectionFlags) (unread : Unread conf p.ups) :
    Unread conf (p.setflag flag).ups := unread_status connection unread (setflag_status p flag) ⟨rfl, rfl⟩

theorem unread_clearflag {flag : StFlag} (connection : flag ∈ connectionFlags) (unread : Unread conf p.ups) :
    Unread conf (p.clearflag flag).ups := unread_status connection unread (clearflag_status p flag) ⟨rfl, rfl⟩

theorem unread_upsIsGone (unread : Unread conf p.ups) : Unread conf (p.upsIsGone conf clock).ups := by
  unfold upsIsGone
  dsimp only
  split_ifs <;> exact { unread with }

theorem unread_dropConnection (unread : Unread conf p.ups) : Unread conf p.dropConnection.ups := by
  have noted : Unread conf ({ p with ups.commstate := 0 } : UpsPoll).ups := { unread with }
  exact unread_clearflag (by decide) (unread_clearflag (by decide) noted)

theorem unread_tryConnect (connect : Connect) (unread : Unread conf p.ups) :
    Unread conf (p.tryConnect conf clock connect).1.ups := by
  have cleared : Unread conf (p.clearflag .cliconnected).ups := unread_clearflag (by decide) unread
  have connected : Unread conf ((p.clearflag .cliconnected).setflag .cliconnected).ups := unread_setflag (by decide) cleared
  have login : Unread conf (((p.clearflag .cliconnected).setflag .cliconnected).setflag .login).ups :=
    unread_setflag (by decide) connected
  unfold tryConnect
  cases connect with
  | noCertpath => exact unread_dropConnection (unread_upsIsGone cleared)
  | failed => exact unread_upsIsGone cleared
  | refused isLogin =>
    cases isLogin
    · exact connected
    · exact login
  | accepted => exact login

theorem unread_pollups {answer : PollAnswer} (silent : answer.hears p.ups = false) (unread : Unread conf p.ups) :
    Unread conf (p.pollups conf clock answer).ups := by
  have connected : Unread conf (if p.isset .cliconnected then (p, true) else p.tryConnect conf clock answer.connect).1.ups := by
    split
    · exact unread
    · exact unread_tryConnect answer.connect unread
  have empty (reached : (if p.isset .cliconnected then (p, true) else p.tryConnect conf clock answer.connect).2 = true) :
      answer.report.status = [] := by
    have there : p.ups.status .cliconnected = true ∨ answer.connect = .accepted := by
      split at reached
      next known => exact .inl known
      next =>
        refine .inr ?_
        unfold tryConnect at reached
        cases answered : answer.connect <;> simp_all
    unfold PollAnswer.hears at silent
    rcases there with there | there <;> simpa [there] using silent
  unfold pollups
  dsimp only
  generalize (if p.isset .cliconnected then (p, true) else p.tryConnect conf clock answer.connect) = c at *
  split_ifs with refused
  · exact connected
  · rw [Bool.not_eq_false] at refused
    unfold parseStatus
    rw [if_pos (empty refused)]
    exact unread_upsIsGone connected
  · exact unread_dropConnection (unread_upsIsGone connected)
  · exact unread_upsIsGone connected

end Unheard

section Judged

variable {conf : UpsmonConf} {clock : Nat -> Int} {p : UpsPoll} {now : Int}

theorem promoteDead_ups (p : UpsPoll) :
    (promoteDead conf now p).ups = { p.ups with status := (promoteDead conf now p).ups.status } ∧
      (promoteDead conf now p).ticks = p.ticks := by
  unfold promoteDead
  split <;> exact ⟨rfl, rfl⟩

theorem isUpsCritical_oblbsince (p : UpsPoll) :
    ∃ oblbsince, (p.isUpsCritical conf clock).1.ups = { p.ups with oblbsince } ∧ p.ticks ≤ (p.isUpsCritical conf clock).1.ticks ∧
      (0 < oblbsince -> oblbsince = p.ups.oblbsince ∧
            ((p.isset .onbatt && p.isset .lowbatt) = true ∨ p.reachesOblb conf (clock p.ticks) = false) ∨
          (p.isset .onbatt && p.isset .lowbatt) = true ∧ oblbsince = clock p.ticks ∧
            p.ticks < (p.isUpsCritical conf clock).1.ticks) := by
  have later : p.ticks ≤ p.ticks + 1 := Nat.le_succ _
  unfold isUpsCritical
  dsimp only
  split
  next fsd => exact ⟨_, rfl, le_refl _, fun _ => .inl ⟨rfl, .inr (by simp [reachesOblb, fsd])⟩⟩
  next fsd =>
    split
    next lost =>
      have unreached : p.reachesOblb conf (clock p.ticks) = false := by
        have lost' : (p.ups.commstate = 0 && p.lostCritical conf (clock p.ticks)) = true := lost
        simp [reachesOblb, lost']
      exact ⟨_, rfl, later, fun _ => .inl ⟨rfl, .inr unreached⟩⟩
    next lost =>
      split
      next off =>
        have unreached : p.reachesOblb conf (clock p.ticks) = false := by
          have off' : (p.isset .off && 0 ≤ conf.offdurationtime && p.ups.offstate = 1) = true := off
          simp [reachesOblb, off']
        exact ⟨_, rfl, later, fun _ => .inl ⟨rfl, .inr unreached⟩⟩
      next off =>
        split
        next calm =>
          unfold returnFromOblb
          split
          next since => exact ⟨0, rfl, later, fun positive => absurd positive (Int.lt_irrefl 0)⟩
          next stopped => exact ⟨_, rfl, later, fun positive => absurd positive stopped⟩
        next grave =>
          have both : (p.isset .onbatt && p.isset .lowbatt) = true := by
            have grave' : ¬ (!p.isset .onbatt || !p.isset .lowbatt) = true := grave
            rw [<- Bool.not_and] at grave'
            simpa using grave'
          split_ifs
          · exact ⟨_, rfl, later, fun _ => .inl ⟨rfl, .inl both⟩⟩
          · exact ⟨clock p.ticks, rfl, later, fun _ => .inr ⟨both, rfl, Nat.lt_succ_self _⟩⟩
          all_goals exact ⟨_, rfl, later, fun _ => .inl ⟨rfl, .inl both⟩⟩

theorem isUpsCritical_verdict (critical : (p.isUpsCritical conf clock).2 = true) :
    p.isset .fsd = true ∨ (p.ups.commstate = 0 && p.lostCritical conf (clock p.ticks)) = true ∨
      (p.isset .off && 0 ≤ conf.offdurationtime && p.ups.offstate = 1) = true ∨
      (p.isset .onbatt = true ∧ (0 < conf.oblbdurationtime -> 0 < clock p.ticks ->
        0 < p.ups.oblbsince ∧ conf.oblbdurationtime ≤ clock p.ticks - p.ups.oblbsince)) := by
  unfold isUpsCritical at critical
  dsimp only at critical
  split at critical
  next fsd => exact .inl fsd
  next =>
    split at critical
    next lost => exact .inr (.inl lost)
    next =>
      split at critical
      next off => exact .inr (.inr (.inl off))
      next =>
        split at critical
        next => cases critical
        next grave =>
          simp only [Bool.or_eq_true, Bool.not_eq_true', not_or, Bool.not_eq_false] at grave
          split_ifs at critical with cal watch waits
          all_goals
            refine .inr (.inr (.inr ⟨grave.1, fun lasts positive => ?_⟩))
            have since : 0 < p.ups.oblbsince := by
              by_contra none_
              exact watch ⟨lasts, by change p.ups.oblbsince < 1; omega, positive⟩
            refine ⟨since, ?_⟩
            by_contra early
            exact waits ⟨lasts, positive, by change clock p.ticks - p.ups.oblbsince < _; omega⟩

end Judged

namespace Upsmon

variable (conf : UpsmonConf) (clock : Nat -> Int)

def foundAll (now : Int) : List Utype -> UpsmonShared -> List UpsPoll
  | [], _ => []
  | ups :: rest, shared =>
    let found := promoteDead conf now { shared with ups }
    found :: foundAll now rest (found.isUpsCritical conf clock).1.toUpsmonShared

def found (w : Upsmon) : List UpsPoll :=
  foundAll conf clock (clock w.ticks) w.upsList { w.toUpsmonShared with ticks := w.ticks + 1 }

end Upsmon

structure Spells where
  heard : Bool
  off : Option Nat
  overs : Option Nat
  oblb : Option Nat

def Spells.fresh : Spells :=
  { heard := false, off := none, overs := none, oblb := none }

def lasting (holds : Bool) (since : Option Nat) (ticks : Nat) : Option Nat :=
  if holds then some (since.getD ticks) else none

def Spells.polled (answer : PollAnswer) (before after : Utype) (ticks : Nat) (spells : Spells) : Spells :=
  { spells with
    heard := spells.heard || answer.hears before
    off := lasting (after.status .off) spells.off ticks
    overs := lasting (after.status .overload) spells.overs ticks }

def Spells.judged (after : Utype) (ticks : Nat) (spells : Spells) : Spells :=
  { spells with oblb := lasting (after.status .onbatt && after.status .lowbatt) spells.oblb ticks }

structure WakeLog extends Upsmon where
  spells : Nat -> Spells

namespace WakeLog

variable (conf : UpsmonConf) (clock : Nat -> Int)

def woken (w : Upsmon) : WakeLog :=
  { w with spells := fun _ => .fresh }

def seen (log : WakeLog) (event : UpsmonEvent) (j : Nat) : Spells :=
  match event, log.upsList[j]?, (log.toUpsmon.step conf clock event).upsList[j]? with
  | .poll i answer, some before, some after =>
    if j = i then (log.spells j).polled answer before after log.ticks else log.spells j
  | .recalc, _, some after => (log.spells j).judged after log.ticks
  | _, _, _ => log.spells j

def step (log : WakeLog) (event : UpsmonEvent) : WakeLog :=
  { log.toUpsmon.step conf clock event with spells := log.seen conf clock event }

end WakeLog

def UpsPoll.overInEffect (conf : UpsmonConf) (now : Int) (p : UpsPoll) : Bool :=
  (p.ups.overstate = 1 || p.isset .overload) && 0 ≤ conf.overdurationtime &&
    !(0 < now && now - p.ups.oversince < conf.overdurationtime)

structure Forgets (conf : UpsmonConf) (clock : Nat -> Int) (spells : Spells) (p : UpsPoll) : Prop where
  read : (p.isUpsCritical conf clock).2 = true -> spells.heard = true
  off : p.ups.offstate = 1 -> 0 < conf.offdurationtime ->
    ∃ first ∈ spells.off, Outlasted clock first p.ticks conf.offdurationtime
  overs : p.ups.commstate = 0 -> p.overInEffect conf (clock p.ticks) = true ->
    ∃ first ∈ spells.overs, ∃ since, ReadSince clock first p.ticks since ∧ conf.overdurationtime ≤ clock p.ticks - since
  oblb : (p.isUpsCritical conf clock).2 = true -> p.reachesOblb conf (clock p.ticks) = true -> 0 < conf.oblbdurationtime ->
    ∃ first ∈ spells.oblb, ∃ since, ReadSince clock first p.ticks since ∧ conf.oblbdurationtime ≤ clock p.ticks - since

namespace WakeLog

variable (conf : UpsmonConf) (clock : Nat -> Int)

def Forgets (log : WakeLog) : UpsmonEvent -> Prop
  | .poll _ _ => True
  | .recalc => ∀ i p, (log.found conf clock)[i]? = some p -> Nut.Forgets conf clock (log.spells i) p

-- The timer of OB with LB is not left running: no UPS that has returned from there is critical for another reason.
def Returns (log : WakeLog) : UpsmonEvent -> Prop
  | .poll _ _ => True
  | .recalc => ∀ p ∈ log.found conf clock, 0 < p.ups.oblbsince -> 0 < conf.oblbdurationtime ->
      (p.isset .onbatt && p.isset .lowbatt) = true ∨ p.reachesOblb conf (clock p.ticks) = true

instance (log : WakeLog) (event : UpsmonEvent) : Decidable (log.Returns conf clock event) :=
  match event with
  | .poll _ _ => isTrue trivial
  | .recalc => inferInstanceAs (Decidable (∀ p ∈ log.found conf clock, _ -> _ -> _))

end WakeLog

structure Unlatched (conf : UpsmonConf) (lines : Option (List MonitorLine)) (ups : Utype) : Prop where
  off : ups.offstate ≠ 1
  bypass : ups.bypassstate ≠ 1
  alarm : ups.alarmstate = 1 -> conf.alarmcritical ≠ 1
  overs : ups.overstate = 1 -> conf.overdurationtime < 0
  oblb : 0 < ups.oblbsince -> conf.oblbdurationtime ≤ 0
  role : ups.status .primary = true -> (lines.bind fun lines => roleRead lines ups.sys).isSome = true

def RolesKept (lines : Option (List MonitorLine)) (w woken : Upsmon) : Prop :=
  ∀ ups ∈ woken.upsList, ∀ before ∈ w.upsList, before.sys = ups.sys ->
    ups.status .primary = (lines.bind fun lines => roleRead lines ups.sys).getD (before.status .primary)

section Runs

variable {conf : UpsmonConf} {clock : Nat -> Int} {p : UpsPoll} {shared shared' : UpsmonShared} {ups : Utype}
  {base off overs : Nat} {oblbsince : Int}

theorem timersKept_shared (later : shared.ticks ≤ shared'.ticks) :
    TimersKept { shared with ups } { shared' with ups } := ⟨later, rfl, rfl, ⟨rfl, rfl⟩, ⟨rfl, rfl, rfl⟩⟩

theorem timed_lasting {seenOff seenOver : Option Nat} {ticks : Nat}
    (timed : TimersRead conf clock ticks (seenOff.getD ticks) (seenOver.getD ticks) oblbsince p) :
    TimersRead conf clock p.ticks ((lasting (p.isset .off) seenOff ticks).getD p.ticks)
      ((lasting (p.isset .overload) seenOver ticks).getD p.ticks) oblbsince p := by
  obtain ⟨⟨startedOff, startedOver⟩, later⟩ := timed.started
  have offStarted : (lasting (p.isset .off) seenOff ticks).getD p.ticks ≤ p.ticks := by
    unfold lasting
    split
    · exact startedOff.trans later
    · exact le_refl _
  have overStarted : (lasting (p.isset .overload) seenOver ticks).getD p.ticks ≤ p.ticks := by
    unfold lasting
    split
    · exact startedOver.trans later
    · exact le_refl _
  have offSeen (set : p.isset .off = true) : (lasting (p.isset .off) seenOff ticks).getD p.ticks = seenOff.getD ticks := by
    rw [set]
    rfl
  have overSeen (set : p.isset .overload = true) :
      (lasting (p.isset .overload) seenOver ticks).getD p.ticks = seenOver.getD ticks := by
    rw [set]
    rfl
  refine ⟨⟨⟨offStarted, overStarted⟩, le_refl _⟩, fun set => ?_, fun latched => ?_, fun set => ?_, timed.overstate, timed.oblb⟩
  · rw [offSeen set]
    exact timed.offsince set
  · rw [offSeen (timed.offstate latched).1]
    exact timed.offstate latched
  · rw [overSeen set]
    exact timed.oversince set

theorem lasting_same {holds : Bool} {since : Option Nat} (ticks : Nat) (seen : since.isSome = holds) :
    lasting holds since ticks = since := by
  unfold lasting
  cases since <;> simp_all

theorem lasting_isSome (holds : Bool) (since : Option Nat) (ticks : Nat) : (lasting holds since ticks).isSome = holds := by
  unfold lasting
  cases holds <;> rfl

structure Awake (conf : UpsmonConf) (clock : Nat -> Int) (shared : UpsmonShared) (spells : Spells) (ups : Utype) : Prop where
  timed : TimersRead conf clock shared.ticks (spells.off.getD shared.ticks) (spells.overs.getD shared.ticks) ups.oblbsince
    { shared with ups }
  off : spells.off.isSome = ups.status .off
  overs : spells.overs.isSome = ups.status .overload
  started : ∀ first ∈ spells.oblb, first ≤ shared.ticks
  oblb : 0 < ups.oblbsince -> 0 < conf.oblbdurationtime -> ∃ first ∈ spells.oblb, ReadSince clock first shared.ticks ups.oblbsince
  unread : spells.heard = false -> Unread conf ups

theorem awake_later {spells : Spells} (awake : Awake conf clock shared spells ups) (later : shared.ticks ≤ shared'.ticks) :
    Awake conf clock shared' spells ups := by
  refine ⟨?_, awake.off, awake.overs, fun first seen => (awake.started first seen).trans later, fun running lasts => ?_, awake.unread⟩
  · have timed := timed_lasting (timed_kept (timersKept_shared later) awake.timed)
    have off : lasting (({ shared' with ups } : UpsPoll).isset .off) spells.off shared.ticks = spells.off :=
      lasting_same _ awake.off
    have overs : lasting (({ shared' with ups } : UpsPoll).isset .overload) spells.overs shared.ticks = spells.overs :=
      lasting_same _ awake.overs
    rwa [off, overs] at timed
  · obtain ⟨first, seen, read⟩ := awake.oblb running lasts
    exact ⟨first, seen, readSince_mono later read⟩

theorem awake_pollups {spells : Spells} (answer : PollAnswer) (awake : Awake conf clock shared spells ups) :
    shared.ticks ≤ (pollups conf clock answer { shared with ups }).ticks ∧
      Awake conf clock (pollups conf clock answer { shared with ups }).toUpsmonShared
        (spells.polled answer ups (pollups conf clock answer { shared with ups }).ups shared.ticks)
        (pollups conf clock answer { shared with ups }).ups := by
  have timed := timed_pollups answer awake.timed
  have oblb := timed.oblb
  refine ⟨timed.started.2, ?_, lasting_isSome _ _ _, lasting_isSome _ _ _,
    fun first seen => (awake.started first seen).trans timed.started.2, fun running lasts => ?_, fun unheard => ?_⟩
  · rw [oblb]
    exact timed_lasting timed
  · rw [oblb] at running ⊢
    obtain ⟨first, seen, read⟩ := awake.oblb running lasts
    exact ⟨first, seen, readSince_mono timed.started.2 read⟩
  · obtain ⟨before, silent⟩ := Bool.or_eq_false_iff.mp unheard
    exact @unread_pollups conf clock { shared with ups } answer silent (awake.unread before)

theorem unread_calm (timed : TimersRead conf clock base off overs oblbsince p) (unread : Unread conf p.ups) :
    (p.isUpsCritical conf clock).2 = false := by
  have unset (flag : StFlag) (other : flag ∉ connectionFlags) : p.isset flag = false := unread.flags flag other
  have unlatched : p.ups.offstate ≠ 1 := by
    intro latched
    have set := (timed.offstate latched).1
    rw [unset .off (by decide)] at set
    cases set
  have calm (now : Int) : p.lostCritical conf now = false := by
    have overload : (p.ups.overstate = 1 && 0 ≤ conf.overdurationtime) = false := by
      by_contra latched
      simp only [Bool.not_eq_false, Bool.and_eq_true, decide_eq_true_eq] at latched
      rcases timed.overstate latched.1 with negative | set
      · omega
      · rw [unset .overload (by decide)] at set
        cases set
    have alarm : (p.ups.alarmstate = 1 && conf.alarmcritical = 1) = false := by
      by_contra latched
      simp only [Bool.not_eq_false, Bool.and_eq_true, decide_eq_true_eq] at latched
      exact unread.alarm latched.1 latched.2
    unfold lostCritical
    rw [unset .overload (by decide), unset .alarm (by decide), unset .cal (by decide), unset .bypass (by decide),
      unset .off (by decide), Bool.or_false, Bool.or_false, Bool.or_false, overload, alarm]
    simp [unread.bypass, unlatched]
  refine Bool.eq_false_iff.mpr fun critical => ?_
  rcases isUpsCritical_verdict critical with fsd | lost | offed | battery
  · rw [unset .fsd (by decide)] at fsd
    cases fsd
  · rw [calm, Bool.and_false] at lost
    cases lost
  · rw [unset .off (by decide), Bool.false_and, Bool.false_and] at offed
    cases offed
  · rw [unset .onbatt (by decide)] at battery
    cases battery.1

theorem promoteDead_kept (now : Int) : TimersKept p (promoteDead conf now p) := by
  unfold promoteDead
  split
  · exact timersKept_status (by decide) (by decide) rfl
  · exact timersKept_refl p

theorem timed_oblbsince (timed : TimersRead conf clock base off overs oblbsince p) (later : p.ticks ≤ shared.ticks) (since : Int) :
    TimersRead conf clock base off overs since { shared with ups := { p.ups with oblbsince := since } } :=
  ⟨⟨timed.started.1, timed.started.2.trans later⟩, fun set => (timed.offsince set).imp_right (readSince_mono later),
    fun latched => ⟨(timed.offstate latched).1, fun lasts => outlasted_mono later ((timed.offstate latched).2 lasts)⟩,
    fun set => readSince_mono later (timed.oversince set), timed.overstate, rfl⟩

theorem awake_judged {spells : Spells} {now : Int} {final : UpsmonShared} (awake : Awake conf clock shared spells ups)
    (later : shared.ticks ≤ shared'.ticks) (found : p = promoteDead conf now { shared' with ups })
    (returns : 0 < p.ups.oblbsince -> 0 < conf.oblbdurationtime ->
      (p.isset .onbatt && p.isset .lowbatt) = true ∨ p.reachesOblb conf (clock p.ticks) = true)
    (after : (p.isUpsCritical conf clock).1.ticks ≤ final.ticks) :
    Awake conf clock final (spells.judged (p.isUpsCritical conf clock).1.ups shared.ticks) (p.isUpsCritical conf clock).1.ups := by
  have kept : TimersKept { shared with ups } p := by
    rw [found]
    exact timersKept_trans (timersKept_shared later) (promoteDead_kept now)
  obtain ⟨oblbsince, same, ticks, running⟩ := @isUpsCritical_oblbsince conf clock p
  have whole := ticks.trans after
  have timed := timed_lasting (timed_oblbsince (timed_kept kept awake.timed) whole oblbsince)
  rw [same]
  constructor
  case timed =>
    have isOff : lasting (p.isset .off) spells.off shared.ticks = spells.off := lasting_same _ (awake.off.trans kept.off.symm)
    have isOver : lasting (p.isset .overload) spells.overs shared.ticks = spells.overs :=
      lasting_same _ (awake.overs.trans kept.overload.symm)
    change TimersRead conf clock final.ticks ((lasting (p.isset .off) spells.off shared.ticks).getD final.ticks)
      ((lasting (p.isset .overload) spells.overs shared.ticks).getD final.ticks) oblbsince _ at timed
    rwa [isOff, isOver] at timed
  case off => exact awake.off.trans kept.off.symm
  case overs => exact awake.overs.trans kept.overload.symm
  case started =>
    intro first seen
    unfold Spells.judged lasting at seen
    dsimp only at seen
    split at seen
    · cases seen
      refine le_trans ?_ (kept.ticks.trans whole)
      cases before : spells.oblb with
      | none => exact le_refl _
      | some first => exact awake.started first before
    · cases seen
  case oblb =>
    intro positive lasts
    have seen (both : (p.isset .onbatt && p.isset .lowbatt) = true) :
        (spells.judged { p.ups with oblbsince } shared.ticks).oblb = some (spells.oblb.getD shared.ticks) := if_pos both
    rcases running positive with ⟨still, both⟩ | ⟨both, read, timely⟩
    · have was : oblbsince = ups.oblbsince := still.trans kept.since.2.2
      have here : (p.isset .onbatt && p.isset .lowbatt) = true := by
        rcases both with here | unreached
        · exact here
        · refine (returns (still ▸ positive) lasts).resolve_right fun reached => ?_
          rw [unreached] at reached
          cases reached
      obtain ⟨first, before, read⟩ := awake.oblb (was ▸ positive) lasts
      refine ⟨first, ?_, was ▸ readSince_mono (kept.ticks.trans whole) read⟩
      rw [seen here, Option.mem_def.mp before]
      rfl
    · refine ⟨spells.oblb.getD shared.ticks, seen both, p.ticks, ?_, timely.trans_le after, read⟩
      refine le_trans ?_ kept.ticks
      cases before : spells.oblb with
      | none => exact le_refl _
      | some first => exact awake.started first before
  case unread =>
    intro unheard
    have unread := awake.unread unheard
    have unset : ¬ ups.status .onbatt = true := by
      rw [unread.flags .onbatt (by decide)]
      decide
    have alone : p = { shared' with ups } := by
      rw [found]
      exact if_neg fun dead => unset dead.2
    rw [alone]
    exact { unread with }

theorem recalcUpses_ticks (now : Int) (upses : List Utype) (shared : UpsmonShared) :
    shared.ticks ≤ (Upsmon.recalcUpses conf clock now upses shared).2.ticks ∧
      (Upsmon.recalcUpses conf clock now upses shared).1.length = upses.length ∧
      (Upsmon.foundAll conf clock now upses shared).length = upses.length := by
  induction upses generalizing shared with
  | nil => exact ⟨le_refl _, rfl, rfl⟩
  | cons ups rest ih =>
    obtain ⟨-, -, ticks, -⟩ := @isUpsCritical_oblbsince conf clock (promoteDead conf now { shared with ups })
    obtain ⟨later, length, found⟩ := ih ((promoteDead conf now { shared with ups }).isUpsCritical conf clock).1.toUpsmonShared
    rw [(promoteDead_ups _).2] at ticks
    exact ⟨ticks.trans later, congrArg Nat.succ length, congrArg Nat.succ found⟩

theorem foundAll_at {i : Nat} {upses : List Utype} (now : Int) (place : upses[i]? = some ups) (shared : UpsmonShared) :
    ∃ shared' : UpsmonShared, shared.ticks ≤ shared'.ticks ∧
      (Upsmon.foundAll conf clock now upses shared)[i]? = some (promoteDead conf now { shared' with ups }) ∧
      (Upsmon.recalcUpses conf clock now upses shared).1[i]? =
        some ((promoteDead conf now { shared' with ups }).isUpsCritical conf clock).1.ups ∧
      ((promoteDead conf now { shared' with ups }).isUpsCritical conf clock).1.ticks ≤
        (Upsmon.recalcUpses conf clock now upses shared).2.ticks := by
  induction upses generalizing i shared with
  | nil => cases place
  | cons first rest ih =>
    obtain ⟨-, -, ticks, -⟩ := @isUpsCritical_oblbsince conf clock (promoteDead conf now { shared with ups := first })
    rw [(promoteDead_ups _).2] at ticks
    cases i with
    | zero =>
      obtain rfl : first = ups := by simpa using place
      exact ⟨shared, le_refl _, rfl, rfl, (recalcUpses_ticks now rest _).1⟩
    | succ i =>
      have next : rest[i]? = some ups := by simpa using place
      obtain ⟨shared', later, found, judged, after⟩ :=
        ih next ((promoteDead conf now { shared with ups := first }).isUpsCritical conf clock).1.toUpsmonShared
      exact ⟨shared', ticks.trans later, by simpa [Upsmon.foundAll] using found,
        by simpa [Upsmon.recalcUpses] using judged, after⟩

variable {log : WakeLog}

def WakeLog.Awake (conf : UpsmonConf) (clock : Nat -> Int) (log : WakeLog) : Prop :=
  ∀ i ups, log.upsList[i]? = some ups -> Nut.Awake conf clock log.toUpsmonShared (log.spells i) ups

theorem seen_poll {i j : Nat} {answer : PollAnswer} {before after : Utype} (there : log.upsList[j]? = some before)
    (place : (log.toUpsmon.poll conf clock i answer).upsList[j]? = some after) :
    log.seen conf clock (.poll i answer) j =
      if j = i then (log.spells j).polled answer before after log.ticks else log.spells j := by
  have step : (log.toUpsmon.step conf clock (.poll i answer)).upsList[j]? = some after := place
  unfold WakeLog.seen
  rw [there, step]

theorem seen_recalc {i : Nat} {after : Utype} (place : (log.toUpsmon.recalc conf clock).upsList[i]? = some after) :
    log.seen conf clock .recalc i = (log.spells i).judged after log.ticks := by
  have step : (log.toUpsmon.step conf clock .recalc).upsList[i]? = some after := place
  unfold WakeLog.seen
  rw [step]

theorem awake_step (event : UpsmonEvent) (awake : log.Awake conf clock) (returns : log.Returns conf clock event) :
    (log.step conf clock event).Awake conf clock := by
  cases event with
  | poll i answer =>
    intro j after place
    change (log.toUpsmon.poll conf clock i answer).upsList[j]? = some after at place
    change Nut.Awake conf clock (log.toUpsmon.poll conf clock i answer).toUpsmonShared (log.seen conf clock (.poll i answer) j) after
    cases there : log.upsList[i]? with
    | none =>
      have same : log.toUpsmon.poll conf clock i answer = log.toUpsmon := by
        unfold Upsmon.poll
        rw [there]
      have before : log.upsList[j]? = some after := by rwa [same] at place
      have other : j ≠ i := fun is => by rw [is, there] at before; cases before
      rw [seen_poll before place, if_neg other, same]
      exact awake j after before
    | some ups =>
      obtain ⟨later, polled⟩ := awake_pollups answer (awake i ups there)
      have whole := @poll_eq conf clock log.toUpsmon i ups there answer
      have list := congrArg Upsmon.upsList whole
      have shared := congrArg Upsmon.toUpsmonShared whole
      by_cases own : j = i
      · subst own
        rw [seen_poll there place, if_pos rfl, shared]
        have inside : j < log.upsList.length := (List.getElem?_eq_some_iff.mp there).1
        rw [list, List.getElem?_set_self inside] at place
        cases place
        exact polled
      · have before : log.upsList[j]? = some after := by rwa [list, List.getElem?_set_ne (Ne.symm own)] at place
        rw [seen_poll before place, if_neg own, shared]
        exact awake_later (awake j after before) later
  | recalc =>
    intro i after place
    change (log.toUpsmon.recalc conf clock).upsList[i]? = some after at place
    change Nut.Awake conf clock (log.toUpsmon.recalc conf clock).toUpsmonShared (log.seen conf clock .recalc i) after
    rw [seen_recalc place]
    unfold Upsmon.recalc at place ⊢
    have inside : i < log.upsList.length := by
      have bound := (List.getElem?_eq_some_iff.mp place).1
      rwa [(recalcUpses_ticks _ _ _).2.1] at bound
    obtain ⟨shared', later, found, judged, ends⟩ := @foundAll_at conf clock _ i log.upsList (clock log.ticks)
      (List.getElem?_eq_getElem inside) { log.toUpsmonShared with ticks := log.ticks + 1 }
    rw [judged] at place
    cases place
    exact awake_judged (awake i _ (List.getElem?_eq_getElem inside)) ((Nat.le_succ _).trans later) rfl
      (returns _ (List.mem_of_getElem? found)) ends

theorem awake_found {spells : Spells} {now : Int} (positive : 0 < clock p.ticks) (awake : Awake conf clock shared spells ups)
    (later : shared.ticks ≤ shared'.ticks) (found : p = promoteDead conf now { shared' with ups }) :
    Forgets conf clock spells p := by
  have kept : TimersKept { shared with ups } p := by
    rw [found]
    exact timersKept_trans (timersKept_shared later) (promoteDead_kept now)
  have timed := timed_kept kept awake.timed
  have first (seen : Option Nat) (set : seen.isSome = true) : seen.getD shared.ticks ∈ seen := by
    cases seen with
    | none => cases set
    | some first => rfl
  constructor
  case read =>
    intro critical
    by_contra unheard
    rw [Bool.not_eq_true] at unheard
    have unread := awake.unread unheard
    have unset : ¬ ups.status .onbatt = true := by
      rw [unread.flags .onbatt (by decide)]
      decide
    have alone : p = { shared' with ups } := by
      rw [found]
      exact if_neg fun dead => unset dead.2
    have calm := unread_calm timed (by rw [alone]; exact unread)
    rw [critical] at calm
    cases calm
  case off =>
    intro latched lasts
    obtain ⟨set, outlasted⟩ := timed.offstate latched
    exact ⟨_, first _ (awake.off.trans (kept.off.symm.trans set)), outlasted lasts⟩
  case overs =>
    intro _ inEffect
    simp only [overInEffect, Bool.and_eq_true, Bool.or_eq_true, decide_eq_true_eq, Bool.not_eq_true', Bool.and_eq_false_iff,
      decide_eq_false_iff_not] at inEffect
    obtain ⟨⟨known, enabled⟩, passed⟩ := inEffect
    have set : p.isset .overload = true := by
      rcases known with latched | set
      · exact (timed.overstate latched).resolve_left (by omega)
      · exact set
    refine ⟨_, first _ (awake.overs.trans (kept.overload.symm.trans set)), _, timed.oversince set, ?_⟩
    have late := passed.resolve_left fun none_ => none_ positive
    omega
  case oblb =>
    intro critical reaches lasts
    unfold reachesOblb at reaches
    rcases isUpsCritical_verdict critical with fsd | lost | offed | ⟨-, passed⟩
    · simp [fsd] at reaches
    · simp [lost] at reaches
    · simp [offed] at reaches
    · obtain ⟨running, late⟩ := passed lasts positive
      rw [kept.since.2.2] at running late
      obtain ⟨since, seen, read⟩ := awake.oblb running lasts
      exact ⟨since, seen, _, readSince_mono kept.ticks read, late⟩

theorem awake_forgets (positive : ∀ n, 0 < clock n) (event : UpsmonEvent) (awake : log.Awake conf clock) :
    log.Forgets conf clock event := by
  cases event with
  | poll i answer => exact trivial
  | recalc =>
    intro i p found
    have inside : i < log.upsList.length := by
      have bound := (List.getElem?_eq_some_iff.mp found).1
      unfold Upsmon.found at bound
      rwa [(recalcUpses_ticks _ _ _).2.2] at bound
    obtain ⟨shared', later, there, -, -⟩ := @foundAll_at conf clock _ i log.upsList (clock log.ticks)
      (List.getElem?_eq_getElem inside) { log.toUpsmonShared with ticks := log.ticks + 1 }
    have same := Option.some.inj (found.symm.trans there)
    exact awake_found (positive _) (awake i _ (List.getElem?_eq_getElem inside)) ((Nat.le_succ _).trans later) same

theorem stays_same {lines : Option (List MonitorLine)} {before : Utype} (sys : ups.sys = before.sys) (stays : Stays lines ups) :
    Stays lines before := by
  intro read is
  obtain ⟨line, listed, named, valid⟩ := stays read is
  exact ⟨line, listed, named.trans sys, valid⟩

theorem awake_woken {lines : Option (List MonitorLine)} {w woken : Upsmon} (wakes : w.wakeUp conf clock lines = some woken)
    (clean : ∀ ups ∈ w.upsList, Stays lines ups -> Unlatched conf lines ups) : (WakeLog.woken woken).Awake conf clock := by
  unfold Upsmon.wakeUp at wakes
  obtain ⟨upses, reloaded, rfl⟩ := Option.map_eq_some_iff.mp wakes
  intro i ups place
  obtain ⟨⟨unflagged, stays, origin⟩, -⟩ := reloadConf_upses reloaded (List.mem_of_getElem? place)
  have latched : ups.offstate ≠ 1 ∧ ups.bypassstate ≠ 1 ∧ (ups.alarmstate = 1 -> conf.alarmcritical ≠ 1) ∧
      (ups.overstate = 1 -> conf.overdurationtime < 0) ∧ (0 < ups.oblbsince -> conf.oblbdurationtime ≤ 0) := by
    unfold latches unlatched at origin
    rcases origin with ⟨before, member, same, sys⟩ | fresh
    · have was := clean before member (stays_same sys stays)
      simp only [Prod.mk.injEq] at same
      obtain ⟨offstate, bypassstate, alarmstate, overstate, -, oblbsince, -⟩ := same
      rw [offstate, bypassstate, alarmstate, overstate, oblbsince]
      exact ⟨was.off, was.bypass, was.alarm, was.overs, was.oblb⟩
    · simp only [Prod.mk.injEq] at fresh
      obtain ⟨offstate, bypassstate, alarmstate, overstate, -, oblbsince, -⟩ := fresh
      rw [offstate, bypassstate, alarmstate, overstate, oblbsince]
      refine ⟨by decide, by decide, fun set => ?_, fun set => ?_, fun set => ?_⟩ <;> omega
  obtain ⟨offstate, bypassstate, alarmstate, overstate, oblbsince⟩ := latched
  have off : ups.status .off = false := unflagged .off (by decide)
  have overload : ups.status .overload = false := unflagged .overload (by decide)
  constructor
  case timed =>
    refine ⟨⟨⟨le_refl _, le_refl _⟩, le_refl _⟩, fun set => ?_, fun set => absurd set offstate, fun set => ?_,
      fun set => .inl (overstate set), rfl⟩
    · rw [isset, off] at set
      cases set
    · rw [isset, overload] at set
      cases set
  case off => exact off.symm
  case overs => exact overload.symm
  case started => exact fun _ none_ => by cases none_
  case oblb => exact fun running lasts => absurd (oblbsince running) (by omega)
  case unread =>
    refine fun _ => ⟨fun flag other => unflagged flag fun same => other ?_, bypassstate, alarmstate⟩
    rw [same]
    decide

-- Behind a wake-up only what has been seen since makes a UPS critical, and the roles are kept, in each run in which no timer
-- of OB with LB is left behind, if the UPSes that stay were clean before.
theorem wake_forgets {lines : Option (List MonitorLine)} {w woken : Upsmon} {events : List UpsmonEvent}
    (positive : ∀ n, 0 < clock n) (wakes : w.wakeUp conf clock lines = some woken)
    (clean : ∀ ups ∈ w.upsList, Stays lines ups -> Unlatched conf lines ups)
    (returns : Always (WakeLog.step conf clock) (EachAction (WakeLog.Returns conf clock)) (.woken woken) events) :
    RolesKept lines w woken ∧
      Always (WakeLog.step conf clock) (EachAction (WakeLog.Forgets conf clock)) (.woken woken) events := by
  constructor
  · intro ups member before was sys
    unfold Upsmon.wakeUp at wakes
    obtain ⟨upses, reloaded, rfl⟩ := Option.map_eq_some_iff.mp wakes
    obtain ⟨⟨-, stays, -⟩, role⟩ := reloadConf_upses reloaded member
    rw [role]
    cases given : lines.bind fun lines => roleRead lines ups.sys with
    | some role => rfl
    | none =>
      refine (Bool.eq_false_iff.mpr fun primary => ?_).symm
      have known := (clean before was (stays_same sys.symm stays)).role primary
      rw [sys, given] at known
      cases known
  · have run (log : WakeLog) (awake : log.Awake conf clock) (events : List UpsmonEvent)
        (returns : Always (WakeLog.step conf clock) (EachAction (WakeLog.Returns conf clock)) log events) :
        Always (WakeLog.step conf clock) (EachAction (WakeLog.Forgets conf clock)) log events := by
      induction events generalizing log with
      | nil => exact trivial
      | cons event rest ih =>
        exact ⟨awake_forgets positive event awake, ih _ (awake_step event awake returns.1) returns.2⟩
    exact run _ (awake_woken wakes clean) events returns

def MonitorLine.sample : MonitorLine :=
  { sys := cstr "ups@host", pvs := cstr "1", un := cstr "upsmon", pw := cstr "pass", managerialOption := cstr "primary" }

def UpsmonConf.delayed : UpsmonConf :=
  { UpsmonConf.defaults with oblbdurationtime := 60 }

def Upsmon.rested : Upsmon :=
  (Upsmon.single.wakeUp .delayed (fun n => 1000 + 10 * n) (some [.sample])).get (by decide)

-- The system wakes up when its UPS has a low battery, and stays up for a minute.
theorem wake_forgets_lowbatt : RolesKept (some [.sample]) .single .rested ∧
      Always (WakeLog.step .delayed fun n => 1000 + 10 * n) (EachAction (WakeLog.Forgets .delayed fun n => 1000 + 10 * n))
        (.woken .rested) [.poll 0 (.plain (cstr "OB LB")), .recalc, .poll 0 (.plain (cstr "OB LB")), .recalc] := by
  refine wake_forgets (fun n => by omega) (Option.some_get _).symm (fun ups member stays => ?_) (by decide +kernel)
  cases List.mem_singleton.mp member
  exact ⟨by decide, by decide, fun set => absurd set (by decide), fun set => absurd set (by decide),
    fun set => absurd set (by decide), fun _ => by decide⟩

def Upsmon.bypassed : Upsmon :=
  { UpsmonShared.start with
    upsList := [{ Utype.added (cstr "ups@host") 1 (cstr "upsmon") (cstr "pass") true with
      bypassstate := 1, commstate := 1, status := fun flag => flag = .primary || flag = .online || flag = .bypass }] }

def UpsPoll.PollAnswer.unreachable : PollAnswer :=
  { connect := .failed, status := none, buzzword := none, buzzwordX := none, alarm := fun _ => none, disconnected := false }

def Upsmon.bypassedAwake : Upsmon :=
  (Upsmon.bypassed.wakeUp .defaults (fun _ => 1000) (some [.sample])).get (by decide)

-- After the wake-up it is critical for that before anything has been read of it.
theorem bypass_remembered : Upsmon.bypassed.wakeUp .defaults (fun _ => 1000) (some [.sample]) = some .bypassedAwake ∧
      ¬ Always (WakeLog.step .defaults fun _ => 1000) (EachAction (WakeLog.Forgets .defaults fun _ => 1000))
        (.woken .bypassedAwake) [.poll 0 .unreachable, .recalc] := by
  refine ⟨(Option.some_get _).symm, fun forgets => ?_⟩
  have critical : ((((WakeLog.woken .bypassedAwake).step .defaults (fun _ => 1000) (.poll 0 .unreachable)).found .defaults
      fun _ => 1000)[0]?.any fun p => (p.isUpsCritical .defaults fun _ => 1000).2) = true := by decide +kernel
  obtain ⟨p, found, critical⟩ := (Option.any_eq_true _ _).mp critical
  have heard := (forgets.2.1 0 p found).read critical
  revert heard
  decide +kernel

end Runs

end Nut
