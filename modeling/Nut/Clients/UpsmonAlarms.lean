import Nut.Clients.UpsmonFlags
import Nut.Common.Str

set_option autoImplicit false

namespace Nut

open UpsPoll

inductive UpsmonEvent where
  | poll (i : Nat) (answer : PollAnswer)
  | recalc

namespace Upsmon

variable (conf : UpsmonConf) (clock : Nat -> Int)

def poll (w : Upsmon) (i : Nat) (answer : PollAnswer) : Upsmon :=
  match w.upsList[i]? with
  | none => w
  | some ups =>
    let p := UpsPoll.pollups conf clock answer { w.toUpsmonShared with ups }
    { p.toUpsmonShared with upsList := w.upsList.set i p.ups }

def recalcUpses (now : Int) : List Utype -> UpsmonShared -> List Utype × UpsmonShared
  | [], shared => ([], shared)
  | ups :: rest, shared =>
    let judged := (UpsPoll.promoteDead conf now { shared with ups }).isUpsCritical conf clock
    let later := recalcUpses now rest judged.1.toUpsmonShared
    (judged.1.ups :: later.1, later.2)

def recalc (w : Upsmon) : Upsmon :=
  let later := recalcUpses conf clock (clock w.ticks) w.upsList { w.toUpsmonShared with ticks := w.ticks + 1 }
  { later.2 with upsList := later.1 }

def step (w : Upsmon) : UpsmonEvent -> Upsmon
  | .poll i answer => w.poll conf clock i answer
  | .recalc => w.recalc conf clock

end Upsmon

def alarmTexts (notices : List Notice) : List (Option CString) :=
  (notices.filter fun notice => notice.type = .alarm).map Notice.extra

section Untouched

variable {conf : UpsmonConf} {clock : Nat -> Int} {p q r : UpsPoll}

structure AlarmKept (p q : UpsPoll) : Prop where
  flag : q.ups.status .alarm = p.ups.status .alarm
  prev : q.alarmsPrev = p.alarmsPrev
  texts : alarmTexts q.notices = alarmTexts p.notices

theorem alarmKept_refl (p : UpsPoll) : AlarmKept p p := ⟨rfl, rfl, rfl⟩

theorem alarmKept_trans (first : AlarmKept p q) (second : AlarmKept q r) : AlarmKept p r :=
  ⟨second.flag.trans first.flag, second.prev.trans first.prev, second.texts.trans first.texts⟩

theorem alarmTexts_doNotify (p : UpsPoll) (type : NotifyType) (extra : Option CString) :
    alarmTexts (p.doNotify type extra).notices = alarmTexts p.notices ++ if type = .alarm then [extra] else [] := by
  unfold alarmTexts doNotify
  rw [List.filter_append, List.map_append]
  congr 1
  by_cases alarm : type = .alarm <;> simp [alarm]

theorem alarmKept_doNotify {type : NotifyType} (other : type ≠ .alarm) (extra : Option CString) :
    AlarmKept p (p.doNotify type extra) := ⟨rfl, rfl, by rw [alarmTexts_doNotify, if_neg other, List.append_nil]⟩

theorem alarmKept_quiet (status : q.ups.status .alarm = p.ups.status .alarm) (prev : q.alarmsPrev = p.alarmsPrev)
    (notices : q.notices = p.notices) : AlarmKept p q := ⟨status, prev, by rw [notices]⟩

theorem alarmKept_setflag {flag : StFlag} (other : flag ≠ .alarm) : AlarmKept p (p.setflag flag) :=
  alarmKept_quiet (by rw [setflag_status, Function.update_of_ne other.symm]) rfl rfl

theorem alarmKept_clearflag {flag : StFlag} (other : flag ≠ .alarm) : AlarmKept p (p.clearflag flag) :=
  alarmKept_quiet (by rw [clearflag_status, Function.update_of_ne other.symm]) rfl rfl

theorem alarmKept_restore : AlarmKept p (p.tryRestorePollfreq conf) := by
  unfold tryRestorePollfreq
  split <;> exact alarmKept_quiet rfl rfl rfl

theorem alarmKept_enterState {flag : StFlag} {type : NotifyType} {extra : Option CString} {before : UpsPoll -> UpsPoll}
    (other : flag ≠ .alarm) (quiet : type ≠ .alarm) (kept : AlarmKept p (before p)) :
    AlarmKept p (p.enterState flag type extra before) := by
  unfold enterState
  split
  · exact alarmKept_refl p
  · exact alarmKept_trans (alarmKept_trans kept (alarmKept_doNotify quiet extra)) (alarmKept_setflag other)

theorem alarmKept_leaveState {flag : StFlag} {type : NotifyType} (other : flag ≠ .alarm) (quiet : type ≠ .alarm) :
    AlarmKept p (p.leaveState conf flag type) := by
  unfold leaveState
  split
  · exact alarmKept_trans (alarmKept_trans (alarmKept_doNotify quiet none) (alarmKept_clearflag other)) alarmKept_restore
  · exact alarmKept_refl p

theorem alarmKept_upsIsAlive : AlarmKept p (p.upsIsAlive clock) := by
  have polled : AlarmKept p { p.tick with ups.lastpoll := clock p.ticks } := alarmKept_quiet rfl rfl rfl
  unfold upsIsAlive
  dsimp only
  split_ifs
  · exact polled
  · have said := alarmKept_trans polled (@alarmKept_doNotify { p.tick with ups.lastpoll := clock p.ticks } .commok (by decide) none)
    exact alarmKept_trans said (alarmKept_quiet rfl rfl rfl)
  · exact alarmKept_trans polled (alarmKept_quiet rfl rfl rfl)

theorem alarmKept_updateCrittimer : AlarmKept p (p.updateCrittimer clock) := by
  unfold updateCrittimer
  split <;> exact alarmKept_quiet rfl rfl rfl

theorem alarmKept_upsOnLine : AlarmKept p (p.upsOnLine conf) := by
  have online (q : UpsPoll) (kept : AlarmKept p q) :
      AlarmKept p ((setflag .online { q with ups.linestate := 1 }).clearflag .onbatt) := by
    have noted : AlarmKept p { q with ups.linestate := 1 } := alarmKept_trans kept (alarmKept_quiet rfl rfl rfl)
    exact alarmKept_trans (alarmKept_trans noted (alarmKept_setflag (by decide))) (alarmKept_clearflag (by decide))
  unfold upsOnLine
  dsimp only
  split_ifs
  · exact alarmKept_restore
  · exact online _ (alarmKept_trans alarmKept_restore (alarmKept_doNotify (by decide) none))
  · exact online _ alarmKept_restore

theorem alarmKept_upsOnBatt : AlarmKept p (p.upsOnBatt conf) := by
  unfold upsOnBatt
  split
  · exact alarmKept_refl p
  · have batt : AlarmKept p (p.enterState .onbatt .onbatt none fun p => { p.alert conf with ups.linestate := 0 }) :=
      alarmKept_enterState (by decide) (by decide) (alarmKept_quiet rfl rfl rfl)
    exact alarmKept_trans batt (alarmKept_clearflag (by decide))

theorem alarmKept_upsreplbatt : AlarmKept p (p.upsreplbatt conf clock) := by
  have ticked : AlarmKept p p.tick := alarmKept_quiet rfl rfl rfl
  unfold upsreplbatt
  dsimp only
  split_ifs
  · have said := alarmKept_trans ticked (@alarmKept_doNotify p.tick .replbatt (by decide) none)
    exact alarmKept_trans said (alarmKept_quiet rfl rfl rfl)
  · exact ticked

theorem alarmKept_upsIsOff : AlarmKept p (p.upsIsOff conf clock) := by
  have ticked : AlarmKept p p.tick := alarmKept_quiet rfl rfl rfl
  unfold upsIsOff
  dsimp only
  split_ifs
  · exact alarmKept_quiet rfl rfl rfl
  · exact alarmKept_quiet rfl rfl rfl
  · exact ticked
  · exact alarmKept_trans ticked (alarmKept_enterState (by decide) (by decide) (alarmKept_quiet rfl rfl rfl))
  · exact alarmKept_trans ticked (alarmKept_enterState (by decide) (by decide) (alarmKept_quiet rfl rfl rfl))

theorem alarmKept_upsIsOver : AlarmKept p (p.upsIsOver conf clock) := by
  have ticked : AlarmKept p p.tick := alarmKept_quiet rfl rfl rfl
  unfold upsIsOver
  dsimp only
  split_ifs
  · exact alarmKept_quiet rfl rfl rfl
  · exact ticked
  · exact alarmKept_trans ticked (alarmKept_enterState (by decide) (by decide) (alarmKept_quiet rfl rfl rfl))
  · exact alarmKept_trans ticked (alarmKept_enterState (by decide) (by decide) (alarmKept_quiet rfl rfl rfl))

theorem alarmKept_upsFsd : AlarmKept p (p.upsFsd clock) := by
  have asked : AlarmKept p { p.tick with ups.lastfsdnotify := clock p.ticks } := alarmKept_quiet rfl rfl rfl
  unfold upsFsd
  dsimp only
  split_ifs
  · exact alarmKept_refl p
  · have said := alarmKept_trans asked (@alarmKept_doNotify { p.tick with ups.lastfsdnotify := clock p.ticks } .fsd (by decide) none)
    exact alarmKept_trans said (alarmKept_setflag (by decide))
  · exact alarmKept_setflag (by decide)

end Untouched

section Words

variable {d : UInt8} {word s : CString}

theorem infix_intercalate {words : List CString} (member : word ∈ words) : word <:+: [d].intercalate words := by
  induction words with
  | nil => cases member
  | cons first rest ih =>
    cases rest with
    | nil =>
      rw [List.mem_singleton.mp member]
      simp [List.intercalate]
    | cons next more =>
      have split : [d].intercalate (first :: next :: more) = first ++ d :: [d].intercalate (next :: more) := by
        simp [List.intercalate]
      rw [split]
      rcases List.mem_cons.mp member with rfl | later
      · exact (List.prefix_append _ _).isInfix
      · exact (ih later).trans ((List.suffix_cons _ _).trans (List.suffix_append _ _)).isInfix

theorem splitOn_infix (member : word ∈ s.splitOn d) : word <:+: s := by
  have whole : [d].intercalate (s.splitOn d) = s := List.intercalate_splitOn d
  have inside : word <:+: [d].intercalate (s.splitOn d) := infix_intercalate member
  rwa [whole] at inside

end Words

section Polls

variable {conf : UpsmonConf} {clock : Nat -> Int} {p : UpsPoll} {v : CString}

theorem alarmKept_leaveStates {status : CString} (named : strstr status (cstr "ALARM") = true) :
    AlarmKept p (p.leaveStates conf status) := by
  have quiet {q r : UpsPoll} (kept : AlarmKept p q) (status : r.ups.status = q.ups.status) (prev : r.alarmsPrev = q.alarmsPrev)
      (notices : r.notices = q.notices) : AlarmKept p r :=
    alarmKept_trans kept (alarmKept_quiet (by rw [status]) prev notices)
  have left {q : UpsPoll} {flag : StFlag} {type : NotifyType} (other : flag ≠ .alarm) (silent : type ≠ .alarm)
      (kept : AlarmKept p q) : AlarmKept p (q.leaveState conf flag type) :=
    alarmKept_trans kept (alarmKept_leaveState other silent)
  apply leaveStates_cases conf (alarmKept_refl p)
  case lowbatt => exact fun _ q kept => alarmKept_trans kept (alarmKept_clearflag (by decide))
  case fsd =>
    intro _ q kept
    have cleared : AlarmKept p (q.clearflag .fsd) := alarmKept_trans kept (alarmKept_clearflag (by decide))
    exact quiet cleared rfl rfl rfl
  case cal => exact fun _ q kept => left (by decide) (by decide) kept
  case off =>
    intro _ q kept
    have before : AlarmKept p { q with ups.offsince := 0, ups.offstate := 0 } := quiet kept rfl rfl rfl
    exact left (by decide) (by decide) before
  case bypass =>
    intro _ q kept
    have before : AlarmKept p { q with ups.bypassstate := 0 } := quiet kept rfl rfl rfl
    exact left (by decide) (by decide) before
  case alarm =>
    intro missing
    rw [named] at missing
    cases missing
  case overload =>
    intro _ q kept
    have before : AlarmKept p { q with ups.oversince := 0, ups.overstate := 0 } := quiet kept rfl rfl rfl
    exact left (by decide) (by decide) before
  case trim => exact fun _ q kept => left (by decide) (by decide) kept
  case boost => exact fun _ q kept => left (by decide) (by decide) kept

theorem alarmKept_upsIsEco : AlarmKept p p.upsIsEco :=
  alarmKept_enterState (by decide) (by decide) (alarmKept_quiet rfl rfl rfl)

theorem alarmKept_ecoMode (report : Report) : AlarmKept p (p.ecoMode conf report) := by
  have left : AlarmKept p (p.upsIsNoteco conf) := by
    have before : AlarmKept p { p with ups.ecostate := 0 } := alarmKept_quiet rfl rfl rfl
    exact alarmKept_trans before (alarmKept_leaveState (by decide) (by decide))
  unfold ecoMode
  dsimp only
  split_ifs
  · exact left
  · exact alarmKept_upsIsEco
  · exact alarmKept_refl p

theorem alarmKept_parseStatword (alarms : Option CString) {statword : CString} (other : isStatword statword "ALARM" = false) :
    AlarmKept p (p.parseStatword conf clock alarms statword) := by
  have entered {flag : StFlag} {type : NotifyType} (apart : flag ≠ .alarm) (quiet : type ≠ .alarm) :
      AlarmKept p (p.enterState flag type none id) := alarmKept_enterState apart quiet (alarmKept_refl p)
  apply parseStatword_cases conf clock (P := AlarmKept p)
  case online => exact fun _ => alarmKept_upsOnLine
  case onbatt => exact fun _ => alarmKept_upsOnBatt
  case lowbatt => exact fun _ => entered (by decide) (by decide)
  case replbatt => exact fun _ => alarmKept_upsreplbatt
  case cal => exact fun _ => entered (by decide) (by decide)
  case off => exact fun _ => alarmKept_upsIsOff
  case bypass => exact fun _ => alarmKept_enterState (by decide) (by decide) (alarmKept_quiet rfl rfl rfl)
  case eco => exact fun _ => alarmKept_upsIsEco
  case alarm =>
    intro is
    rw [other] at is
    cases is
  case overload => exact fun _ => alarmKept_upsIsOver
  case trim => exact fun _ => entered (by decide) (by decide)
  case boost => exact fun _ => entered (by decide) (by decide)
  case fsd => exact fun _ => alarmKept_upsFsd
  case other => exact fun _ => alarmKept_refl p

theorem parseStatword_isAlarm (alarms : Option CString) {statword : CString} (is : isStatword statword "ALARM" = true) :
    p.parseStatword conf clock alarms statword = p.upsIsAlarm conf alarms := by
  have other {word : String} (table : (foldCase (cstr "ALARM") == foldCase (cstr word)) = false) :
      isStatword statword word = false := (statword_same is word).trans table
  simp [parseStatword, is, @other "OL" (by decide), @other "OB" (by decide), @other "LB" (by decide),
    @other "RB" (by decide), @other "CAL" (by decide), @other "OFF" (by decide), @other "BYPASS" (by decide),
    @other "ECO" (by decide)]

def Settled (v : CString) (p : UpsPoll) : Prop :=
  p.isset .alarm = true ∧ p.alarmsPrev = v

instance (v : CString) (p : UpsPoll) : Decidable (Settled v p) :=
  inferInstanceAs (Decidable (_ ∧ _))

theorem settled_kept {q : UpsPoll} (kept : AlarmKept p q) : Settled v q ↔ Settled v p := by
  unfold Settled isset
  rw [kept.flag, kept.prev]

theorem upsIsAlarm_read (v : CString) : Settled v (p.upsIsAlarm conf (some v)) ∧
      alarmTexts (p.upsIsAlarm conf (some v)).notices =
        alarmTexts p.notices ++ if Settled v p then [] else [some v] := by
  by_cases known : p.isset .alarm = true
  · by_cases same : p.alarmsPrev = v
    · have settled : Settled v p := ⟨known, same⟩
      have unchanged : p.upsIsAlarm conf (some v) = p := by
        unfold upsIsAlarm
        rw [if_pos known]
        exact if_pos same
      rw [unchanged, if_pos settled, List.append_nil]
      exact ⟨settled, rfl⟩
    · have unsettled : ¬ Settled v p := fun settled => same settled.2
      have noted : p.upsIsAlarm conf (some v) = { p with alarmsPrev := v }.doNotify .alarm v := by
        unfold upsIsAlarm
        rw [if_pos known]
        exact if_neg same
      rw [noted, if_neg unsettled]
      exact ⟨⟨known, rfl⟩, alarmTexts_doNotify _ .alarm _⟩
  · have unsettled : ¬ Settled v p := fun settled => known settled.1
    have entered : p.upsIsAlarm conf (some v) =
        { (({ p.alert conf with ups.alarmstate := 1 } : UpsPoll).doNotify .alarm v).setflag .alarm with alarmsPrev := v } := by
      unfold upsIsAlarm enterState
      rw [if_neg known, if_neg known]
      rfl
    rw [entered, if_neg unsettled]
    have flag : ((({ p.alert conf with ups.alarmstate := 1 } : UpsPoll).doNotify .alarm v).setflag .alarm).isset .alarm = true := by
      simp [isset]
    exact ⟨⟨flag, rfl⟩, alarmTexts_doNotify _ .alarm _⟩

theorem parseStatwords_alarm {alarm : Nat -> Option CString} {i : Nat} {statwords : List CString}
    (read : ∀ k statword, statwords[k]? = some statword -> isStatword statword "ALARM" = true -> alarm (i + k) = some v) :
    alarmTexts (p.parseStatwords conf clock alarm i statwords).notices = alarmTexts p.notices ++
        if Settled v p ∨ (statwords.any fun statword => isStatword statword "ALARM") = false then [] else [some v] := by
  induction statwords generalizing i p with
  | nil => simp [parseStatwords]
  | cons statword rest ih =>
    have later (k : Nat) (next : CString) (place : rest[k]? = some next) (is : isStatword next "ALARM" = true) :
        alarm (i + 1 + k) = some v := by
      rw [Nat.add_assoc, Nat.add_comm 1 k]
      exact read (k + 1) next place is
    have timed (q : UpsPoll) : AlarmKept q (q.updateCrittimer clock) := alarmKept_updateCrittimer
    rw [parseStatwords, ih later, (timed _).texts, List.any_cons]
    simp only [settled_kept (timed _)]
    cases is : isStatword statword "ALARM" with
    | true =>
      obtain ⟨settled, texts⟩ := @upsIsAlarm_read conf p v
      have value : alarm i = some v := read 0 statword rfl is
      rw [parseStatword_isAlarm _ is, value, texts, if_pos (Or.inl settled), List.append_nil]
      simp
    | false =>
      have kept := @alarmKept_parseStatword conf clock p (alarm i) statword is
      rw [kept.texts]
      simp only [settled_kept kept, Bool.false_or]

structure ReadsAlarm (ups : Utype) (answer : PollAnswer) (v : CString) : Prop where
  connected : ups.status .cliconnected = true ∨ answer.connect = .accepted
  status : cstr "ALARM" ∈ answer.report.status.splitOn 32
  value : ∀ i statword, (answer.report.status.splitOn 32)[i]? = some statword -> isStatword statword "ALARM" = true ->
    answer.report.alarm i = some v

theorem parseStatus_alarm {report : Report} (named : cstr "ALARM" ∈ report.status.splitOn 32)
    (read : ∀ i statword, (report.status.splitOn 32)[i]? = some statword -> isStatword statword "ALARM" = true ->
      report.alarm i = some v) : alarmTexts (p.parseStatus conf clock report).notices =
      alarmTexts p.notices ++ if Settled v p then [] else [some v] := by
  have nonempty : report.status ≠ [] := by
    intro empty
    rw [empty] at named
    revert named
    decide
  have inText : strstr report.status (cstr "ALARM") = true := by
    obtain ⟨front, back, split⟩ := splitOn_infix named
    refine strstr_true.mpr ⟨front.length, ?_⟩
    rw [<- split, List.append_assoc, List.drop_left]
    exact List.prefix_append _ _
  have words : ((report.status.splitOn 32).any fun statword => isStatword statword "ALARM") = true :=
    List.any_eq_true.mpr ⟨_, named, by decide⟩
  have before : AlarmKept p (((p.upsIsAlive clock).leaveStates conf report.status).ecoMode conf report) :=
    alarmKept_trans (alarmKept_trans alarmKept_upsIsAlive (alarmKept_leaveStates inText)) (alarmKept_ecoMode report)
  have all := fun k statword place is => Nat.zero_add k ▸ read k statword place is
  rw [parseStatus, if_neg nonempty, parseStatwords_alarm all, words, before.texts]
  simp [settled_kept before]

theorem pollups_alarm {answer : PollAnswer} (reads : ReadsAlarm p.ups answer v) :
    alarmTexts (p.pollups conf clock answer).notices =
      alarmTexts p.notices ++ if Settled v p then [] else [some v] := by
  have answered : answer.status.isSome = true := by
    cases given : answer.status with
    | some _ => rfl
    | none =>
      have named := reads.status
      have missing : cstr "ALARM" ∉ (snprintf smallbuf ([] : CString)).splitOn 32 := by decide
      unfold PollAnswer.report at named
      rw [given] at named
      exact absurd named missing
  have connected : (if p.isset .cliconnected then (p, true) else p.tryConnect conf clock answer.connect).2 = true ∧
      AlarmKept p (if p.isset .cliconnected then (p, true) else p.tryConnect conf clock answer.connect).1 := by
    by_cases there : p.isset .cliconnected = true
    · rw [if_pos there]
      exact ⟨rfl, alarmKept_refl p⟩
    · have accepted : answer.connect = .accepted := reads.connected.resolve_left there
      rw [if_neg there, accepted]
      have cleared : AlarmKept p (p.clearflag .cliconnected) := alarmKept_clearflag (by decide)
      have connected : AlarmKept p ((p.clearflag .cliconnected).setflag .cliconnected) :=
        alarmKept_trans cleared (alarmKept_setflag (by decide))
      exact ⟨rfl, alarmKept_trans connected (alarmKept_setflag (by decide))⟩
  unfold pollups
  dsimp only
  rw [if_neg (by rw [connected.1]; decide), answered]
  simp only [Bool.true_or, if_true]
  rw [parseStatus_alarm reads.status reads.value, connected.2.texts]
  simp only [settled_kept connected.2]

end Polls

section Passes

variable {conf : UpsmonConf} {clock : Nat -> Int} {answers : Nat -> PollAnswer}

theorem recalcAll_recalcUpses (now : Int) (polled : List Polled) (shared : UpsmonShared) :
    (Upsmon.recalcAll conf clock now polled shared).1.map Turn.ups =
        (Upsmon.recalcUpses conf clock now (polled.map Polled.ups) shared).1 ∧
      (Upsmon.recalcAll conf clock now polled shared).2 =
        (Upsmon.recalcUpses conf clock now (polled.map Polled.ups) shared).2 := by
  induction polled generalizing shared with
  | nil => exact ⟨rfl, rfl⟩
  | cons first rest ih =>
    obtain ⟨upses, later⟩ := ih ((UpsPoll.promoteDead conf now { shared with ups := first.ups }).isUpsCritical conf clock).1.toUpsmonShared
    exact ⟨congrArg (_ :: ·) upses, later⟩

theorem pollAll_polls (upto rest : List Utype) (shared : UpsmonShared) :
    ((List.range' upto.length rest.length).map fun i => UpsmonEvent.poll i (answers i)).foldl (Upsmon.step conf clock)
        { shared with upsList := upto ++ rest } =
      { (Upsmon.pollAll conf clock answers upto.length rest shared).2 with
        upsList := upto ++ (Upsmon.pollAll conf clock answers upto.length rest shared).1.map Polled.ups } := by
  induction rest generalizing upto shared with
  | nil => rfl
  | cons ups rest ih =>
    have first : Upsmon.step conf clock { shared with upsList := upto ++ ups :: rest } (.poll upto.length (answers upto.length)) =
        { (UpsPoll.pollups conf clock (answers upto.length) { shared with ups }).toUpsmonShared with
          upsList := (upto ++ [(UpsPoll.pollups conf clock (answers upto.length) { shared with ups }).ups]) ++ rest } := by
      simp [Upsmon.step, Upsmon.poll]
    have next := ih (upto ++ [(UpsPoll.pollups conf clock (answers upto.length) { shared with ups }).ups])
      (UpsPoll.pollups conf clock (answers upto.length) { shared with ups }).toUpsmonShared
    rw [List.length_append, List.length_singleton] at next
    rw [List.length_cons, List.range'_succ, List.map_cons, List.foldl_cons, first, next]
    simp [Upsmon.pollAll]

theorem pass_events (w : Upsmon) : (Upsmon.pass conf clock answers w).1 =
      (((List.range w.upsList.length).map fun i => UpsmonEvent.poll i (answers i)) ++ [UpsmonEvent.recalc]).foldl
        (Upsmon.step conf clock) w := by
  have polls := @pollAll_polls conf clock answers [] w.upsList w.toUpsmonShared
  rw [List.length_nil, <- List.range_eq_range'] at polls
  have start : ({ w.toUpsmonShared with upsList := [] ++ w.upsList } : Upsmon) = w := rfl
  rw [start] at polls
  rw [List.foldl_append, polls]
  obtain ⟨upses, later⟩ := @recalcAll_recalcUpses conf clock
    (clock (Upsmon.pollAll conf clock answers 0 w.upsList w.toUpsmonShared).2.ticks)
    (Upsmon.pollAll conf clock answers 0 w.upsList w.toUpsmonShared).1
    { (Upsmon.pollAll conf clock answers 0 w.upsList w.toUpsmonShared).2 with
      ticks := (Upsmon.pollAll conf clock answers 0 w.upsList w.toUpsmonShared).2.ticks + 1 }
  simp only [Upsmon.pass, List.foldl_cons, List.foldl_nil, Upsmon.step, Upsmon.recalc, upses, later]
  rfl

end Passes

structure AlarmLog extends Upsmon where
  reported : Nat -> Option CString

-- What a step has announced of alarms.
def announcedTexts (before after : UpsmonShared) : List (Option CString) :=
  (alarmTexts after.notices).drop (alarmTexts before.notices).length

namespace AlarmLog

variable (conf : UpsmonConf) (clock : Nat -> Int)

def reportedBy (log : AlarmLog) : UpsmonEvent -> Nat -> Option CString
  | .poll i answer =>
    Function.update log.reported i
      ((announcedTexts log.toUpsmonShared (log.toUpsmon.poll conf clock i answer).toUpsmonShared).getLast?.getD (log.reported i))
  | .recalc => log.reported

def step (log : AlarmLog) (event : UpsmonEvent) : AlarmLog :=
  { log.toUpsmon.step conf clock event with reported := log.reportedBy conf clock event }

def Announces (log : AlarmLog) : UpsmonEvent -> Prop
  | .poll i answer => ∀ ups v, log.upsList[i]? = some ups -> ReadsAlarm ups answer v ->
      (announcedTexts log.toUpsmonShared (log.toUpsmon.poll conf clock i answer).toUpsmonShared ≠ [] ↔
        ups.status .alarm = false ∨ log.reported i ≠ some v)
  | .recalc => True

def Remembers (log : AlarmLog) : UpsmonEvent -> Prop
  | .poll i answer => ∀ ups v, log.upsList[i]? = some ups -> ReadsAlarm ups answer v ->
      ups.status .alarm = false ∨ log.reported i = some log.alarmsPrev ∨ v ≠ log.alarmsPrev ∧ log.reported i ≠ some v
  | .recalc => True

end AlarmLog

section Logs

variable {conf : UpsmonConf} {clock : Nat -> Int}

theorem announces_iff (log : AlarmLog) (event : UpsmonEvent) : log.Announces conf clock event ↔ log.Remembers event := by
  cases event with
  | recalc => exact Iff.rfl
  | poll i answer =>
    refine forall_congr' fun ups => forall_congr' fun v => forall_congr' fun place => forall_congr' fun reads => ?_
    have polled : (log.toUpsmon.poll conf clock i answer).toUpsmonShared =
        (pollups conf clock answer { log.toUpsmonShared with ups }).toUpsmonShared := by
      unfold Upsmon.poll
      rw [place]
    have texts := @pollups_alarm conf clock { log.toUpsmonShared with ups } v answer reads
    have said : announcedTexts log.toUpsmonShared (log.toUpsmon.poll conf clock i answer).toUpsmonShared ≠ [] ↔
        ¬ (ups.status .alarm = true ∧ log.alarmsPrev = v) := by
      unfold announcedTexts
      rw [polled, texts, List.drop_left]
      change (if Settled v { log.toUpsmonShared with ups } then [] else [some v]) ≠ [] ↔ ¬ Settled v { log.toUpsmonShared with ups }
      by_cases settled : Settled v { log.toUpsmonShared with ups } <;> simp [settled]
    rw [said]
    cases ups.status .alarm with
    | false => simp
    | true =>
      by_cases noted : log.alarmsPrev = v
      · by_cases told : log.reported i = some v <;> simp [noted, told]
      · by_cases told : log.reported i = some v
        · simp [noted, told, Ne.symm noted]
        · simp [noted, told, Ne.symm noted]

-- The alarms follow the texts all along a run exactly as long as the text remembered is the UPS's own.
theorem alarms_follow_texts (conf : UpsmonConf) (clock : Nat -> Int) (log : AlarmLog) (events : List UpsmonEvent) :
    Always (AlarmLog.step conf clock) (EachAction (AlarmLog.Announces conf clock)) log events ↔
      Always (AlarmLog.step conf clock) (EachAction AlarmLog.Remembers) log events := by
  have each (log : AlarmLog) (events : List UpsmonEvent) :
      EachAction (AlarmLog.Announces conf clock) log events ↔ EachAction AlarmLog.Remembers log events := by
    cases events with
    | nil => exact Iff.rfl
    | cons event rest => exact announces_iff log event
  exact ⟨always_mono fun log events => (each log events).mp, always_mono fun log events => (each log events).mpr⟩

def UpsPoll.PollAnswer.alarmed (text : CString) : PollAnswer :=
  { connect := .accepted, status := some (cstr "ALARM OL"), buzzword := none, buzzwordX := none, alarm := fun _ => some text
    disconnected := false }

theorem alarmed_reads (ups : Utype) {text : CString} (short : text.length < smallbuf) :
    ReadsAlarm ups (.alarmed text) text := by
  have named : cstr "ALARM" ∈ (snprintf smallbuf (cstr "ALARM OL")).splitOn 32 := by decide
  exact ⟨.inr rfl, named, fun _ _ _ _ => congrArg some (snprintf_fits short)⟩

def AlarmLog.sample : AlarmLog :=
  { UpsmonShared.start with
    upsList := [Utype.added (cstr "a@host") 1 [] [] true, Utype.added (cstr "b@host") 1 [] [] true]
    reported := fun _ => none }

def sampleAlarms : List UpsmonEvent :=
  [.poll 0 (.alarmed (cstr "Replace battery!")), .poll 1 (.alarmed (cstr "Fan failure!")),
    .poll 0 (.alarmed (cstr "Replace battery!"))]

-- The first one is announced again.
theorem other_alarm_forgotten : ¬ Always (AlarmLog.step .defaults fun _ => 1000)
      (EachAction (AlarmLog.Announces .defaults fun _ => 1000)) AlarmLog.sample sampleAlarms := by
  intro follows
  have last : AlarmLog.Announces .defaults (fun _ => 1000)
      ((sampleAlarms.take 2).foldl (AlarmLog.step .defaults fun _ => 1000) AlarmLog.sample)
      (.poll 0 (.alarmed (cstr "Replace battery!"))) := follows.2.2.1
  have reported : ((sampleAlarms.take 2).foldl (AlarmLog.step .defaults fun _ => 1000) AlarmLog.sample).reported 0 =
      some (cstr "Replace battery!") := by decide +kernel
  have prev : ((sampleAlarms.take 2).foldl (AlarmLog.step .defaults fun _ => 1000) AlarmLog.sample).alarmsPrev =
      cstr "Fan failure!" := by decide +kernel
  have known : (((sampleAlarms.take 2).foldl (AlarmLog.step .defaults fun _ => 1000) AlarmLog.sample).upsList[0]?.any
      fun ups => ups.status .alarm) = true := by decide +kernel
  obtain ⟨ups, there, flag⟩ := (Option.any_eq_true _ _).mp known
  have remembers := (announces_iff _ _).mp last ups _ there (alarmed_reads ups (by decide))
  rw [flag, reported, prev] at remembers
  revert remembers
  decide

end Logs

end Nut
