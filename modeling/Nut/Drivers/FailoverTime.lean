import Nut.Drivers.FailoverSteps
import Nut.Library.Runs

set_option autoImplicit false

namespace Nut

inductive FailoverEvent where
  | update (round : Round)
  | instcmd (cmdname : CString) (extra : Option CString) (now : Int)

namespace Failover

def step (w : Failover) : FailoverEvent -> Failover
  | .update round => w.upsdrvUpdateinfo round
  | .instcmd cmdname extra now => (w.instcmd cmdname extra now).1

def goesCritical (w : Failover) (round : Round) : Bool :=
  match (w.elect round).1.exportDriverState.handleInitTime (w.elect round).2 round.times with
  | (_, true) => false
  | (w', false) =>
    (w.elect round).2.isNone && ((w'.startOutage round.times.gone).dropPrimary).outageElapsed round.times.now

def CriticalAfterAbsence (w : Failover) (events : List FailoverEvent) : Prop :=
  ∀ before round after, events = before ++ .update round :: after ->
    (before.foldl step w).goesCritical round = true ->
      ((before.foldl step w).elect round).2 = none ∧
        ∀ first earlier later, before = first ++ .update earlier :: later ->
          round.times.now - w.args.noprimaryTimeout ≤ earlier.times.now ->
            ((first.foldl step w).elect earlier).2 = none

-- No candidate is found while an outage is timed that was not declared yet.
def Timed (w : Failover) : FailoverEvent -> Prop
  | .update round => (w.elect round).2 ≠ none -> w.primariesGoneTime = 0 ∨ w.primariesGone = true
  | .instcmd _ _ _ => True

instance Timed.decidable (w : Failover) : (event : FailoverEvent) -> Decidable (w.Timed event)
  | .update round =>
    inferInstanceAs (Decidable ((w.elect round).2 ≠ none -> w.primariesGoneTime = 0 ∨ w.primariesGone = true))
  | .instcmd _ _ _ => inferInstanceAs (Decidable True)

-- What the connections and the published data have no part in.
def timers (w : Failover) : FailoverArgs × Bool × Bool × Int × Int :=
  (w.args, w.initTimeElapsed, w.primariesGone, w.drvStartupTime, w.primariesGoneTime)

end Failover

def FailoverEvent.readings : FailoverEvent -> List Int
  | update round => [round.times.init, round.times.gone, round.times.now]
  | instcmd _ _ now => [now]

section Timers

open Failover

variable (w : Failover) (i : Nat)

theorem publishing_timers : Publishing (fun _ => True) fun v => v.timers = w.timers where
  plain _ _ := trivial
  relayed _ _ _ _ _ _ _ := trivial
  call _ _ _ same := same
  rest _ _ _ _ _ _ _ _ same _ := same

theorem timers_elect (round : Round) : (w.elect round).1.timers = w.timers := publishing_elect (publishing_timers w) round rfl

theorem timers_exportDriverState : w.exportDriverState.timers = w.timers :=
  publishing_exportDriverState (publishing_timers w) rfl

theorem timers_upsCleanDstate : (w.upsCleanDstate i).timers = w.timers := publishing_upsCleanDstate (publishing_timers w) rfl

theorem timers_failPrimaries (elapsed : Int) : (w.failPrimaries elapsed).timers = w.timers :=
  publishing_failPrimaries (publishing_timers w) elapsed rfl

theorem timers_dropPrimary : w.dropPrimary.timers = w.timers := publishing_dropPrimary (publishing_timers w) rfl

theorem timers_instcmd (cmdname : CString) (extra : Option CString) (now : Int) :
    (w.instcmd cmdname extra now).1.timers = w.timers := by
  unfold Failover.instcmd
  dsimp only
  split
  next => split <;> rfl
  next => split <;> rfl

end Timers

section Outage

open Failover

variable {w w' : Failover} {clock : FailoverClock} {round : Round}

theorem timers_args (same : w'.timers = w.timers) : w'.args = w.args := congrArg Prod.fst same

theorem timers_gone (same : w'.timers = w.timers) : w'.primariesGone = w.primariesGone :=
  congrArg (fun t => t.2.2.1) same

theorem timers_goneTime (same : w'.timers = w.timers) : w'.primariesGoneTime = w.primariesGoneTime :=
  congrArg (fun t => t.2.2.2.2) same

def Failover.outageStart (w : Failover) (clock : FailoverClock) : Int :=
  if w.primariesGoneTime = 0 then clock.gone else w.primariesGoneTime

theorem startOutage_goneTime (gone : Int) : (w.startOutage gone).args = w.args ∧
      (w.startOutage gone).primariesGoneTime = if w.primariesGoneTime = 0 then gone else w.primariesGoneTime := by
  unfold Failover.startOutage
  split <;> exact ⟨rfl, rfl⟩

theorem handleInitTime_keeps (candidate : Option Nat) : (w.handleInitTime candidate clock).1.args = w.args ∧
      (w.handleInitTime candidate clock).1.primariesGone = w.primariesGone ∧
      (w.handleInitTime candidate clock).1.primariesGoneTime = w.primariesGoneTime := by
  unfold Failover.handleInitTime
  split_ifs <;> exact ⟨rfl, rfl, rfl⟩

theorem afterElection_none : (w.afterElection none clock).args = w.args ∧
      ((w.afterElection none clock).primariesGoneTime = w.primariesGoneTime ∨
        (w.afterElection none clock).primariesGoneTime = w.outageStart clock) := by
  obtain ⟨args, _, time⟩ := @handleInitTime_keeps w.exportDriverState clock none
  have exported := timers_exportDriverState w
  rw [timers_args exported] at args
  rw [timers_goneTime exported] at time
  unfold Failover.afterElection
  split
  next w' waits =>
    rw [waits] at args time
    exact ⟨args, Or.inl time⟩
  next w' begun =>
    rw [begun] at args time
    have same : (w'.handleNoPrimaries clock).args = (w'.startOutage clock.gone).args ∧
        (w'.handleNoPrimaries clock).primariesGoneTime = (w'.startOutage clock.gone).primariesGoneTime := by
      have dropped := timers_dropPrimary (w'.startOutage clock.gone)
      unfold Failover.handleNoPrimaries
      dsimp only
      split
      · have failed := (timers_failPrimaries (w'.startOutage clock.gone).dropPrimary
          (clock.now - (w'.startOutage clock.gone).dropPrimary.primariesGoneTime)).trans dropped
        have args := timers_args failed
        have time := timers_goneTime failed
        exact ⟨args, time⟩
      · exact ⟨timers_args dropped, timers_goneTime dropped⟩
    obtain ⟨sameArgs, start⟩ := @startOutage_goneTime w' clock.gone
    dsimp only
    rw [same.1, same.2, sameArgs, start, time]
    exact ⟨args, Or.inr rfl⟩

theorem afterElection_some (candidate : Nat) : (w.afterElection (some candidate) clock).args = w.args ∧
      (w.afterElection (some candidate) clock).primariesGoneTime =
        if w.primariesGone then 0 else w.primariesGoneTime := by
  obtain ⟨args, gone, time⟩ := @handleInitTime_keeps w.exportDriverState clock (some candidate)
  have exported := timers_exportDriverState w
  rw [timers_args exported] at args
  rw [timers_gone exported] at gone
  rw [timers_goneTime exported] at time
  unfold Failover.afterElection
  split
  next w' waits =>
    unfold Failover.handleInitTime at waits
    split_ifs at waits <;> simp_all
  next w' begun =>
    rw [begun] at args gone time
    have served : (w'.serveCandidate candidate).timers = (w'.endOutage candidate).timers := by
      have keeps := publishing_timers (w'.endOutage candidate)
      unfold Failover.serveCandidate
      dsimp only
      split_ifs
      · exact publishing_dstate keeps trivial (publishing_upsExportDstate keeps rfl)
      · exact publishing_dstate keeps trivial (publishing_upsExportDstate keeps rfl)
      · exact publishing_dstate keeps trivial (publishing_upsPromotePrimary keeps rfl)
      · exact publishing_dstate keeps trivial (publishing_upsPromotePrimary keeps rfl)
    have ended : (w'.endOutage candidate).args = w'.args ∧
        (w'.endOutage candidate).primariesGoneTime = if w'.primariesGone then 0 else w'.primariesGoneTime := by
      unfold Failover.endOutage
      dsimp only
      split_ifs
      · have args := timers_args (timers_upsCleanDstate w' candidate)
        exact ⟨args, rfl⟩
      · exact ⟨rfl, rfl⟩
      · exact ⟨rfl, rfl⟩
    dsimp only
    rw [timers_args served, timers_goneTime served, ended.1, ended.2, gone, time]
    exact ⟨args, rfl⟩

theorem goesCritical_elapsed (critical : w.goesCritical round = true) :
    (w.elect round).2 = none ∧ w.args.noprimaryTimeout < round.times.now - w.outageStart round.times := by
  obtain ⟨args, _, time⟩ := @handleInitTime_keeps (w.elect round).1.exportDriverState round.times (w.elect round).2
  have elected := (timers_exportDriverState (w.elect round).1).trans (timers_elect w round)
  rw [timers_args elected] at args
  rw [timers_goneTime elected] at time
  unfold Failover.goesCritical at critical
  split at critical
  next => cases critical
  next w' begun =>
    rw [begun] at args time
    dsimp only at args time
    obtain ⟨none_, elapsed⟩ := Bool.and_eq_true_iff.mp critical
    have dropped := timers_dropPrimary (w'.startOutage round.times.gone)
    obtain ⟨sameArgs, start⟩ := @startOutage_goneTime w' round.times.gone
    unfold Failover.outageElapsed at elapsed
    rw [timers_args dropped, timers_goneTime dropped, sameArgs, start, args, time] at elapsed
    exact ⟨Option.isNone_iff_eq_none.mp none_, by simpa [Failover.outageStart] using elapsed⟩

theorem update_none {round : Round} (none_ : (w.elect round).2 = none) :
    (w.upsdrvUpdateinfo round).primariesGoneTime = w.primariesGoneTime ∨
      (w.upsdrvUpdateinfo round).primariesGoneTime = w.outageStart round.times := by
  have elected := timers_elect w round
  unfold Failover.upsdrvUpdateinfo
  rw [none_, <- timers_goneTime elected, Failover.outageStart, <- timers_goneTime elected]
  exact afterElection_none.2

theorem update_some (timed : w.Timed (.update round)) {candidate : Nat}
    (found : (w.elect round).2 = some candidate) : (w.upsdrvUpdateinfo round).primariesGoneTime = 0 := by
  have elected := timers_elect w round
  unfold Failover.upsdrvUpdateinfo
  rw [found, (afterElection_some candidate).2, timers_gone elected, timers_goneTime elected]
  rcases timed (by simp [found]) with untimed | declared
  · simp [untimed]
  · simp [declared]

theorem step_args (event : FailoverEvent) : (w.step event).args = w.args := by
  cases event with
  | instcmd cmdname extra now => exact timers_args (timers_instcmd w cmdname extra now)
  | update round =>
    have elected := timers_args (timers_elect w round)
    change ((w.elect round).1.afterElection (w.elect round).2 round.times).args = w.args
    cases (w.elect round).2 with
    | none => exact afterElection_none.1.trans elected
    | some candidate => exact (afterElection_some candidate).1.trans elected

end Outage

section Run

open Failover

variable {w : Failover}

def TimedSince (w : Failover) (events : List FailoverEvent) : Prop :=
  (events.foldl step w).primariesGoneTime ≠ 0 ->
    ∀ first earlier later, events = first ++ .update earlier :: later ->
      ((first.foldl step w).elect earlier).2 ≠ none ->
        earlier.times.now ≤ (events.foldl step w).primariesGoneTime

theorem readings_update {round earlier : Round} {events first later : List FailoverEvent}
    (clock : ((events ++ [FailoverEvent.update round]).flatMap FailoverEvent.readings).Pairwise (· ≤ ·))
    (split : events = first ++ .update earlier :: later) : earlier.times.now ≤ round.times.gone := by
  subst split
  simp only [List.flatMap_append, List.flatMap_cons, List.pairwise_append, List.mem_append] at clock
  exact clock.2.2 _ (Or.inr (Or.inl (by simp [FailoverEvent.readings]))) _ (Or.inl (by simp [FailoverEvent.readings]))

theorem outageStart_since {round earlier : Round} {events first later : List FailoverEvent}
    (clock : ((events ++ [FailoverEvent.update round]).flatMap FailoverEvent.readings).Pairwise (· ≤ ·))
    (since : TimedSince w events) (split : events = first ++ .update earlier :: later)
    (found : ((first.foldl step w).elect earlier).2 ≠ none) :
    earlier.times.now ≤ (events.foldl step w).outageStart round.times := by
  unfold Failover.outageStart
  split
  next => exact readings_update clock split
  next running => exact since running first earlier later split found

theorem timedSince_append {events : List FailoverEvent} {event : FailoverEvent}
    (clock : ((events ++ [event]).flatMap FailoverEvent.readings).Pairwise (· ≤ ·))
    (timed : (events.foldl step w).Timed event) (since : TimedSince w events) : TimedSince w (events ++ [event]) := by
  intro running first earlier later split found
  have last : (events ++ [event]).foldl step w = (events.foldl step w).step event := by simp
  rw [last] at running ⊢
  rcases append_split split with ⟨more, before, _⟩ | ⟨upto, before, one⟩
  · cases event with
    | instcmd cmdname extra now =>
      have same := timers_goneTime (timers_instcmd (events.foldl step w) cmdname extra now)
      change ((events.foldl step w).instcmd cmdname extra now).1.primariesGoneTime ≠ 0 at running
      change earlier.times.now ≤ ((events.foldl step w).instcmd cmdname extra now).1.primariesGoneTime
      rw [same] at running ⊢
      exact since running first earlier more before found
    | update round =>
      change ((events.foldl step w).upsdrvUpdateinfo round).primariesGoneTime ≠ 0 at running
      change earlier.times.now ≤ ((events.foldl step w).upsdrvUpdateinfo round).primariesGoneTime
      cases elected : ((events.foldl step w).elect round).2 with
      | some candidate => exact absurd (update_some timed elected) running
      | none =>
        rcases update_none elected with same | begun
        · rw [same] at running ⊢
          exact since running first earlier more before found
        · rw [begun]
          exact outageStart_since clock since before found
  · -- The last event itself found a candidate, so no outage is timed behind it.
    have only : upto = [] ∧ event = .update earlier := by
      cases upto with
      | nil => exact ⟨rfl, (List.cons.inj one).1⟩
      | cons b upto => simp at one
    obtain ⟨rfl, rfl⟩ := only
    rw [List.append_nil] at before
    subst before
    obtain ⟨candidate, elected⟩ := Option.ne_none_iff_exists'.mp found
    exact absurd (update_some timed elected) running

theorem timedSince_run {events : List FailoverEvent} (start : w.primariesGoneTime = 0)
    (clock : (events.flatMap FailoverEvent.readings).Pairwise (· ≤ ·)) (timed : Always step (EachAction Timed) w events) :
    TimedSince w events := by
  induction events using List.reverseRecOn with
  | nil => exact fun running => absurd start running
  | append_singleton events event ih =>
    have earlier : (events.flatMap FailoverEvent.readings).Pairwise (· ≤ ·) := by
      rw [List.flatMap_append, List.pairwise_append] at clock
      exact clock.1
    exact timedSince_append clock (always_last timed) (ih earlier (always_upto timed))

theorem args_run (events : List FailoverEvent) : (events.foldl step w).args = w.args := by
  induction events generalizing w with
  | nil => rfl
  | cons event events ih => exact ih.trans (step_args event)

-- The actions for an outage are taken only after it has lasted, if each shorter one was declared before it ended.
theorem critical_after_absence {events : List FailoverEvent} (start : w.primariesGoneTime = 0)
    (clock : (events.flatMap FailoverEvent.readings).Pairwise (· ≤ ·)) (timed : Always step (EachAction Timed) w events) :
    w.CriticalAfterAbsence events := by
  rintro before round after rfl critical
  obtain ⟨none_, elapsed⟩ := goesCritical_elapsed critical
  rw [args_run] at elapsed
  refine ⟨none_, fun first earlier later split recent => ?_⟩
  by_contra found
  have upto : before ++ FailoverEvent.update round :: after = (before ++ [.update round]) ++ after := by simp
  rw [upto] at clock timed
  rw [List.flatMap_append, List.pairwise_append] at clock
  have earlierClock : (before.flatMap FailoverEvent.readings).Pairwise (· ≤ ·) := by
    have first := clock.1
    rw [List.flatMap_append, List.pairwise_append] at first
    exact first.1
  have since := timedSince_run start earlierClock (always_upto (always_upto timed))
  have bound := outageStart_since clock.1 since split found
  omega

end Run

namespace Failover

def sampleStart : Failover :=
  { args :=
      { statusFilters := { haveAny := [], haveAll := [], nothaveAny := [], nothaveAll := [] }
        initTimeout := 30, deadTimeout := 30, noprimaryTimeout := 15, maxconnfails := 5, coolofftimeout := 15
        fsdmode := 2, strictFiltering := 0, checkRuntime := 1 }
    initTimeElapsed := false, primariesGone := false, drvStartupTime := 1000, primariesGoneTime := 0
    upsList :=
      [{ socketname := cstr "ups1", connected := false, parseCtx := pconfInit, varList := [], cmdList := []
         status := none, lastHeardTime := 0, lastPingedTime := 0, lastFailureTime := 0, forceIgnoreTime := 0
         forcePrimaryTime := 0, alive := false, dumped := false, dataOk := false, online := false, primary := false
         priority := .forced, runtime := 0, runtimeLow := 0, forceIgnore := 0, forcePrimary := 0
         forceDstateExport := false, failureCount := 0 }]
    primaryUps := none, upsAliveCount := 0, upsOnlineCount := 0, upsPrimaryCount := 0
    own := Status.start, clock := 1000, trends := [] }

def sampleRound (now : Int) (read : UpsRead) : Round :=
  { clock := now, trends := [], electionTime := now, times := { init := now, gone := now, now := now }
    contacts := fun _ =>
      { connectTime := now, connects := true, asked := true, heardTime := now, aliveTime := now, read := read
        lineTime := now } }

def sampleDump : UpsRead :=
  .bytes (cstr "SETINFO ups.status \"OL\"\nDATAOK\nDUMPDONE\n")

def sampleEvents : List FailoverEvent :=
  [.update (sampleRound 1001 sampleDump), .update (sampleRound 1003 .failed), .update (sampleRound 1005 sampleDump),
    .update (sampleRound 1020 .failed)]

end Failover

open Failover in
-- An outage that lasts is declared in its last update.
theorem critical_after_absence_sample :
    (([FailoverEvent.update (sampleRound 1001 sampleDump), .update (sampleRound 1003 .failed)].foldl step
        sampleStart).goesCritical (sampleRound 1020 .failed) = true) ∧
      sampleStart.CriticalAfterAbsence [.update (sampleRound 1001 sampleDump), .update (sampleRound 1003 .failed),
        .update (sampleRound 1020 .failed)] :=
  ⟨by decide +kernel, critical_after_absence rfl (by decide +kernel) (by decide +kernel)⟩

open Failover in
-- The second outage is timed from the beginning of the first.
theorem critical_too_early : ¬ sampleStart.CriticalAfterAbsence sampleEvents := by
  intro all
  have critical := all [.update (sampleRound 1001 sampleDump), .update (sampleRound 1003 .failed),
    .update (sampleRound 1005 sampleDump)] (sampleRound 1020 .failed) [] rfl (by decide +kernel)
  have absent := critical.2 [.update (sampleRound 1001 sampleDump), .update (sampleRound 1003 .failed)]
    (sampleRound 1005 sampleDump) [] rfl (by decide)
  revert absent
  decide +kernel

end Nut
