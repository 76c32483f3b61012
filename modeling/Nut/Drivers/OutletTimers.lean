import Nut.Drivers.Clone
import Nut.Library.Journal

set_option autoImplicit false

namespace Nut

namespace CloneAct

-- When an update did not find the upstream `OL`.
def offline : CloneAct -> Option Int
  | checked false now => some now
  | gaveUp now => some now
  | _ => none

def begins : CloneAct -> Bool
  | accepted _ _ started _ => started
  | _ => false

def ends : CloneAct -> Bool
  | expired _ => true
  | _ => false

def switchesOff : CloneAct -> Bool
  | loadOff _ => true
  | _ => false

-- Whether the last shutdown command was `shutdown.stayoff`.
def stayedOff (journal : List CloneAct) : Bool :=
  journal.foldl (fun off act => match act with
    | accepted stayoff _ _ _ => stayoff
    | _ => off) false

def gaveUpLast (journal : List CloneAct) : Bool :=
  journal.foldl (fun early act => match act with
    | gaveUp _ => true
    | checked _ _ => false
    | _ => early) false

-- The command that started a countdown, with the number of those before it.
def StartedAt (journal : List CloneAct) (order : Nat) (time : Int) : Prop :=
  ∃ front stayoff back, journal = front ++ accepted stayoff true true time :: back ∧ front.countP begins = order

-- The n-th `load.off` is late enough behind the command that started the n-th countdown.
def Timely (offdelay ondelay : Int) (earlier : List CloneAct) : CloneAct -> Prop
  | loadOff now => ∃ time, StartedAt earlier (earlier.countP switchesOff) time ∧ time + offdelay ≤ now
  | loadOn now =>
    earlier.countP begins = earlier.countP ends ∧
      (∀ act ∈ earlier, ∀ time, act.offline = some time -> time < now - ondelay) ∧ stayedOff earlier = false
  | _ => True

def running (shutdown : Int) : Nat :=
  if 0 ≤ shutdown then 1 else 0

theorem running_nonneg {shutdown : Int} (nonneg : 0 ≤ shutdown) : running shutdown = 1 := if_pos nonneg

theorem running_neg {shutdown : Int} (neg : shutdown < 0) : running shutdown = 0 := if_neg (Int.not_le.mpr neg)

theorem StartedAt.append {journal : List CloneAct} {order : Nat} {time : Int} (started : StartedAt journal order time)
    (more : List CloneAct) : StartedAt (journal ++ more) order time := by
  obtain ⟨front, stayoff, back, rfl, count⟩ := started
  exact ⟨front, stayoff, back ++ more, by simp, count⟩

-- The updates that did not find the upstream `OL` came no later than this.
def OfflineUpto (journal : List CloneAct) (bound : Int) : Prop :=
  ∀ act ∈ journal, ∀ time, act.offline = some time -> time ≤ bound

section Journal

variable (journal : List CloneAct) (act : CloneAct)

@[simp] theorem stayedOff_append :
    stayedOff (journal ++ [act]) = match act with
      | accepted stayoff _ _ _ => stayoff
      | _ => stayedOff journal := by
  simp [stayedOff]

@[simp] theorem gaveUpLast_append :
    gaveUpLast (journal ++ [act]) = match act with
      | gaveUp _ => true
      | checked _ _ => false
      | _ => gaveUpLast journal := by
  simp [gaveUpLast]

theorem offlineUpto_append (bound : Int) : OfflineUpto (journal ++ [act]) bound ↔
      OfflineUpto journal bound ∧ ∀ time, act.offline = some time -> time ≤ bound := by
  constructor
  · intro all
    exact ⟨fun other member => all other (List.mem_append_left _ member), all act (by simp)⟩
  · rintro ⟨earlier, last⟩ other member
    rcases List.mem_append.mp member with inside | isLast
    · exact earlier other inside
    · rw [List.mem_singleton.mp isLast]
      exact last

variable {journal}

theorem OfflineUpto.mono {bound higher : Int} (upto : OfflineUpto journal bound) (above : bound ≤ higher) :
    OfflineUpto journal higher :=
  fun act member time offline => Int.le_trans (upto act member time offline) above

theorem OfflineUpto.append {bound : Int} (upto : OfflineUpto journal bound) {act : CloneAct} (other : act.offline = none) :
    OfflineUpto (journal ++ [act]) bound := (offlineUpto_append journal act bound).mpr ⟨upto, by simp [other]⟩

theorem OfflineUpto.checked {now : Int} (upto : OfflineUpto journal now) (online : Bool) :
    OfflineUpto (journal ++ [CloneAct.checked online now]) now := by
  refine (offlineUpto_append journal _ now).mpr ⟨upto, fun time offline => ?_⟩
  cases online
  · exact Int.le_of_eq (Option.some.inj offline).symm
  · cases offline

end Journal

end CloneAct

open CloneAct

structure OutletTimers where
  start : Int
  shutdown : Int
  offdelay : Int
  ondelay : Int
  lastPoll : Int
  -- there is a `load.off`
  switched : Bool
  journal : List CloneAct

namespace OutletTimers

def note (t : OutletTimers) (act : CloneAct) : OutletTimers :=
  { t with journal := t.journal ++ [act] }

def starts (t : OutletTimers) (outlet : Bool) : Bool :=
  outlet && decide (t.shutdown < 0) && decide (0 ≤ t.offdelay)

def accept (t : OutletTimers) (stayoff outlet : Bool) (now : Int) : OutletTimers :=
  { t with
    shutdown := if outlet = true ∧ t.shutdown < 0 then t.offdelay else t.shutdown
    start := if stayoff then -1 else t.ondelay
    journal := t.journal ++ [accepted stayoff outlet (t.starts outlet) now] }

def polledAt (t : OutletTimers) (now : Int) : OutletTimers :=
  { t with lastPoll := now }

-- The upstream was heard.
def check (t : OutletTimers) (online : Bool) (now : Int) : OutletTimers :=
  (t.note (.checked online now)).polledAt now

def switchOff (t : OutletTimers) (now : Int) (sends : Bool) : OutletTimers :=
  let t := { t with shutdown := -1 }.note (.expired now)
  if t.switched && sends then t.note (.loadOff now) else t

def countOff (t : OutletTimers) (passed now : Int) (sends : Bool) : OutletTimers :=
  if t.shutdown - passed < 0 then t.switchOff now sends else { t with shutdown := t.shutdown - passed }

def switchOn (t : OutletTimers) (now : Int) (sends : Bool) : OutletTimers :=
  if sends then { t with start := -1 }.note (.loadOn now) else { t with start := -1 }

def left (t : OutletTimers) (online : Bool) (passed : Int) : Int :=
  if online then t.start - passed else t.ondelay

def countOn (t : OutletTimers) (online : Bool) (passed now : Int) (sends : Bool) : OutletTimers :=
  if t.left online passed < 0 then t.switchOn now sends else { t with start := t.left online passed }

theorem polledAt_switchOff (t : OutletTimers) (now polled : Int) (sends : Bool) :
    (t.switchOff now sends).polledAt polled = (t.polledAt polled).switchOff now sends := by
  unfold switchOff
  dsimp only [note, polledAt]
  cases t.switched && sends <;> rfl

theorem polledAt_switchOn (t : OutletTimers) (now polled : Int) (sends : Bool) :
    (t.switchOn now sends).polledAt polled = (t.polledAt polled).switchOn now sends := by
  cases sends <;> rfl

theorem polledAt_countOff (t : OutletTimers) (passed now polled : Int) (sends : Bool) :
    (t.countOff passed now sends).polledAt polled = (t.polledAt polled).countOff passed now sends := by
  by_cases ended : t.shutdown - passed < 0
  · have here : t.countOff passed now sends = t.switchOff now sends := if_pos ended
    have there : (t.polledAt polled).countOff passed now sends = (t.polledAt polled).switchOff now sends := if_pos ended
    rw [here, there, polledAt_switchOff]
  · have here : t.countOff passed now sends = { t with shutdown := t.shutdown - passed } := if_neg ended
    rw [here]
    exact (if_neg ended).symm

theorem polledAt_countOn (t : OutletTimers) (online : Bool) (passed now polled : Int) (sends : Bool) :
    (t.countOn online passed now sends).polledAt polled = (t.polledAt polled).countOn online passed now sends := by
  by_cases ended : t.left online passed < 0
  · have here : t.countOn online passed now sends = t.switchOn now sends := if_pos ended
    have there : (t.polledAt polled).countOn online passed now sends = (t.polledAt polled).switchOn now sends :=
      if_pos ended
    rw [here, there, polledAt_switchOn]
  · have here : t.countOn online passed now sends = { t with start := t.left online passed } := if_neg ended
    rw [here]
    exact (if_neg ended).symm

def settings (t : OutletTimers) : Int × Int × Bool :=
  (t.offdelay, t.ondelay, t.switched)

theorem countOff_settings (t : OutletTimers) (passed now : Int) (sends : Bool) :
    (t.countOff passed now sends).settings = t.settings := by
  unfold countOff switchOff
  dsimp only
  split
  · split <;> rfl
  · rfl

theorem countOn_settings (t : OutletTimers) (online : Bool) (passed now : Int) (sends : Bool) :
    (t.countOn online passed now sends).settings = t.settings := by
  unfold countOn switchOn
  split
  · split <;> rfl
  · rfl

theorem countOn_shutdown (t : OutletTimers) (online : Bool) (passed now : Int) (sends : Bool) :
    (t.countOn online passed now sends).shutdown = t.shutdown := by
  unfold countOn switchOn
  split
  · split <;> rfl
  · rfl

theorem polledAt_accept (t : OutletTimers) (stayoff outlet : Bool) (now polled : Int) :
    (t.accept stayoff outlet now).polledAt polled = (t.polledAt polled).accept stayoff outlet now := rfl

structure Sound (t : OutletTimers) (now : Int) : Prop where
  polled : t.lastPoll ≤ now
  past : OfflineUpto t.journal now
  -- What the start countdown has counted was online.
  window : gaveUpLast t.journal = false ->
    OfflineUpto t.journal t.lastPoll ∧ (0 ≤ t.start -> OfflineUpto t.journal (t.lastPoll + t.start - t.ondelay))
  started : 0 ≤ t.shutdown -> ∃ time,
    StartedAt t.journal (t.journal.countP ends) time ∧ time + t.offdelay ≤ t.lastPoll + t.shutdown + 1
  begun : t.journal.countP begins = t.journal.countP ends + running t.shutdown
  written : t.switched = true -> t.journal.countP switchesOff = t.journal.countP ends
  waits : 0 ≤ t.shutdown -> t.start < 0 ∨ t.start = t.ondelay
  delayed : 0 ≤ t.start -> 0 ≤ t.ondelay
  returned : 0 ≤ t.start -> stayedOff t.journal = false
  acts : EachEntry (Timely t.offdelay t.ondelay) t.journal

variable {t : OutletTimers} {time now : Int}

theorem Sound.later (sound : t.Sound time) (later : time ≤ now) : t.Sound now :=
  { sound with
    polled := Int.le_trans sound.polled later
    past := sound.past.mono later }

theorem sound_idle (polled : t.lastPoll ≤ now) (idle : t.shutdown < 0) (settled : t.start < 0)
    (empty : t.journal = []) : t.Sound now where
  polled := polled
  past := by simp [empty, OfflineUpto]
  window := by simp [empty, OfflineUpto]
  started := fun running => absurd running (Int.not_le.mpr idle)
  begun := by
    rw [empty, running_neg idle]
    rfl
  written := by simp [empty]
  waits := fun running => absurd running (Int.not_le.mpr idle)
  delayed := fun waiting => absurd waiting (Int.not_le.mpr settled)
  returned := fun waiting => absurd waiting (Int.not_le.mpr settled)
  acts := by
    rw [empty]
    exact eachEntry_nil

theorem Sound.gaveUp (sound : t.Sound now) : (t.note (.gaveUp now)).Sound now where
  polled := sound.polled
  past := by
    refine (offlineUpto_append t.journal _ now).mpr ⟨sound.past, fun time offline => ?_⟩
    exact Int.le_of_eq (Option.some.inj offline).symm
  window := by simp [note]
  started := by
    intro running
    obtain ⟨time, member, early⟩ := sound.started running
    exact ⟨time, by simpa [note, ends] using member.append [.gaveUp now], early⟩
  begun := by simpa [note, begins, ends] using sound.begun
  written := by simpa [note, switchesOff, ends] using sound.written
  waits := sound.waits
  delayed := sound.delayed
  returned := by simpa [note] using sound.returned
  acts := (eachEntry_append _ _).mpr ⟨sound.acts, trivial⟩

theorem Sound.accept (sound : t.Sound now) {stayoff outlet : Bool}
    (prompt : t.starts outlet = true -> now ≤ t.lastPoll + 1) : (t.accept stayoff outlet now).Sound now where
  polled := sound.polled
  past := sound.past.append rfl
  window := by
    intro heard
    have heardBefore : gaveUpLast t.journal = false := by simpa [OutletTimers.accept] using heard
    have past := (sound.window heardBefore).1
    refine ⟨past.append rfl, fun waiting => ?_⟩
    cases stayoff
    · exact (past.mono (by simp [OutletTimers.accept])).append rfl
    · exact absurd waiting (by simp [OutletTimers.accept])
  started := by
    intro running
    by_cases begins : outlet = true ∧ t.shutdown < 0
    · have shutdown : (t.accept stayoff outlet now).shutdown = t.offdelay := if_pos begins
      rw [shutdown] at running ⊢
      have starts : t.starts outlet = true := by simp [OutletTimers.starts, begins, running]
      refine ⟨now, ?_, ?_⟩
      · have last : (t.accept stayoff outlet now).journal = t.journal ++ [accepted stayoff true true now] := by
          rw [OutletTimers.accept, starts, begins.1]
        rw [last]
        refine ⟨t.journal, stayoff, [], rfl, ?_⟩
        simpa [ends, running_neg begins.2] using sound.begun
      · change now + t.offdelay ≤ t.lastPoll + t.offdelay + 1
        have soon := prompt starts
        omega
    · have shutdown : (t.accept stayoff outlet now).shutdown = t.shutdown := if_neg begins
      rw [shutdown] at running ⊢
      obtain ⟨time, member, early⟩ := sound.started running
      refine ⟨time, ?_, early⟩
      simpa [OutletTimers.accept, ends] using member.append [.accepted stayoff outlet (t.starts outlet) now]
  begun := by
    have begun := sound.begun
    simp only [OutletTimers.accept, OutletTimers.starts, List.countP_append, List.countP_singleton, CloneAct.begins,
      CloneAct.ends]
    by_cases idle : t.shutdown < 0
    · rw [running_neg idle] at begun
      by_cases nonneg : 0 ≤ t.offdelay
      · cases outlet <;> simp [idle, nonneg, begun, running_nonneg, running_neg]
      · cases outlet <;> simp [idle, nonneg, begun, running_neg, Int.not_le.mp nonneg]
    · simp [idle, begun]
  written := by
    intro switched
    simpa [OutletTimers.accept, switchesOff, ends] using sound.written switched
  waits := by
    intro _
    cases stayoff
    · exact Or.inr rfl
    · exact Or.inl (show (-1 : Int) < 0 by decide)
  delayed := by
    intro waiting
    cases stayoff
    · exact waiting
    · exact absurd waiting (by simp [OutletTimers.accept])
  returned := by
    intro waiting
    cases stayoff
    · simp [OutletTimers.accept]
    · exact absurd waiting (by simp [OutletTimers.accept])
  acts := (eachEntry_append _ _).mpr ⟨sound.acts, trivial⟩

section Update

variable {online sends : Bool}

theorem acts_check (acts : EachEntry (Timely t.offdelay t.ondelay) t.journal) :
    EachEntry (Timely t.offdelay t.ondelay) (t.check online now).journal := (eachEntry_append _ _).mpr ⟨acts, trivial⟩

theorem Sound.window_waits (sound : t.Sound now) (counting : 0 ≤ t.shutdown) :
    OfflineUpto (t.check online now).journal now ∧
      (0 ≤ t.start -> OfflineUpto (t.check online now).journal (now + t.start - t.ondelay)) := by
  have past := sound.past.checked online
  refine ⟨past, fun waiting => ?_⟩
  rcases sound.waits counting with off | whole
  · omega
  · exact past.mono (by omega)

theorem Sound.countOff (sound : t.Sound now) (counting : 0 ≤ t.shutdown)
    (sent : t.shutdown < now - t.lastPoll -> t.switched = true -> sends = true) :
    ((t.check online now).countOff (now - t.lastPoll) now sends).Sound now := by
  have begun := sound.begun
  rw [running_nonneg counting] at begun
  obtain ⟨time, member, early⟩ := sound.started counting
  obtain ⟨past, window⟩ := @Sound.window_waits t now online sound counting
  unfold OutletTimers.countOff
  split
  next ended =>
    change t.shutdown - (now - t.lastPoll) < 0 at ended
    have due := sent (by omega)
    unfold switchOff
    dsimp only
    split
    next switched =>
      exact
        { polled := Int.le_refl now
          past := (past.append rfl).append rfl
          window := fun _ => ⟨(past.append rfl).append rfl, fun waiting => ((window waiting).append rfl).append rfl⟩
          started := fun running => absurd running (by simp [note])
          begun := by simp [note, check, polledAt, List.countP_cons, begins, ends, begun, running_neg]
          written := fun _ => by
            have written := sound.written (Bool.and_eq_true_iff.mp switched).1
            simp [note, check, polledAt, List.countP_cons, switchesOff, ends, written]
          waits := fun running => absurd running (by simp [note])
          delayed := sound.delayed
          returned := fun waiting => by simpa only [note, check, polledAt, stayedOff_append] using sound.returned waiting
          acts := by
            refine (eachEntry_append _ _).mpr ⟨(eachEntry_append _ _).mpr ⟨acts_check sound.acts, trivial⟩, ?_⟩
            have written := sound.written (Bool.and_eq_true_iff.mp switched).1
            refine ⟨time, ?_, ?_⟩
            · simpa [note, check, polledAt, switchesOff, written] using
                (member.append [.checked online now]).append [.expired now]
            · change time + t.offdelay ≤ now
              omega }
    next unsent =>
      have unswitched : t.switched = false := by
        cases switched : t.switched
        · rfl
        · exact absurd (Bool.and_eq_true_iff.mpr ⟨switched, due switched⟩) unsent
      exact
        { polled := Int.le_refl now
          past := past.append rfl
          window := fun _ => ⟨past.append rfl, fun waiting => (window waiting).append rfl⟩
          started := fun running => absurd running (by simp [note])
          begun := by simp [note, check, polledAt, List.countP_cons, begins, ends, begun, running_neg]
          written := fun switched => absurd (unswitched.symm.trans switched) (by decide)
          waits := fun running => absurd running (by simp [note])
          delayed := sound.delayed
          returned := fun waiting => by simpa only [note, check, polledAt, stayedOff_append] using sound.returned waiting
          acts := (eachEntry_append _ _).mpr ⟨acts_check sound.acts, trivial⟩ }
  next runs =>
    change ¬ t.shutdown - (now - t.lastPoll) < 0 at runs
    exact
      { polled := Int.le_refl now
        past := past
        window := fun _ => ⟨past, window⟩
        started := by
          intro _
          refine ⟨time, by simpa [note, check, polledAt, ends] using member.append [.checked online now], ?_⟩
          change time + t.offdelay ≤ now + (t.shutdown - (now - t.lastPoll)) + 1
          omega
        begun := by
          have on : running (t.shutdown - (now - t.lastPoll)) = 1 := running_nonneg (by omega)
          simp [note, check, polledAt, begins, ends, begun, on]
        written := fun switched => by simpa [note, check, polledAt, switchesOff, ends] using sound.written switched
        waits := fun _ => sound.waits counting
        delayed := sound.delayed
        returned := fun waiting => by simpa [note, check, polledAt] using sound.returned waiting
        acts := acts_check sound.acts }

theorem Sound.countOn (sound : t.Sound now) (idle : t.shutdown < 0) (waiting : 0 ≤ t.start)
    (heard : online = true -> gaveUpLast t.journal = false) :
    ((t.check online now).countOn online (now - t.lastPoll) now sends).Sound now := by
  have past := sound.past.checked online
  have begun : (t.check online now).journal.countP begins = (t.check online now).journal.countP ends := by
    simpa [note, check, polledAt, begins, ends, running_neg idle] using sound.begun
  have written : t.switched = true ->
      (t.check online now).journal.countP switchesOff = (t.check online now).journal.countP ends := by
    intro switched
    simpa [note, check, polledAt, switchesOff, ends] using sound.written switched
  have back : stayedOff (t.check online now).journal = false := by
    simpa [note, check, polledAt] using sound.returned waiting
  -- Where the countdown goes on, only what came before it was not online.
  have counted : online = true -> OfflineUpto (t.check online now).journal (t.lastPoll + t.start - t.ondelay) := by
    intro isOnline
    subst isOnline
    exact ((sound.window (heard rfl)).2 waiting).append rfl
  unfold OutletTimers.countOn
  split
  next ended =>
    have isOnline : online = true ∧ t.start - (now - t.lastPoll) < 0 := by
      have delayed := sound.delayed waiting
      cases online
      · exact absurd ended (Int.not_lt.mpr delayed)
      · exact ⟨rfl, ended⟩
    unfold switchOn
    split
    · exact
        { polled := Int.le_refl now
          past := past.append rfl
          window := fun _ => ⟨past.append rfl, fun waiting => absurd waiting (by simp [note])⟩
          started := fun running => absurd running (Int.not_le.mpr idle)
          begun := by simpa [note, List.countP_append, begins, ends, check, polledAt, running_neg idle] using begun
          written := fun switched => by simpa [note, switchesOff, ends] using written switched
          waits := fun running => absurd running (Int.not_le.mpr idle)
          delayed := fun waiting => absurd waiting (by simp [note])
          returned := fun waiting => absurd waiting (by simp [note])
          acts := by
            refine (eachEntry_append _ _).mpr ⟨acts_check sound.acts, begun, ?_, back⟩
            intro act member time offline
            have early := counted isOnline.1 act member time offline
            change time < now - t.ondelay
            omega }
    · exact
        { polled := Int.le_refl now
          past := past
          window := fun _ => ⟨past, fun waiting => absurd waiting (by simp)⟩
          started := fun running => absurd running (Int.not_le.mpr idle)
          begun := by simpa [note, check, polledAt, running_neg idle] using begun
          written := written
          waits := fun running => absurd running (Int.not_le.mpr idle)
          delayed := fun waiting => absurd waiting (by simp)
          returned := fun waiting => absurd waiting (by simp)
          acts := acts_check sound.acts }
  next runs =>
    exact
      { polled := Int.le_refl now
        past := past
        window := by
          intro _
          refine ⟨past, fun _ => ?_⟩
          cases online
          · exact past.mono (show now ≤ now + t.ondelay - t.ondelay by omega)
          · refine (counted rfl).mono ?_
            change t.lastPoll + t.start - t.ondelay ≤ now + (t.start - (now - t.lastPoll)) - t.ondelay
            omega
        started := fun running => absurd running (Int.not_le.mpr idle)
        begun := by simpa [note, check, polledAt, running_neg idle] using begun
        written := written
        waits := fun running => absurd running (Int.not_le.mpr idle)
        delayed := fun _ => sound.delayed waiting
        returned := fun _ => back
        acts := acts_check sound.acts }

theorem Sound.check (sound : t.Sound now) (idle : t.shutdown < 0) (settled : t.start < 0) :
    (t.check online now).Sound now where
  polled := Int.le_refl now
  past := sound.past.checked online
  window := fun _ => ⟨sound.past.checked online, fun waiting => absurd waiting (Int.not_le.mpr settled)⟩
  started := fun running => absurd running (Int.not_le.mpr idle)
  begun := by simpa [note, OutletTimers.check, polledAt, begins, ends] using sound.begun
  written := fun switched => by simpa [note, OutletTimers.check, polledAt, switchesOff, ends] using sound.written switched
  waits := fun running => absurd running (Int.not_le.mpr idle)
  delayed := fun waiting => absurd waiting (Int.not_le.mpr settled)
  returned := fun waiting => absurd waiting (Int.not_le.mpr settled)
  acts := acts_check sound.acts

end Update

end OutletTimers

end Nut
