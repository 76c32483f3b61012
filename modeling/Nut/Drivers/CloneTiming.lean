import Nut.Drivers.OutletTimers
import Nut.Drivers.StatusFsd

set_option autoImplicit false

namespace Nut

inductive CloneEvent where
  | update (round : CloneRound)
  | instcmd (cmdname : CString) (extra : Option CString) (now : Int) (trend : Trend)
  | setvar (varname val : CString) (now : Int)

def CloneEvent.readings : CloneEvent -> List Int
  | update round => [round.now, round.later]
  | instcmd _ _ now _ => [now]
  | setvar _ _ _ => []

namespace Clone

variable {D : Type}

def showsFsd (w : Clone D) : Bool :=
  w.own.published.getLast?.any fun value => strContainsToken value (cstr "FSD")

variable [CDouble D]

def step (w : Clone D) : CloneEvent -> Clone D
  | .update round => w.upsdrvUpdateinfo round
  | .instcmd cmdname extra now trend => ((w.opened now [trend]).instcmd cmdname extra now).1
  | .setvar varname val now => ((w.opened now []).setvar varname val).1

-- What is asked of the two countdowns along a run.
structure OutletTiming (w : Clone D) (events : List CloneEvent) : Prop where
  acts : EachEntry (CloneAct.Timely w.offdelay w.ondelay) (events.foldl step w).journal
  -- Each countdown that was started is running, or has ended with one `load.off`.
  once : w.loadOff.isSome = true -> ∀ before after, events = before ++ after ->
    (before.foldl step w).journal.countP CloneAct.begins =
      (before.foldl step w).journal.countP CloneAct.switchesOff + CloneAct.running (before.foldl step w).timerShutdown
  fsd : ∀ before round after, events = before ++ .update round :: after ->
    0 ≤ (before.foldl step w).timerShutdown -> ((before.foldl step w).step (.update round)).showsFsd = true

def PromptCommand (w : Clone D) (cmdname : CString) (now : Int) : Prop :=
  (isCommand cmdname "shutdown.return" || isCommand cmdname "shutdown.stayoff") = true -> w.startsCountdown = true ->
    now ≤ w.lastPoll + 1 ∧ w.own.RoomForFsd

def SteadyUpdate (w heard : Clone D) (now : Int) (sends : Bool) : Prop :=
  (0 ≤ w.timerShutdown -> heard.own.RoomForFsd ∧
    (w.timerShutdown < now - w.lastPoll -> w.loadOff.isSome = true -> sends = true)) ∧
  (w.timerShutdown < 0 -> 0 ≤ w.timerStart -> heard.online = true -> CloneAct.gaveUpLast w.journal = false) ∧
  (w.timerShutdown < 0 -> w.timerStart < 0 -> (!heard.online && heard.isLow && heard.startsCountdown) = true ->
    heard.own.RoomForFsd)

def Steady (w : Clone D) (round : CloneRound) : Prop :=
  match (w.opened round.clock round.trends).listen round with
  | (_, false) => 0 ≤ w.timerShutdown -> (w.sstateDead 15 round.deadTime round.pings).2 = true ->
      round.contact.connects = false
  | (heard, true) => w.SteadyUpdate (heard.reportStatus (w.polledAt round)) (w.polledAt round) round.sends

def Undisturbed (w : Clone D) : CloneEvent -> Prop
  | .update round => w.Steady round
  | .instcmd cmdname _ now _ => w.PromptCommand cmdname now
  | .setvar _ _ _ => True

end Clone

namespace Clone

variable {D : Type} (w : Clone D)

def timers (w : Clone D) : OutletTimers :=
  { start := w.timerStart, shutdown := w.timerShutdown, offdelay := w.offdelay, ondelay := w.ondelay
    lastPoll := w.lastPoll, switched := w.loadOff.isSome, journal := w.journal }

theorem timers_shutdown : w.timers.shutdown = w.timerShutdown := rfl

def apart (w : Clone D) : OutletTimers × Bool × List CString :=
  (w.timers, w.connected, w.own.published)

@[simp] theorem apart_dstate (op : DstateOp) : (w.dstate op).apart = w.apart := rfl

@[simp] theorem timers_dstate (op : DstateOp) : (w.dstate op).timers = w.timers := rfl

@[simp] theorem timers_statusCommit : w.statusCommit.timers = w.timers := rfl

@[simp] theorem apart_charge (charge : CloneLevel D) : { w with charge := charge }.apart = w.apart := rfl

@[simp] theorem apart_runtime (runtime : CloneLevel D) : { w with runtime := runtime }.apart = w.apart := rfl

@[simp] theorem apart_noteOutlet (val : CString) : (w.noteOutlet val).apart = w.apart := by
  unfold noteOutlet
  dsimp only
  split_ifs <;> rfl

section Lines

variable [CDouble D]

@[simp] theorem apart_publishLow (var : String) (low : D) (aux : Int64) :
    (w.publishLow var low aux).apart = w.apart := by
  simp only [publishLow, apart_dstate]

@[simp] theorem apart_setinfo (var val : CString) : (w.setinfo var val).apart = w.apart := by
  unfold setinfo
  dsimp only
  split
  · rfl
  · split
    · rfl
    · rw [apart_dstate]
      split_ifs <;> simp

@[simp] theorem apart_parseArgs (arg : List CString) : (w.parseArgs arg).1.apart = w.apart := by
  rcases arg with _ | ⟨keyword, _ | ⟨var, _ | ⟨val, more⟩⟩⟩ <;> simp only [parseArgs]
  · split_ifs <;> rfl
  · split_ifs <;> rfl
  · split_ifs <;> first | rfl | exact apart_setinfo w var val

theorem apart_readBytes (lineTime : Int) (bytes : CString) : (readBytes lineTime bytes w).1.apart = w.apart := by
  induction bytes generalizing w with
  | nil => rfl
  | cons b bytes ih =>
    unfold readBytes
    dsimp only
    split_ifs
    · exact (ih _).trans (apart_parseArgs _ _)
    · exact (ih _).trans (apart_parseArgs _ _)
    · exact ih _
    · rfl

theorem apart_sstateReadline (read : CloneRead) (lineTime : Int) :
    (w.sstateReadline read lineTime).1.apart = w.apart := by
  unfold sstateReadline
  split
  · rfl
  · cases read with
    | failed => rfl
    | later => rfl
    | bytes buf => exact apart_readBytes w lineTime buf

end Lines

theorem apart_sstateSendline (buf : CString) (sends : Bool) : (w.sstateSendline buf sends).1.apart = w.apart := by
  unfold sstateSendline
  split <;> rfl

theorem apart_sstateDead (maxage now : Int) (sends : Bool) : (w.sstateDead maxage now sends).1.apart = w.apart := by
  unfold sstateDead
  dsimp only
  split
  · rfl
  · split
    · rfl
    · split
      · exact apart_sstateSendline w _ sends
      · rfl

theorem timers_sstateConnect (contact : CloneContact) : (w.sstateConnect contact).timers = w.timers := by
  unfold sstateConnect
  split <;> rfl

theorem apart_timers {w w' : Clone D} (same : w'.apart = w.apart) : w'.timers = w.timers := congrArg Prod.fst same

theorem apart_connected {w w' : Clone D} (same : w'.apart = w.apart) : w'.connected = w.connected :=
  congrArg (fun a => a.2.1) same

theorem apart_published {w w' : Clone D} (same : w'.apart = w.apart) : w'.own.published = w.own.published :=
  congrArg (fun a => a.2.2) same

theorem sstateDead_alive {maxage now : Int} {sends : Bool} (alive : (w.sstateDead maxage now sends).2 = false) :
    w.connected = true := by
  unfold sstateDead at alive
  split at alive
  · cases alive
  next reached => simpa using reached

section Update

variable [CDouble D] {w} {round : CloneRound} {heard : Clone D}

theorem listen_heard (goesOn : w.listen round = (heard, true)) : heard.apart = w.apart ∧ heard.connected = true := by
  unfold listen at goesOn
  have dead := apart_sstateDead w 15 round.deadTime round.pings
  split at goesOn
  next => cases goesOn
  next w' alive =>
    rw [alive] at dead
    have reached := sstateDead_alive w (congrArg Prod.snd alive)
    have line := apart_sstateReadline w' round.read round.lineTime
    split at goesOn
    next w'' ret read =>
      rw [read] at line
      split at goesOn
      · cases goesOn
      · obtain rfl := congrArg Prod.fst goesOn
        have same := line.trans dead
        exact ⟨same, (apart_connected same).trans reached⟩

theorem listen_early (early : w.listen round = (heard, false)) : heard.timers = w.timers ∧
      ((w.sstateDead 15 round.deadTime round.pings).2 = true ∧ round.contact.connects = true ∨
        heard.own.published = w.own.published) := by
  unfold listen at early
  have dead := apart_sstateDead w 15 round.deadTime round.pings
  split at early
  next w' isDead =>
    have same : w'.apart = w.apart := by rwa [isDead] at dead
    rw [isDead]
    obtain rfl := congrArg Prod.fst early
    have timers : w'.timers = w.timers := apart_timers same
    refine ⟨(timers_sstateConnect _ _).trans timers, ?_⟩
    cases connects : round.contact.connects
    · refine Or.inr (Eq.trans ?_ (apart_published same))
      simp [sstateConnect, connects, sstateDisconnect]
    · exact Or.inl ⟨rfl, rfl⟩
  next w' alive =>
    rw [alive] at dead
    have line := apart_sstateReadline w' round.read round.lineTime
    split at early
    next w'' ret read =>
      rw [read] at line
      split at early
      · obtain rfl := congrArg Prod.fst early
        have same : w''.apart = w.apart := line.trans dead
        have timers : w''.timers = w.timers := apart_timers same
        have published : w''.own.published = w.own.published := apart_published same
        exact ⟨timers, Or.inr published⟩
      · cases early

end Update

section Refinement

variable {w}

theorem timers_note (act : CloneAct) : (w.note act).timers = w.timers.note act := rfl

theorem timers_startShutdown : w.startShutdown.timers =
      { w.timers with shutdown := if w.outlet = true ∧ w.timerShutdown < 0 then w.offdelay else w.timerShutdown } := by
  unfold startShutdown
  split
  · rfl
  · rfl

theorem timers_instcmd (cmdname : CString) (extra : Option CString) (now : Int) :
    (w.instcmd cmdname extra now).1.timers =
      if isCommand cmdname "shutdown.return" then w.timers.accept false w.outlet now
      else if isCommand cmdname "shutdown.stayoff" then w.timers.accept true w.outlet now
      else w.timers := by
  have begins := @timers_startShutdown D w
  have arm (start : Int) (act : CloneAct) : ({ w.startShutdown with timerStart := start }.note act).timers =
      { w.startShutdown.timers with start := start, journal := w.startShutdown.timers.journal ++ [act] } := rfl
  unfold instcmd
  split
  · rw [arm, begins]
    rfl
  · split
    · rw [arm, begins]
      rfl
    · rfl

theorem timers_sendLoad (reached : w.connected = true) (load : Option CString) (act : CloneAct) (sends : Bool) :
    (w.sendLoad load act sends).timers = if load.isSome && sends then w.timers.note act else w.timers := by
  unfold sendLoad sstateSendline
  cases load with
  | none => rfl
  | some cmd =>
    cases sends
    · simp [reached]
    · simp [reached]
      rfl

@[simp] theorem timers_reportStatus (now : Int) :
    (w.reportStatus now).timers = w.timers.note (.checked (w.reportStatus now).online now) := by
  unfold reportStatus call note
  dsimp only
  split <;> rfl

theorem reportStatus_rest (now : Int) :
    (w.reportStatus now).connected = w.connected ∧ (w.reportStatus now).loadOn = w.loadOn := by
  unfold reportStatus call note
  dsimp only
  split <;> exact ⟨rfl, rfl⟩

theorem timers_assume (assumed outlet : Bool) :
    (if assumed then { w with outlet := outlet } else w).timers = w.timers := by
  cases assumed <;> rfl

theorem timers_endShutdown (reached : w.connected = true) (now : Int) (sends : Bool) :
    (w.endShutdown now sends).timers = w.timers.switchOff now sends := by
  have sent := @timers_sendLoad D ({ w with timerShutdown := -1 }.note (.expired now)) reached w.loadOff
    (.loadOff now) sends
  unfold endShutdown
  dsimp only
  rw [timers_assume, sent]
  rfl

theorem timers_endStart (reached : w.connected = true) (now : Int) (sends : Bool) :
    (w.endStart now sends).timers = w.timers.switchOn now (w.loadOn.isSome && sends) := by
  have sent := @timers_sendLoad D { w with timerStart := -1 } reached w.loadOn (.loadOn now) sends
  unfold endStart
  dsimp only
  rw [timers_assume, sent]
  rfl

theorem timers_countShutdown (reached : w.connected = true) (now : Int) (sends : Bool) :
    (w.countShutdown now sends).timers = w.timers.countOff (now - w.lastPoll) now sends := by
  have ended := @timers_endShutdown D (w.call (.statusSet (cstr "FSD"))) reached now sends
  unfold countShutdown
  dsimp only
  split
  next ends => exact ended.trans (if_pos ends).symm
  next runs => exact (if_neg runs).symm

theorem timers_countStart (reached : w.connected = true) (now : Int) (sends : Bool) : (w.countStart now sends).timers =
      w.timers.countOn w.online (now - w.lastPoll) now (w.loadOn.isSome && sends) := by
  have left : w.startLeft now = w.timers.left w.online (now - w.lastPoll) := rfl
  unfold countStart OutletTimers.countOn
  rw [left]
  split
  · exact timers_endStart reached now sends
  · rfl

theorem timers_publishTimers : w.publishTimers.timers = w.timers := rfl

theorem timers_lastPoll (now : Int) : { w with lastPoll := now }.timers = w.timers.polledAt now := rfl

theorem timers_finishUpdate (now : Int) : (w.finishUpdate now).timers = w.timers.polledAt now := by
  rw [finishUpdate, timers_lastPoll, timers_statusCommit, timers_publishTimers]

end Refinement

section Published

variable {w} {now : Int} {sends : Bool}

theorem showsFsd_append {w' : Clone D} {published : List CString} {value : CString}
    (last : w'.own.published = published ++ [value]) (fsd : strContainsToken value (cstr "FSD") = true) :
    w'.showsFsd = true := by
  simp [showsFsd, last, fsd]

theorem finishUpdate_fsd (carries : w.own.CarriesFsd) : (w.finishUpdate now).showsFsd = true := by
  have same : w.publishTimers.own.CarriesFsd := carries
  obtain ⟨_, value, last, fsd⟩ := same.statusCommit w.publishTimers.clock (w.publishTimers.trends.headD .unknown)
  exact showsFsd_append last fsd

theorem sendLoad_own (load : Option CString) (act : CloneAct) : (w.sendLoad load act sends).own = w.own := by
  unfold sendLoad sstateSendline
  cases load with
  | none => rfl
  | some cmd =>
    dsimp only
    split <;> rfl

theorem countShutdown_own : (w.countShutdown now sends).own = w.own.statusSet (cstr "FSD") := by
  have ended (w : Clone D) : (w.endShutdown now sends).own = w.own := by
    have sent := @sendLoad_own D ({ w with timerShutdown := -1 }.note (.expired now)) sends w.loadOff (.loadOff now)
    unfold endShutdown
    dsimp only
    split <;> exact sent
  unfold countShutdown
  dsimp only
  split
  · exact ended _
  · rfl

theorem startShutdown_starts (idle : w.timerShutdown < 0) (runs : 0 ≤ w.startShutdown.timerShutdown) :
    w.startsCountdown = true := by
  have begun : w.startShutdown.timerShutdown = _ := congrArg OutletTimers.shutdown (@timers_startShutdown D w)
  rw [begun] at runs
  by_cases begins : w.outlet = true ∧ w.timerShutdown < 0
  · have positive : 0 ≤ w.offdelay := by simpa [begins] using runs
    simp [startsCountdown, begins, positive]
  · have still : 0 ≤ w.timerShutdown := by simpa [begins] using runs
    exact absurd still (Int.not_le.mpr idle)

theorem startShutdown_fsd (room : w.own.RoomForFsd) (starts : w.startsCountdown = true) :
    w.startShutdown.own.CarriesFsd ∧ w.startShutdown.showsFsd = true := by
  have set := Status.statusSet_fsd room
  have begins : w.outlet = true ∧ w.timerShutdown < 0 := by
    simp only [startsCountdown, Bool.and_eq_true, decide_eq_true_eq] at starts
    exact starts.1
  have armed : w.startShutdown =
      ({ w with timerShutdown := w.offdelay }.call (.statusSet (cstr "FSD"))).statusCommit := if_pos begins
  obtain ⟨kept, value, last, fsd⟩ := set.statusCommit w.clock (w.trends.headD .unknown)
  rw [armed]
  exact ⟨kept, showsFsd_append last fsd⟩

theorem finishUpdate_shutdown : (w.finishUpdate now).timerShutdown = w.timerShutdown := by
  rw [<- timers_shutdown, timers_finishUpdate]
  rfl

theorem startShutdown_shows (before : 0 ≤ w.timerShutdown -> w.showsFsd = true)
    (room : w.startsCountdown = true -> w.own.RoomForFsd) (runs : 0 ≤ w.startShutdown.timerShutdown) :
    w.startShutdown.showsFsd = true := by
  by_cases idle : w.timerShutdown < 0
  · have starts := startShutdown_starts idle runs
    exact (startShutdown_fsd (room starts) starts).2
  · have same : w.startShutdown = w := if_neg fun begins => idle begins.2
    rw [same]
    exact before (Int.not_lt.mp idle)

end Published

section Counted

variable [CDouble D] {w} {now : Int} {sends : Bool}

theorem timers_counted (reached : w.connected = true) (now : Int) (sends : Bool) :
    (((w.reportStatus now).countTimers now sends).finishUpdate now).timers =
      if 0 ≤ w.timerShutdown then
        (w.timers.check (w.reportStatus now).online now).countOff (now - w.lastPoll) now sends
      else if 0 ≤ w.timerStart then
        (w.timers.check (w.reportStatus now).online now).countOn (w.reportStatus now).online (now - w.lastPoll) now
          (w.loadOn.isSome && sends)
      else if (!(w.reportStatus now).online && (w.reportStatus now).outlet && (w.reportStatus now).isLow) = true then
        (w.timers.check (w.reportStatus now).online now).accept false (w.reportStatus now).outlet now
      else w.timers.check (w.reportStatus now).online now := by
  have same := @timers_reportStatus D w now
  obtain ⟨connected, loadOn⟩ := @reportStatus_rest D w now
  have still : (w.reportStatus now).connected = true := connected.trans reached
  have shutdown : (w.reportStatus now).timerShutdown = w.timerShutdown := congrArg OutletTimers.shutdown same
  have start : (w.reportStatus now).timerStart = w.timerStart := congrArg OutletTimers.start same
  have polled : (w.reportStatus now).lastPoll = w.lastPoll := congrArg OutletTimers.lastPoll same
  have checked : (w.reportStatus now).timers.polledAt now = w.timers.check (w.reportStatus now).online now :=
    congrArg (fun t => t.polledAt now) same
  rw [timers_finishUpdate, countTimers, shutdown, start]
  split
  next => rw [timers_countShutdown still, OutletTimers.polledAt_countOff, checked, polled]
  next =>
    split
    next => rw [timers_countStart still, OutletTimers.polledAt_countOn, checked, polled, loadOn]
    next =>
      rw [watchBattery]
      split
      next => rw [timers_instcmd, if_pos (by decide), OutletTimers.polledAt_accept, checked]
      next => exact checked

theorem sound_counted {before : Clone D} (same : w.timers = before.timers) (reached : w.connected = true)
    (sound : before.timers.Sound now) (steady : before.SteadyUpdate (w.reportStatus now) now sends) :
    (((w.reportStatus now).countTimers now sends).finishUpdate now).timers.Sound now := by
  obtain ⟨off, on, _⟩ := steady
  have shutdown : w.timerShutdown = before.timerShutdown := congrArg OutletTimers.shutdown same
  have start : w.timerStart = before.timerStart := congrArg OutletTimers.start same
  have polled : w.lastPoll = before.lastPoll := congrArg OutletTimers.lastPoll same
  rw [timers_counted reached, same, shutdown, start, polled]
  split
  next counting => exact sound.countOff counting fun ended switched => (off counting).2 ended switched
  next idle =>
    have idle : before.timerShutdown < 0 := Int.not_le.mp idle
    split
    next waiting => exact sound.countOn idle waiting (on idle waiting)
    next settled =>
      have settled : before.timerStart < 0 := Int.not_le.mp settled
      have checked := @OutletTimers.Sound.check before.timers now (w.reportStatus now).online sound idle settled
      split
      · exact checked.accept fun _ => Int.le_of_lt (Int.lt_succ now)
      · exact checked

theorem watchBattery_fsd (idle : w.timerShutdown < 0) (runs : 0 ≤ (w.watchBattery now).timerShutdown)
    (room : (!w.online && w.isLow && w.startsCountdown) = true -> w.own.RoomForFsd) :
    (w.watchBattery now).own.CarriesFsd := by
  unfold watchBattery at runs ⊢
  split at runs
  next low =>
    have commanded : (w.instcmd (cstr "shutdown.return") none now).1 =
        { w.startShutdown with timerStart := w.ondelay }.note (.accepted false w.outlet w.startsCountdown now) := by
      rw [instcmd, if_pos (by decide)]
    rw [if_pos low]
    rw [commanded] at runs ⊢
    have starts := startShutdown_starts idle runs
    have both : (!w.online && w.isLow && w.startsCountdown) = true := by
      simp only [Bool.and_eq_true] at low ⊢
      exact ⟨⟨low.1.1, low.2⟩, starts⟩
    exact (startShutdown_fsd (room both) starts).1
  next => exact absurd runs (Int.not_le.mpr idle)

theorem counted_fsd {before : Clone D} (same : w.timers = before.timers) (reached : w.connected = true)
    (steady : before.SteadyUpdate (w.reportStatus now) now sends) : (0 ≤ before.timerShutdown ∨
        0 ≤ (((w.reportStatus now).countTimers now sends).finishUpdate now).timerShutdown) ->
      (((w.reportStatus now).countTimers now sends).finishUpdate now).showsFsd = true := by
  obtain ⟨off, _, low⟩ := steady
  have reported := @timers_reportStatus D w now
  rw [same] at reported
  have shutdown : (w.reportStatus now).timerShutdown = before.timerShutdown := congrArg OutletTimers.shutdown reported
  have start : (w.reportStatus now).timerStart = before.timerStart := congrArg OutletTimers.start reported
  have still : (w.reportStatus now).connected = true := (reportStatus_rest now).1.trans reached
  rintro running
  rw [finishUpdate_shutdown, countTimers, shutdown, start] at running
  rw [countTimers, shutdown, start]
  split at running
  next counting =>
    rw [if_pos counting]
    apply finishUpdate_fsd
    rw [countShutdown_own]
    exact Status.statusSet_fsd (off counting).1
  next idle =>
    have idle : before.timerShutdown < 0 := Int.not_le.mp idle
    have runs := running.resolve_left (Int.not_le.mpr idle)
    have notYet : ¬ before.timerShutdown ≥ 0 := Int.not_le.mpr idle
    rw [if_neg notYet]
    split at runs
    next waiting =>
      -- The start countdown leaves the other one alone.
      have counted := @timers_countStart D (w.reportStatus now) still now sends
      have kept : ((w.reportStatus now).countStart now sends).timerShutdown = before.timerShutdown :=
        (congrArg OutletTimers.shutdown counted).trans ((OutletTimers.countOn_shutdown _ _ _ _ _).trans shutdown)
      exact absurd (kept ▸ runs) (Int.not_le.mpr idle)
    next settled =>
      rw [if_neg settled]
      apply finishUpdate_fsd
      rw [<- shutdown] at idle
      exact watchBattery_fsd idle runs (low (shutdown ▸ idle) (Int.not_le.mp settled))

end Counted

section Run

variable [CDouble D] {w}

structure Kept (w : Clone D) (now : Int) : Prop where
  timers : w.timers.Sound now
  shows : 0 ≤ w.timerShutdown -> w.showsFsd = true

theorem kept_update {round : CloneRound} {now : Int} (kept : w.Kept now) (later : now ≤ round.now)
    (throttled : round.now ≤ round.later) (steady : w.Steady round) : (w.upsdrvUpdateinfo round).Kept round.later ∧
      (0 ≤ w.timerShutdown -> (w.upsdrvUpdateinfo round).showsFsd = true) := by
  have polled : now ≤ w.polledAt round ∧ w.polledAt round ≤ round.later := by
    unfold polledAt
    split <;> omega
  have sound := kept.timers.later polled.1
  have dead : ((w.opened round.clock round.trends).sstateDead 15 round.deadTime round.pings).2 =
      (w.sstateDead 15 round.deadTime round.pings).2 := by
    unfold sstateDead opened
    dsimp only
    split_ifs <;> rfl
  rcases read : (w.opened round.clock round.trends).listen round with ⟨heard, goesOn⟩
  cases goesOn with
  | false =>
    simp only [Steady, read] at steady
    simp only [upsdrvUpdateinfo, read]
    obtain ⟨timers, connection⟩ := listen_early read
    have shutdown : heard.timerShutdown = w.timerShutdown := congrArg OutletTimers.shutdown timers
    have shows : 0 ≤ w.timerShutdown -> (heard.note (.gaveUp (w.polledAt round))).showsFsd = true := by
      intro running
      rcases connection with ⟨isDead, connects⟩ | published
      · have refused := steady running (dead ▸ isDead)
        exact absurd (refused.symm.trans connects) (by decide)
      · have before := kept.shows running
        unfold showsFsd at before ⊢
        exact published ▸ before
    refine ⟨⟨?_, fun running => shows (shutdown ▸ running)⟩, shows⟩
    have gaveUp := sound.gaveUp
    rw [timers_note, timers]
    exact gaveUp.later polled.2
  | true =>
    simp only [Steady, read] at steady
    simp only [upsdrvUpdateinfo, read]
    obtain ⟨apart, reached⟩ := listen_heard read
    have timers : heard.timers = w.timers := apart_timers apart
    have fsd := counted_fsd timers reached steady
    refine ⟨⟨?_, fun running => fsd (Or.inr running)⟩, fun running => fsd (Or.inl running)⟩
    exact (sound_counted timers reached sound steady).later polled.2

omit [CDouble D] in
theorem kept_instcmd {cmdname : CString} {extra : Option CString} {now time : Int} {trend : Trend} (kept : w.Kept time)
    (later : time ≤ now) (prompt : w.PromptCommand cmdname now) :
    ((w.opened now [trend]).instcmd cmdname extra now).1.Kept now := by
  have sound : (w.opened now [trend]).timers.Sound now := kept.timers.later later
  have refined := @timers_instcmd D (w.opened now [trend]) cmdname extra now
  have shows (start : Int) (act : CloneAct) (room : w.startsCountdown = true -> w.own.RoomForFsd) :
      0 ≤ (w.opened now [trend]).startShutdown.timerShutdown ->
        ({ (w.opened now [trend]).startShutdown with timerStart := start }.note act).showsFsd = true :=
    startShutdown_shows kept.shows room
  constructor
  · rw [refined]
    split
    next isReturn => exact sound.accept fun starts => (prompt (by simp [isReturn]) starts).1
    next =>
      split
      next isStayoff => exact sound.accept fun starts => (prompt (by simp [isStayoff]) starts).1
      next => exact sound
  · unfold instcmd
    split
    next isReturn => exact shows _ _ fun starts => (prompt (by simp [isReturn]) starts).2
    next =>
      split
      next isStayoff => exact shows _ _ fun starts => (prompt (by simp [isStayoff]) starts).2
      next => exact kept.shows

theorem kept_setvar {varname val : CString} {now time : Int} (kept : w.Kept time) :
    ((w.opened now []).setvar varname val).1.Kept time := by
  have same : ((w.opened now []).setvar varname val).1.apart = w.apart := by
    unfold setvar
    split
    · rfl
    · split <;> rfl
  have timers := apart_timers same
  have published := apart_published same
  constructor
  · exact timers ▸ kept.timers
  · intro running
    have shutdown : ((w.opened now []).setvar varname val).1.timerShutdown = w.timerShutdown :=
      congrArg OutletTimers.shutdown timers
    have before := kept.shows (shutdown ▸ running)
    unfold showsFsd at before ⊢
    exact published ▸ before

theorem kept_step {event : CloneEvent} {now : Int} {later : List Int} (kept : w.Kept now)
    (clock : (now :: (event.readings ++ later)).Pairwise (· ≤ ·)) (undisturbed : w.Undisturbed event) :
    ∃ next, (w.step event).Kept next ∧ (next :: later).Pairwise (· ≤ ·) := by
  cases event with
  | update round =>
    simp only [CloneEvent.readings, List.cons_append, List.nil_append, List.pairwise_cons, List.mem_cons] at clock
    obtain ⟨first, second, third, rest⟩ := clock
    exact ⟨round.later, (kept_update kept (first _ (Or.inl rfl)) (second _ (Or.inl rfl)) undisturbed).1,
      List.pairwise_cons.mpr ⟨third, rest⟩⟩
  | instcmd cmdname extra at_ trend =>
    simp only [CloneEvent.readings, List.cons_append, List.nil_append, List.pairwise_cons, List.mem_cons] at clock
    obtain ⟨first, second, rest⟩ := clock
    exact ⟨at_, kept_instcmd kept (first _ (Or.inl rfl)) undisturbed, List.pairwise_cons.mpr ⟨second, rest⟩⟩
  | setvar varname val at_ => exact ⟨now, kept_setvar kept, clock⟩

theorem kept_run {events : List CloneEvent} {now : Int} {later : List Int} (kept : w.Kept now)
    (clock : (now :: (events.flatMap CloneEvent.readings ++ later)).Pairwise (· ≤ ·))
    (undisturbed : Always step (EachAction Undisturbed) w events) :
    ∃ last, (events.foldl step w).Kept last ∧ (last :: later).Pairwise (· ≤ ·) := by
  induction events generalizing w now with
  | nil => exact ⟨now, kept, clock⟩
  | cons event events ih =>
    rw [List.flatMap_cons, List.append_assoc] at clock
    obtain ⟨next, here, after⟩ := kept_step kept clock undisturbed.1
    exact ih here after undisturbed.2

theorem step_settings (event : CloneEvent) : (w.step event).timers.settings = w.timers.settings := by
  cases event with
  | update round =>
    change (w.upsdrvUpdateinfo round).timers.settings = (w.opened round.clock round.trends).timers.settings
    unfold upsdrvUpdateinfo
    split
    next heard early =>
      have timers := congrArg OutletTimers.settings (listen_early early).1
      exact timers
    next heard goesOn =>
      obtain ⟨apart, reached⟩ := listen_heard goesOn
      rw [timers_counted reached, <- apart_timers apart]
      split
      · exact OutletTimers.countOff_settings _ _ _ _
      · split
        · exact OutletTimers.countOn_settings _ _ _ _ _
        · split <;> rfl
  | instcmd cmdname extra now trend =>
    change ((w.opened now [trend]).instcmd cmdname extra now).1.timers.settings = (w.opened now [trend]).timers.settings
    rw [timers_instcmd]
    split
    · rfl
    · split <;> rfl
  | setvar varname val now =>
    change ((w.opened now []).setvar varname val).1.timers.settings = (w.opened now []).timers.settings
    unfold setvar
    split
    · rfl
    · split <;> rfl

theorem run_settings (events : List CloneEvent) : (events.foldl step w).timers.settings = w.timers.settings := by
  induction events generalizing w with
  | nil => rfl
  | cons event events ih => exact ih.trans (step_settings event)

theorem outletTiming_run {events : List CloneEvent} {now : Int} (kept : w.Kept now)
    (clock : (now :: events.flatMap CloneEvent.readings).Pairwise (· ≤ ·))
    (undisturbed : Always step (EachAction Undisturbed) w events) : w.OutletTiming events where
  acts := by
    have whole : (now :: (events.flatMap CloneEvent.readings ++ [])).Pairwise (· ≤ ·) := by simpa using clock
    obtain ⟨last, final, _⟩ := kept_run kept whole undisturbed
    have settings := @run_settings D w _ events
    have offdelay : (events.foldl step w).offdelay = w.offdelay := congrArg Prod.fst settings
    have ondelay : (events.foldl step w).ondelay = w.ondelay := congrArg (fun s => s.2.1) settings
    rw [<- offdelay, <- ondelay]
    exact final.timers.acts
  once := by
    rintro switched before after rfl
    rw [List.flatMap_append] at clock
    obtain ⟨last, reached, _⟩ := kept_run kept clock (always_upto undisturbed)
    have settings := @run_settings D w _ before
    have still : (before.foldl step w).loadOff.isSome = w.loadOff.isSome := congrArg (fun s => s.2.2) settings
    have written := reached.timers.written (still.trans switched)
    have begun := reached.timers.begun
    exact written ▸ begun
  fsd := by
    rintro before round after rfl running
    rw [List.flatMap_append, List.flatMap_cons] at clock
    obtain ⟨last, reached, later⟩ := kept_run kept clock (always_upto undisturbed)
    simp only [CloneEvent.readings, List.cons_append, List.nil_append, List.pairwise_cons, List.mem_cons] at later
    obtain ⟨first, second, _⟩ := later
    exact (kept_update reached (first _ (Or.inl rfl)) (second _ (Or.inl rfl)) (always_behind undisturbed).1).2 running

theorem timers_initinfo (w : Clone D) (getval : String -> Option CString) (now : Int) :
    (w.upsdrvInitinfo getval now).timers.shutdown = w.timers.shutdown ∧
      (w.upsdrvInitinfo getval now).timers.start = w.timers.start ∧
      (w.upsdrvInitinfo getval now).timers.journal = w.timers.journal ∧
      (w.upsdrvInitinfo getval now).timers.lastPoll = now := by
  simp only [upsdrvInitinfo, timers_publishTimers, timers_dstate]
  simp only [timers, true_and, dstate, call]

theorem kept_initinfo {getval : String -> Option CString} {now : Int} (idle : w.timers.shutdown = -1)
    (settled : w.timers.start = -1) (empty : w.timers.journal = []) : (w.upsdrvInitinfo getval now).Kept now := by
  obtain ⟨shutdown, start, journal, lastPoll⟩ := timers_initinfo w getval now
  have off : (w.upsdrvInitinfo getval now).timers.shutdown < 0 := by omega
  have on : (w.upsdrvInitinfo getval now).timers.start < 0 := by omega
  constructor
  · exact OutletTimers.sound_idle (Int.le_of_eq lastPoll) off on (journal.trans empty)
  · intro running
    rw [<- timers_shutdown] at running
    exact absurd running (Int.not_le.mpr off)

theorem kept_start (own : Status) (contact : CloneContact) (getval : String -> Option CString) (now : Int) :
    (start own contact getval now : Clone D).Kept now := by
  have connected := timers_sstateConnect ((globals own).opened now [] : Clone D) contact
  apply kept_initinfo
  · exact congrArg OutletTimers.shutdown connected
  · exact congrArg OutletTimers.start connected
  · exact congrArg OutletTimers.journal connected

end Run

-- In a run that nothing disturbs the outlet is switched in time, and `FSD` announces it.
theorem outlet_timing {D : Type} [CDouble D] {own : Status} {contact : CloneContact} {getval : String -> Option CString}
    {now : Int} {events : List CloneEvent} (clock : (now :: events.flatMap CloneEvent.readings).Pairwise (· ≤ ·))
    (undisturbed : Always step (EachAction Undisturbed) (start own contact getval now : Clone D) events) :
    (start own contact getval now : Clone D).OutletTiming events :=
  outletTiming_run (kept_start own contact getval now) clock undisturbed

end Clone

instance : CDouble Int where
  zero := 0
  strtod text := (strtol text).toInt
  less low high := decide (low < high)
  print value := printInt value ++ cstr ".000000"

namespace Clone

instance SteadyUpdate.decidable {D : Type} [CDouble D] (w heard : Clone D) (now : Int) (sends : Bool) :
    Decidable (w.SteadyUpdate heard now sends) :=
  inferInstanceAs (Decidable (_ ∧ _ ∧ _))

instance Steady.decidable {D : Type} [CDouble D] (w : Clone D) (round : CloneRound) : Decidable (w.Steady round) :=
  match listened : (w.opened round.clock round.trends).listen round with
  | (_, false) => decidable_of_iff (0 ≤ w.timerShutdown -> (w.sstateDead 15 round.deadTime round.pings).2 = true ->
      round.contact.connects = false) (by simp [Steady, listened])
  | (heard, true) => decidable_of_iff (w.SteadyUpdate (heard.reportStatus (w.polledAt round)) (w.polledAt round)
      round.sends) (by simp [Steady, listened])

instance Undisturbed.decidable {D : Type} [CDouble D] (w : Clone D) : (event : CloneEvent) ->
    Decidable (w.Undisturbed event)
  | .update round => inferInstanceAs (Decidable (w.Steady round))
  | .instcmd _ _ _ _ => inferInstanceAs (Decidable (_ -> _ -> _ ∧ _))
  | .setvar _ _ _ => isTrue trivial

def sampleSettings (name : String) : Option CString :=
  if name = "offdelay" then some (cstr "5")
  else if name = "ondelay" then some (cstr "2")
  else if name = "load.off" then some (cstr "outlet.off")
  else if name = "load.on" then some (cstr "outlet.on")
  else none

def sampleStart : Clone Int :=
  start Status.start { connects := true, heardTime := 1000 } sampleSettings 1000

def sampleUpdate (now : Int) (read : CloneRead) (sends : Bool) : CloneEvent :=
  .update
    { now := now, later := now, deadTime := now, pings := true, contact := { connects := true, heardTime := now }
      read := read, lineTime := now, clock := now, trends := [], sends := sends }

def sampleDump : CloneRead :=
  .bytes (cstr "SETINFO ups.status \"OL\"\nDATAOK\nDUMPDONE\n")

def sampleReturn (now : Int) : CloneEvent :=
  .instcmd (cstr "shutdown.return") none now .unknown

def sampleEvents : List CloneEvent :=
  [sampleUpdate 1002 sampleDump true, sampleReturn 1003, sampleUpdate 1004 .later true, sampleUpdate 1006 .later true,
    sampleUpdate 1008 .later true, sampleUpdate 1010 .later true, sampleUpdate 1012 .later true]

theorem outlet_timing_sample : (sampleEvents.foldl step sampleStart).journal.filter
        (fun act => act = .loadOff 1008 ∨ act = .loadOn 1012) = [.loadOff 1008, .loadOn 1012] ∧
      sampleStart.OutletTiming sampleEvents :=
  ⟨by decide +kernel, outlet_timing (by decide +kernel) (by decide +kernel)⟩

def lateCommand : List CloneEvent :=
  [sampleUpdate 1002 sampleDump true, sampleReturn 1010, sampleUpdate 1011 .later true]

def outage : List CloneEvent :=
  [sampleUpdate 1002 sampleDump true, sampleReturn 1003, sampleUpdate 1004 .later true, sampleUpdate 1008 .later true,
    sampleUpdate 1010 .failed true, sampleUpdate 1012 .later true, sampleUpdate 1014 .later true]

def unsent : List CloneEvent :=
  [sampleUpdate 1002 sampleDump true, sampleReturn 1003, sampleUpdate 1004 .later true, sampleUpdate 1008 .later false]

def silence : List CloneEvent :=
  [sampleUpdate 1002 sampleDump true, sampleReturn 1003, sampleUpdate 1018 .later true]

-- With a clock that does not go back, each part of the timing can fail.
theorem outlet_timing_fails :
    ((1000 :: lateCommand.flatMap CloneEvent.readings).Pairwise (· ≤ ·) ∧ ¬ sampleStart.OutletTiming lateCommand) ∧
      ((1000 :: outage.flatMap CloneEvent.readings).Pairwise (· ≤ ·) ∧ ¬ sampleStart.OutletTiming outage) ∧
      ((1000 :: unsent.flatMap CloneEvent.readings).Pairwise (· ≤ ·) ∧ ¬ sampleStart.OutletTiming unsent) ∧
      (1000 :: silence.flatMap CloneEvent.readings).Pairwise (· ≤ ·) ∧ ¬ sampleStart.OutletTiming silence := by
  refine ⟨⟨by decide +kernel, fun timing => ?_⟩, ⟨by decide +kernel, fun timing => ?_⟩,
    ⟨by decide +kernel, fun timing => ?_⟩, by decide +kernel, fun timing => ?_⟩
  · have tooEarly := timing.acts [.checked true 1002, .accepted false true true 1010, .checked true 1011, .expired 1011]
      (.loadOff 1011) [] (by decide +kernel)
    obtain ⟨time, ⟨front, stayoff, back, split, _⟩, early⟩ := tooEarly
    have delay : sampleStart.offdelay = 5 := by decide +kernel
    have member : CloneAct.accepted stayoff true true time ∈ front ++ CloneAct.accepted stayoff true true time :: back := by simp
    rw [<- split] at member
    obtain ⟨_, same⟩ : stayoff = false ∧ time = 1010 := by simpa using member
    omega
  · have unheard := timing.acts [.checked true 1002, .accepted false true true 1003, .checked true 1004,
      .checked true 1008, .expired 1008, .loadOff 1008, .gaveUp 1010, .gaveUp 1012, .checked true 1014]
      (.loadOn 1014) [] (by decide +kernel)
    have delay : sampleStart.ondelay = 2 := by decide +kernel
    have offline := unheard.2.1 (.gaveUp 1012) (by simp) 1012 rfl
    omega
  · have lost := timing.once (by decide +kernel) unsent [] (by simp)
    revert lost
    decide +kernel
  · have hidden := timing.fsd [sampleUpdate 1002 sampleDump true, sampleReturn 1003] _ [] rfl (by decide +kernel)
    revert hidden
    decide +kernel

end Clone

end Nut
