import Mathlib.Data.List.TakeWhile
import Nut.Drivers.NutdrvQx
import Nut.Library.Runs

set_option autoImplicit false

namespace Nut

theorem reportsOf_flatten (bytes : CString) : ∃ fill, (reportsOf bytes).flatten = bytes ++ List.replicate fill 0 := by
  fun_induction reportsOf bytes with
  | case1 => exact ⟨0, by simp⟩
  | case2 a b c d e f g h rest ih =>
    obtain ⟨fill, whole⟩ := ih
    exact ⟨fill, by simp [whole]⟩
  | case3 last => exact ⟨8 - last.length, by simp⟩

namespace Bridge

def stream (b : Bridge) : List UsbReport :=
  b.queue ++ b.coming

theorem moves_calm {moves : List BridgeMove} (calm : ∀ move ∈ moves, move = .arrive) (b : Bridge) :
    (b.moves moves).stream = b.stream := by
  induction moves generalizing b with
  | nil => rfl
  | cons move moves ih =>
    have first : move = .arrive := calm move List.mem_cons_self
    have later : ∀ move ∈ moves, move = .arrive := fun move member => calm move (List.mem_cons_of_mem _ member)
    have arrived : (b.move .arrive).stream = b.stream := by
      cases coming : b.coming with
      | nil => simp [Bridge.move, coming]
      | cons report rest => simp [Bridge.move, stream, coming]
    rw [first]
    exact (ih later _).trans arrived

end Bridge

theorem usbInterruptRead_calm {b b' : Bridge} {choice : ReadChoice} {report : UsbReport}
    (calm : ∀ move ∈ choice.moves, move = .arrive) (read : usbInterruptRead b choice = (b', .ok report)) :
    b.stream = report :: b'.stream := by
  have same := Bridge.moves_calm calm b
  unfold usbInterruptRead at read
  dsimp only at read
  split at read
  · cases read
  · split at read
    · cases read
    next first queue split =>
      cases read
      rw [<- same, Bridge.stream, split]
      rfl

theorem sendLoop_calm {choice : Nat -> WriteChoice} (calm : ∀ k, ∀ move ∈ (choice k).moves, move = .arrive)
    (tmplen fuel i wrote : Nat) (b : Bridge) : (sendLoop choice tmplen fuel i wrote b).1.stream = b.stream := by
  induction fuel generalizing i wrote b with
  | zero => rfl
  | succ fuel ih =>
    have same := Bridge.moves_calm (calm wrote) b
    unfold sendLoop
    split
    · dsimp only
      split
      · exact same
      · exact same
      · exact (ih _ _ _).trans same
    · rfl

theorem replyLoop_calm {choice : Nat -> ReadChoice} (calm : ∀ k, ∀ move ∈ (choice k).moves, move = .arrive)
    (buflen fuel k : Nat) (buf : CString) (b : Bridge) :
    ∃ rest, (replyLoop choice buflen fuel k buf b).2.1 ++ rest = buf ++ b.stream.flatten := by
  induction fuel generalizing k buf b with
  | zero => exact ⟨_, rfl⟩
  | succ fuel ih =>
    unfold replyLoop
    split
    · split
      next => exact ⟨_, rfl⟩
      next => exact ⟨_, rfl⟩
      next b' report _ read =>
        obtain ⟨rest, whole⟩ := ih (k + 1) (buf ++ report) b'
        refine ⟨rest, whole.trans ?_⟩
        rw [usbInterruptRead_calm (calm k) read]
        simp
    · exact ⟨_, rfl⟩

theorem takeWhile_reply {text buf rest padding : CString} (noCr : 13 ∉ text) (cr : 13 ∈ buf)
    (front : buf ++ rest = text ++ 13 :: padding) : buf.takeWhile (· ≠ 13) = text := by
  have whole : (text ++ 13 :: padding).takeWhile (· ≠ 13) = text := by
    rw [List.takeWhile_append_of_pos fun b member => by
      simpa using fun isCr : b = 13 => noCr (isCr ▸ member)]
    simp
  rw [<- front, List.takeWhile_append] at whole
  split at whole
  next all =>
    have same : buf.takeWhile (· ≠ 13) = buf := (List.takeWhile_prefix _).eq_of_length all
    rw [<- same] at cr
    exact absurd (List.mem_takeWhile_imp cr) (by decide)
  next => exact whole

namespace QxUsb

def Calm (call : QxCall) : Prop :=
  (∀ k, ∀ move ∈ (call.write k).moves, move = .arrive) ∧ ∀ k, ∀ move ∈ (call.read k).moves, move = .arrive

def Settled (s : QxUsb) (call : QxCall) : Prop :=
  ∀ b, s.drained call = (b, .idle) -> b.stream = []

theorem cypressCommand_buf {s : QxUsb} {call : QxCall} (some_ : (s.cypressCommand call).2.buf ≠ []) :
    ∃ idle sent wrote, s.drained call = (idle, .idle) ∧
      sendLoop call.write (min call.cmdlen smallbuf) (min call.cmdlen smallbuf) 0 0 idle = (sent, wrote, none) ∧
      (s.cypressCommand call).2.buf = (replyLoop call.read call.buflen call.buflen 0 []
        { sent with coming := sent.coming ++ reportsOf (call.reply.val ++ [13]) }).2.1 := by
  unfold cypressCommand at some_ ⊢
  cases drained : s.drained call with
  | mk idle ending =>
    rw [drained] at some_
    cases ending with
    | stop ret => exact absurd rfl some_
    | idle =>
      dsimp only at some_ ⊢
      split at some_
      next => exact absurd rfl some_
      next sent wrote written =>
        refine ⟨idle, sent, wrote, rfl, written, ?_⟩
        split
        next read => rw [read]
        next read => rw [read]

theorem cypressCommand_reply {s : QxUsb} {call : QxCall} (settled : s.Settled call) (calm : Calm call)
    (cr : 13 ∈ (s.cypressCommand call).2.buf) : (s.cypressCommand call).2.buf.takeWhile (· ≠ 13) = call.reply.val := by
  obtain ⟨idle, sent, wrote, drained, written, buf⟩ := cypressCommand_buf (List.ne_nil_of_mem cr)
  have empty : sent.stream = [] := by
    have same := sendLoop_calm calm.1 (min call.cmdlen smallbuf) (min call.cmdlen smallbuf) 0 0 idle
    rw [written] at same
    exact same.trans (settled idle drained)
  have only : Bridge.stream { sent with coming := sent.coming ++ reportsOf (call.reply.val ++ [13]) } =
      reportsOf (call.reply.val ++ [13]) := by
    obtain ⟨queue, coming⟩ := List.append_eq_nil_iff.mp empty
    simp [Bridge.stream, queue, coming]
  obtain ⟨fill, reports⟩ := reportsOf_flatten (call.reply.val ++ [13])
  obtain ⟨rest, front⟩ := replyLoop_calm calm.2 call.buflen call.buflen 0 []
    { sent with coming := sent.coming ++ reportsOf (call.reply.val ++ [13]) }
  rw [only, reports, <- buf] at front
  exact takeWhile_reply call.reply.property cr (by simpa using front)

theorem code_sync (error : UsbError) : error.code ≠ qxUsbErrorDesync := by
  cases error <;> decide

theorem sendLoop_sync {choice : Nat -> WriteChoice} {tmplen fuel i wrote : Nat} {b : Bridge} {ret : Int}
    (failed : (sendLoop choice tmplen fuel i wrote b).2.2 = some ret) : ret ≠ qxUsbErrorDesync := by
  induction fuel generalizing i wrote b with
  | zero => cases failed
  | succ fuel ih =>
    unfold sendLoop at failed
    split at failed
    · dsimp only at failed
      split at failed
      next error _ => exact Option.some.inj failed ▸ code_sync error
      next => exact Option.some.inj failed ▸ by decide
      next => exact ih failed
    · cases failed

theorem replyLoop_sync {choice : Nat -> ReadChoice} {buflen fuel k : Nat} {buf : CString} {b : Bridge} {ret : Int}
    (failed : (replyLoop choice buflen fuel k buf b).2.2 = some ret) : ret ≠ qxUsbErrorDesync := by
  induction fuel generalizing k buf b with
  | zero => cases failed
  | succ fuel ih =>
    unfold replyLoop at failed
    split at failed
    · split at failed
      next error _ => exact Option.some.inj failed ▸ code_sync error
      next => exact Option.some.inj failed ▸ by decide
      next => exact ih failed
    · cases failed

theorem cypressCommand_desync {s : QxUsb} {call : QxCall} (desync : (s.cypressCommand call).2.ret = qxUsbErrorDesync) :
    (s.cypressCommand call).2.wrote = 0 := by
  unfold cypressCommand at desync ⊢
  split at desync
  next b ret drained => rfl
  next b idle =>
    dsimp only at desync
    split at desync
    next written => exact absurd desync (sendLoop_sync (congrArg (fun r => r.2.2) written))
    next written =>
      split at desync
      next read => exact absurd desync (replyLoop_sync (congrArg (fun r => r.2.2) read))
      next buf _ =>
        have length : (buf.length : Int) = -1000 := desync
        omega

def step (s : QxUsb) (call : QxCall) : QxUsb :=
  if s.exited then s else (s.qxCommand call).1

-- What comes of a call: what it returns, whether it tries to reconnect, does so, or ends the driver in `open_dev`.
structure QxOutcome where
  ret : Option Int
  attempt : Bool
  succeeded : Bool
  ended : Bool
  deriving DecidableEq

def outcome (s : QxUsb) (call : QxCall) : QxOutcome :=
  { ret := (s.qxCommand call).2.map CypressResult.ret
    attempt := !s.opened
    succeeded := !s.opened && (s.qxCommand call).1.opened
    ended := !s.opened && call.openDev.isNone }

def outcomes : QxUsb -> List QxCall -> List QxOutcome
  | _, [] => []
  | s, call :: calls => (if s.exited then [] else [s.outcome call]) ++ outcomes (s.step call) calls

inductive GivesUp (reconnectMaxTries : Int32) (outcomes : List QxOutcome) : Prop where
  | busy {outcome : QxOutcome} (member : outcome ∈ outcomes) (busy : outcome.ret = some UsbError.busy.code)
  | unclaimed {outcome : QxOutcome} (member : outcome ∈ outcomes) (ended : outcome.ended = true)
  -- as `reconnect_max_tries` asks for
  | configured {earlier tried later : List QxOutcome} {last : QxOutcome} (split : outcomes = earlier ++ tried ++ last :: later)
    (inVain : ∀ outcome ∈ tried, outcome.succeeded = false) (attempt : last.attempt = true) (set_ : 0 ≤ reconnectMaxTries)
    (tooMany : reconnectMaxTries.toInt < tried.countP QxOutcome.attempt + 1)
  | desync {earlier desynced later : List Int} (split : outcomes.filterMap QxOutcome.ret = earlier ++ desynced ++ later)
    (failures : ∀ ret ∈ desynced, ret < 0) (tooOften : qxUsbDesyncResetTries < desynced.count qxUsbErrorDesync)

structure RepliesInStep (s : QxUsb) (calls : List QxCall) : Prop where
  reply : ∀ before call after, calls = before ++ call :: after -> (before.foldl step s).exited = false ->
    ∀ result, ((before.foldl step s).qxCommand call).2 = some result -> Calm call -> 13 ∈ result.buf ->
      result.buf.takeWhile (· ≠ 13) = call.reply.val
  unsent : ∀ before call after, calls = before ++ call :: after -> (before.foldl step s).exited = false ->
    ∀ result, ((before.foldl step s).qxCommand call).2 = some result -> result.ret = qxUsbErrorDesync -> result.wrote = 0
  exits : (calls.foldl step s).exited = true ∨ (calls.foldl step s).exitFlag = true ->
    GivesUp s.reconnectMaxTries (s.outcomes calls)

def Drains (s : QxUsb) (call : QxCall) : Prop :=
  s.exited = false -> ∀ at_, (s.waited call).connect call = (at_, true) -> at_.Settled call

theorem qxCommand_some {s : QxUsb} {call : QxCall} {result : CypressResult}
    (called : (s.qxCommand call).2 = some result) :
    ∃ at_, (s.waited call).connect call = (at_, true) ∧ (at_.cypressCommand call).2 = result := by
  unfold qxCommand at called
  split at called
  next => cases called
  next at_ connected =>
    exact ⟨at_, connected, Option.some.inj called⟩

-- How often the device was reset in a row for replies out of step.
def Counted (s : QxUsb) (returned : List Int) : Prop :=
  ∃ earlier later, returned = earlier ++ later ∧ (∀ ret ∈ later, ret < 0) ∧ later.count qxUsbErrorDesync = s.desyncResets

theorem cypressCommand_counters (s : QxUsb) (call : QxCall) :
    (s.cypressCommand call).1.desyncResets = s.desyncResets ∧ (s.cypressCommand call).1.exited = s.exited := by
  unfold cypressCommand
  split
  · exact ⟨rfl, rfl⟩
  · dsimp only
    split
    · exact ⟨rfl, rfl⟩
    · split <;> exact ⟨rfl, rfl⟩

theorem handleError_counters (s : QxUsb) (call : QxCall) (ret : Int) :
    (s.handleError call ret).desyncResets = (if ret = qxUsbErrorDesync then s.desyncResets + 1 else s.desyncResets) ∧
      ((s.handleError call ret).exited = true -> s.exited = true ∨ ret = UsbError.busy.code ∨
        qxUsbDesyncResetTries < (s.handleError call ret).desyncResets) := by
  have sync (error : UsbError) : error.code ≠ qxUsbErrorDesync := code_sync error
  unfold handleError
  split
  next busy => simp [busy, sync]
  next =>
    split
    next pipe =>
      cases call.haltCleared <;> simp +contextual [pipe, sync, reset, reconnect]
    next =>
      split
      next gone => rcases gone with gone | gone | gone | gone <;> simp +contextual [gone, sync, reconnect]
      next =>
        split
        next overflow => split <;> simp +contextual [overflow, sync, reset, reconnect]
        next =>
          split
          next desync =>
            split
            next tooOften => simp [tooOften]
            next => simp +contextual [reset, reconnect]
          next => simp +contextual

theorem countResult_counted {s : QxUsb} {call : QxCall} {ret : Int} {returned : List Int} (counted : s.Counted returned)
    (running : s.exited = false) : (s.countResult call ret).Counted (returned ++ [ret]) ∧
      ((s.countResult call ret).exited = true ->
        ret = UsbError.busy.code ∨ qxUsbDesyncResetTries < (s.countResult call ret).desyncResets) := by
  unfold countResult
  split
  next success => exact ⟨⟨returned ++ [ret], [], by simp, by simp, rfl⟩, by simp [running]⟩
  next failure =>
    obtain ⟨resets, exits⟩ := handleError_counters s call ret
    obtain ⟨earlier, later, split_, failures, count⟩ := counted
    refine ⟨⟨earlier, later ++ [ret], by simp [split_], ?_, ?_⟩, fun exited => ?_⟩
    · intro other member
      rcases List.mem_append.mp member with inside | last
      · exact failures other inside
      · rw [List.mem_singleton.mp last]
        exact Int.not_le.mp failure
    · rw [resets, List.count_append, count, List.count_singleton]
      by_cases desync : ret = qxUsbErrorDesync <;> simp [desync]
    · exact (exits exited).resolve_left (by simp [running])

-- What the reconnections are counted by.
def tries (s : QxUsb) : Int32 × Nat × Bool :=
  (s.reconnectMaxTries, s.reconnectCount, s.exitFlag)

theorem cypressCommand_tries (s : QxUsb) (call : QxCall) : (s.cypressCommand call).1.tries = s.tries := by
  unfold cypressCommand
  split
  · rfl
  · dsimp only
    split
    · rfl
    · split <;> rfl

theorem countResult_tries (s : QxUsb) (call : QxCall) (ret : Int) : (s.countResult call ret).tries = s.tries := by
  unfold countResult handleError
  split_ifs <;> rfl

-- The reconnections tried in a row, none of which succeeded.
def Tried (s : QxUsb) (sofar : List QxOutcome) : Prop :=
  ∃ earlier tried, sofar = earlier ++ tried ∧ (∀ outcome ∈ tried, outcome.succeeded = false) ∧
    s.reconnectCount ≤ tried.countP QxOutcome.attempt

theorem GivesUp.more {maxTries : Int32} {sofar : List QxOutcome} (givesUp : GivesUp maxTries sofar) (last : QxOutcome) :
    GivesUp maxTries (sofar ++ [last]) := by
  cases givesUp with
  | busy member busy => exact .busy (List.mem_append_left _ member) busy
  | unclaimed member ended => exact .unclaimed (List.mem_append_left _ member) ended
  | configured split inVain attempt set_ tooMany =>
    have split' := congrArg (· ++ [last]) split
    rw [List.append_assoc, List.cons_append] at split'
    exact .configured split' inVain attempt set_ tooMany
  | @desync earlier desynced later split failures tooOften =>
    have split' : (sofar ++ [last]).filterMap QxOutcome.ret =
        earlier ++ desynced ++ (later ++ [last].filterMap QxOutcome.ret) := by
      rw [List.filterMap_append, split, List.append_assoc]
    exact .desync split' failures tooOften

theorem reconnectTrying_spec {s : QxUsb} {sofar : List QxOutcome} (tried : s.Tried sofar) {outcome : QxOutcome}
    (attempt : outcome.attempt = true) :
    s.reconnectTrying.reconnectMaxTries = s.reconnectMaxTries ∧ s.reconnectTrying.reconnectCount ≤ s.reconnectCount + 1 ∧
      (s.reconnectTrying.exitFlag = true -> s.exitFlag = true ∨ GivesUp s.reconnectMaxTries (sofar ++ [outcome])) := by
  obtain ⟨earlier, tried, split_, inVain, count⟩ := tried
  have gives (set_ : 0 ≤ s.reconnectMaxTries) (tooMany : s.reconnectMaxTries.toInt < tried.countP QxOutcome.attempt + 1) :
      GivesUp s.reconnectMaxTries (sofar ++ [outcome]) := .configured (by rw [split_]) inVain attempt set_ tooMany
  have most : s.reconnectMaxTries.toInt ≤ reconnectCountMax := Int.le_of_lt_add_one (Int32.toInt_lt s.reconnectMaxTries)
  have nonneg (positive : 0 < s.reconnectMaxTries) : 0 ≤ s.reconnectMaxTries := Int32.le_of_lt positive
  unfold reconnectTrying
  split
  · next none_ =>
    refine ⟨rfl, Nat.le_succ _, fun _ => Or.inr (gives (by rw [none_]; decide) ?_)⟩
    rw [none_]
    change (0 : Int) < _
    omega
  · split
    · next room =>
      split
      · next tooMany => exact ⟨rfl, Nat.le_refl _, fun _ => Or.inr (gives (nonneg tooMany.1) (by have := tooMany.2; omega))⟩
      · exact ⟨rfl, Nat.le_refl _, Or.inl⟩
    · next full =>
      split
      · next positive => exact ⟨rfl, Nat.le_succ _, fun _ => Or.inr (gives (nonneg positive) (by omega))⟩
      · exact ⟨rfl, Nat.le_succ _, Or.inl⟩

structure Tallied (s : QxUsb) (sofar : List QxOutcome) : Prop where
  counted : s.exited = false -> s.Counted (sofar.filterMap QxOutcome.ret)
  tried : s.exited = false -> s.Tried sofar
  exits : s.exited = true ∨ s.exitFlag = true -> GivesUp s.reconnectMaxTries sofar

theorem reconnectTrying_counters (s : QxUsb) :
    s.reconnectTrying.desyncResets = s.desyncResets ∧ s.reconnectTrying.exited = s.exited ∧
      s.reconnectTrying.opened = s.opened := by
  unfold reconnectTrying
  split_ifs <;> exact ⟨rfl, rfl, rfl⟩

theorem command_tallied {s at_ : QxUsb} {call : QxCall} {sofar : List QxOutcome}
    (counted : at_.Counted (sofar.filterMap QxOutcome.ret)) (running : at_.exited = false) {outcome : QxOutcome}
    (ret : outcome.ret = some (at_.cypressCommand call).2.ret) (tried : Tried at_ (sofar ++ [outcome]) ∨ outcome.succeeded = true)
    (succeeded : outcome.succeeded = (!s.opened && (at_.commandOpened call).1.opened))
    (flagged : at_.exitFlag = true -> GivesUp at_.reconnectMaxTries (sofar ++ [outcome])) :
    ((at_.commandOpened call).1.reconnectSuccess (!s.opened)).Tallied (sofar ++ [outcome]) := by
  obtain ⟨kept, still⟩ := cypressCommand_counters at_ call
  have before : (at_.cypressCommand call).1.Counted (sofar.filterMap QxOutcome.ret) := by
    unfold Counted at counted ⊢
    rw [kept]
    exact counted
  obtain ⟨after, exits⟩ := @countResult_counted _ call (at_.cypressCommand call).2.ret _ before (still.trans running)
  have same : (at_.commandOpened call).1.tries = at_.tries :=
    (countResult_tries _ _ _).trans (cypressCommand_tries at_ call)
  have maxTries : (at_.commandOpened call).1.reconnectMaxTries = at_.reconnectMaxTries := congrArg Prod.fst same
  have count : (at_.commandOpened call).1.reconnectCount = at_.reconnectCount := congrArg (fun tries => tries.2.1) same
  have flag : (at_.commandOpened call).1.exitFlag = at_.exitFlag := congrArg (fun tries => tries.2.2) same
  have rets : (sofar ++ [outcome]).filterMap QxOutcome.ret =
      sofar.filterMap QxOutcome.ret ++ [(at_.cypressCommand call).2.ret] := by
    simp [ret]
  have gives : (at_.commandOpened call).1.exited = true ∨ (at_.commandOpened call).1.exitFlag = true ->
      GivesUp at_.reconnectMaxTries (sofar ++ [outcome]) := by
    rintro (exited | exitFlag)
    · rcases exits exited with busy | often
      · exact .busy (List.mem_append_right _ (List.mem_singleton_self _)) (ret.trans (congrArg some busy))
      · obtain ⟨earlier, later, split, failures, many⟩ := after
        exact .desync (by rw [rets, split, List.append_nil]) failures (many ▸ often)
    · exact flagged (flag.symm.trans exitFlag)
  unfold reconnectSuccess
  split
  · next success =>
    refine ⟨fun _ => by rw [rets]; exact after, fun _ => ⟨sofar ++ [outcome], [], by simp, by simp, Nat.zero_le _⟩, ?_⟩
    exact fun exited => maxTries ▸ gives exited
  · next failure =>
    refine ⟨fun _ => by rw [rets]; exact after, fun _ => ?_, fun exited => maxTries ▸ gives exited⟩
    obtain ⟨earlier, tried, split, inVain, enough⟩ := tried.resolve_right fun done => failure (succeeded.symm.trans done)
    exact ⟨earlier, tried, split, inVain, count ▸ enough⟩

theorem step_tallied {s : QxUsb} {call : QxCall} {sofar : List QxOutcome} (tallied : s.Tallied sofar) :
    (s.step call).Tallied (sofar ++ (if s.exited then [] else [s.outcome call])) := by
  unfold step
  cases running : s.exited with
  | true => simpa [running] using tallied
  | false =>
    simp only [Bool.false_eq_true, if_false]
    have counted := tallied.counted running
    obtain ⟨earlier, tried, split_, inVain, count⟩ := tallied.tried running
    have tried_ : s.Tried sofar := ⟨earlier, tried, split_, inVain, count⟩
    have flagged (exitFlag : s.exitFlag = true) (outcome : QxOutcome) : GivesUp s.reconnectMaxTries (sofar ++ [outcome]) :=
      (tallied.exits (Or.inr exitFlag)).more outcome
    cases opened : s.opened with
    | true =>
      have connected : (s.waited call).connect call = (s.waited call, true) := by simp [connect, waited, opened]
      have same : s.qxCommand call = (((s.waited call).commandOpened call).1.reconnectSuccess (!s.opened),
          some ((s.waited call).commandOpened call).2) := by simp [qxCommand, connected]
      have is : (s.outcome call).ret = some ((s.waited call).cypressCommand call).2.ret := by simp [outcome, same, commandOpened]
      rw [same]
      refine @command_tallied s (s.waited call) call sofar counted running _ is (Or.inl ?_) (by simp [outcome, opened]) ?_
      · refine ⟨earlier, tried ++ [s.outcome call], by simp [split_], fun other member => ?_, ?_⟩
        · rcases List.mem_append.mp member with inside | last
          · exact inVain other inside
          · simp [List.mem_singleton.mp last, outcome, opened]
        · exact count.trans (by rw [List.countP_append]; exact Nat.le_add_right _ _)
      · exact fun exitFlag => flagged exitFlag _
    | false =>
      have attempt : (s.outcome call).attempt = true := by simp [outcome, opened]
      obtain ⟨resets, exits, shut⟩ := reconnectTrying_counters (s.waited call)
      have tried' : (s.waited call).Tried sofar := tried_
      obtain ⟨maxTries, most, gives⟩ := reconnectTrying_spec tried' attempt
      have flag (exitFlag : (s.waited call).reconnectTrying.exitFlag = true) :
          GivesUp s.reconnectMaxTries (sofar ++ [s.outcome call]) :=
        (gives exitFlag).elim (fun before => flagged before _) id
      have further (inVain_ : (s.outcome call).succeeded = false) {at_ : QxUsb}
          (same : at_.reconnectCount = (s.waited call).reconnectTrying.reconnectCount) : at_.Tried (sofar ++ [s.outcome call]) := by
        refine ⟨earlier, tried ++ [s.outcome call], by simp [split_], fun other member => ?_, ?_⟩
        · rcases List.mem_append.mp member with inside | last
          · exact inVain other inside
          · rw [List.mem_singleton.mp last]
            exact inVain_
        · rw [List.countP_append, List.countP_singleton, if_pos attempt, same]
          exact most.trans (Nat.add_le_add_right count 1)
      cases openDev : call.openDev with
      | none =>
        have same : s.qxCommand call = ({ (s.waited call).reconnectTrying with exited := true }, none) := by
          simp [qxCommand, connect, waited, opened, openDev]
        rw [same]
        refine ⟨fun goesOn => absurd goesOn (by simp), fun goesOn => absurd goesOn (by simp), fun _ => ?_⟩
        exact @GivesUp.unclaimed _ _ (s.outcome call) (by simp) (by simp [outcome, opened, openDev])
      | some ret =>
        by_cases failed : ret < 1
        · have same : s.qxCommand call = ((s.waited call).reconnectTrying, none) := by
            simp [qxCommand, connect, waited, opened, openDev, failed]
          have inVain_ : (s.outcome call).succeeded = false := by
            rw [outcome, same, shut]
            simp [waited, opened]
          have none_ : (s.outcome call).ret = none := by simp [outcome, same]
          rw [same]
          refine ⟨fun _ => ?_, fun _ => further inVain_ rfl, fun exited => ?_⟩
          · simp only [Counted, List.filterMap_append, List.filterMap_cons_none none_, List.filterMap_nil, List.append_nil, resets]
            exact counted
          · rw [maxTries]
            exact exited.elim (fun exited => absurd (exits.symm.trans exited) (by simp [waited, running])) flag
        · let at_ : QxUsb :=
            { (s.waited call).reconnectTrying with opened := true, bridge := (s.waited call).bridge.moves call.renewed }
          have same : s.qxCommand call = ((at_.commandOpened call).1.reconnectSuccess (!s.opened), some (at_.commandOpened call).2) := by
            simp [at_, qxCommand, connect, waited, opened, openDev, failed]
          have succeeded : (s.outcome call).succeeded = (!s.opened && (at_.commandOpened call).1.opened) := by
            rw [outcome, same, reconnectSuccess]
            split <;> rfl
          have counted' : at_.Counted (sofar.filterMap QxOutcome.ret) := by
            unfold Counted at counted ⊢
            rw [show at_.desyncResets = s.desyncResets from resets]
            exact counted
          rw [same]
          refine @command_tallied s at_ call sofar counted' (exits.trans running) _ (by simp [outcome, same, commandOpened]) ?_ succeeded ?_
          · cases done : (s.outcome call).succeeded with
            | true => exact Or.inr rfl
            | false => exact Or.inl (further done rfl)
          · intro exitFlag
            rw [show at_.reconnectMaxTries = s.reconnectMaxTries from maxTries]
            exact flag exitFlag

theorem step_maxTries (s : QxUsb) (call : QxCall) : (s.step call).reconnectMaxTries = s.reconnectMaxTries := by
  have trying (s : QxUsb) : s.reconnectTrying.reconnectMaxTries = s.reconnectMaxTries := by
    unfold reconnectTrying
    split_ifs <;> rfl
  have connected : ((s.waited call).connect call).1.reconnectMaxTries = s.reconnectMaxTries := by
    unfold connect
    split
    · rfl
    · split
      · exact trying _
      · split <;> exact trying _
  unfold step qxCommand
  split
  · rfl
  · split
    · next at_ failed => exact (congrArg (fun r => r.1.reconnectMaxTries) failed).symm.trans connected
    · next at_ opened =>
      have commanded : (at_.commandOpened call).1.reconnectMaxTries = at_.reconnectMaxTries :=
        congrArg Prod.fst ((countResult_tries _ _ _).trans (cypressCommand_tries at_ call))
      have before : at_.reconnectMaxTries = s.reconnectMaxTries :=
        (congrArg (fun r => r.1.reconnectMaxTries) opened).symm.trans connected
      unfold reconnectSuccess
      split <;> exact commanded.trans before

theorem run_maxTries (s : QxUsb) (calls : List QxCall) : (calls.foldl step s).reconnectMaxTries = s.reconnectMaxTries := by
  induction calls generalizing s with
  | nil => rfl
  | cons call calls ih => exact (ih _).trans (step_maxTries s call)

theorem run_tallied {s : QxUsb} {calls : List QxCall} {sofar : List QxOutcome} (tallied : s.Tallied sofar) :
    (calls.foldl step s).Tallied (sofar ++ s.outcomes calls) := by
  induction calls generalizing s sofar with
  | nil => simpa [outcomes] using tallied
  | cons call calls ih =>
    have next := ih (@step_tallied s call sofar tallied)
    rw [List.append_assoc] at next
    exact next

end QxUsb

open QxUsb

-- Where the drain loop sees the end of all that was sent before, the replies are in step with the commands.
theorem replies_inStep {bridge : Bridge} {reconnectMaxTries : Int32} {calls : List QxCall}
    (drains : Always step (EachAction Drains) (start bridge reconnectMaxTries) calls) :
    (start bridge reconnectMaxTries).RepliesInStep calls where
  reply := by
    rintro before call after rfl running result called calm cr
    obtain ⟨at_, connected, rfl⟩ := qxCommand_some called
    have drained : Drains (before.foldl step (start bridge reconnectMaxTries)) call := (always_behind drains).1
    exact cypressCommand_reply (drained running at_ connected) calm cr
  unsent := by
    rintro before call after rfl running result called desync
    obtain ⟨at_, connected, rfl⟩ := qxCommand_some called
    exact cypressCommand_desync desync
  exits := by
    intro exited
    have tallied : (start bridge reconnectMaxTries).Tallied [] :=
      ⟨fun _ => ⟨[], [], rfl, by simp, rfl⟩, fun _ => ⟨[], [], rfl, by simp, Nat.zero_le _⟩, fun exits => by cases exits <;> contradiction⟩
    exact run_maxTries (start bridge reconnectMaxTries) calls ▸ (@run_tallied _ calls _ tallied).exits exited

namespace QxUsb

instance Settled.decidable (s : QxUsb) (call : QxCall) : Decidable (s.Settled call) :=
  match drained : s.drained call with
  | (b, .idle) => decidable_of_iff (b.stream = []) (by simp [Settled, drained])
  | (b, .stop ret) => isTrue (by simp [Settled, drained])

instance Drains.decidable (s : QxUsb) (call : QxCall) : Decidable (s.Drains call) :=
  match connected : (s.waited call).connect call with
  | (at_, true) => decidable_of_iff (s.exited = false -> at_.Settled call) (by simp [Drains, connected])
  | (at_, false) => isTrue (by simp [Drains, connected])

def sampleCall : QxCall :=
  { cmdlen := 4, buflen := 511, idle := [], renewed := [], openDev := some 1, haltCleared := true
    drain := fun _ _ => { moves := [], fault := none, elapsed := 8 }
    write := fun _ => { moves := [], ret := .ok 8 }
    reply := ⟨cstr "(015 020.0", by decide⟩
    read := fun _ => { moves := [.arrive], fault := none, elapsed := 0 } }

def sampleBridge : Bridge :=
  { queue := [cstr "00000001", cstr "\r"], coming := [] }

end QxUsb

theorem replies_inStep_sample : ((start sampleBridge (-1)).qxCommand sampleCall).2 =
        some { ret := 16, buf := cstr "(015 020.0\r" ++ [0, 0, 0, 0, 0], wrote := 1 } ∧
      (start sampleBridge (-1)).RepliesInStep [sampleCall, sampleCall] :=
  ⟨by decide +kernel, replies_inStep (by decide +kernel)⟩

namespace QxUsb

def unaskedCall : QxCall :=
  { sampleCall with write := fun _ => { moves := [.unasked (cstr "#STALE1\r")], ret := .ok 8 } }

def droppedCall : QxCall :=
  { sampleCall with read := fun _ => { moves := [.arrive, .arrive, .drop], fault := none, elapsed := 0 } }

def busyCall : QxCall :=
  { sampleCall with drain := fun _ _ => { moves := [], fault := some .busy, elapsed := 0 } }

-- The device is lost; before the next call it comes back, or another driver has claimed it.
def goneCall : QxCall :=
  { sampleCall with drain := fun _ _ => { moves := [], fault := some .noDevice, elapsed := 0 } }

def unclaimedCall : QxCall :=
  { sampleCall with openDev := none }

end QxUsb

-- A reply can also be taken for another one behind an idle endpoint, and the driver can exit in step.
theorem replies_outOfStep : (Always step (EachAction Drains) (start sampleBridge (-1)) [unaskedCall] ∧
        (((start sampleBridge (-1)).qxCommand unaskedCall).2.map fun result => result.buf.takeWhile (· ≠ 13)) =
          some (cstr "#STALE1") ∧ unaskedCall.reply.val ≠ cstr "#STALE1") ∧
      (Always step (EachAction Drains) (start sampleBridge (-1)) [droppedCall] ∧
        (((start sampleBridge (-1)).qxCommand droppedCall).2.map fun result => result.buf.takeWhile (· ≠ 13)) =
          some (cstr ".0") ∧ droppedCall.reply.val ≠ cstr ".0") ∧
      ∀ ending ∈ [(-1, [busyCall]), (-1, [goneCall, unclaimedCall]), (0, [goneCall, sampleCall])],
        Always step (EachAction Drains) (start sampleBridge ending.1) ending.2 ∧
          ((ending.2.foldl step (start sampleBridge ending.1)).exited ||
            (ending.2.foldl step (start sampleBridge ending.1)).exitFlag) = true ∧
          ∀ outcome ∈ (start sampleBridge ending.1).outcomes ending.2, outcome.ret ≠ some qxUsbErrorDesync := by
  refine ⟨⟨?_, ?_, ?_⟩, ⟨?_, ?_, ?_⟩, ?_⟩ <;> decide +kernel

end Nut
