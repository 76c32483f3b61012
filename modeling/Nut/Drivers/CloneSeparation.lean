import Nut.Drivers.CloneMirror

set_option autoImplicit false

namespace Nut.Clone

structure Heard where
  earlier : List (List CString)
  current : List (List CString)

def Heard.all (h : Heard) : List (List CString) :=
  h.earlier ++ h.current

variable {D : Type} [CDouble D]

def probe (w : Clone D) (round : CloneRound) : Clone D × Bool :=
  (w.opened round.clock round.trends).sstateDead 15 round.deadTime round.pings

-- Only an update that finds the upstream driver alive reads.
def reads (w : Clone D) (round : CloneRound) : CString :=
  if (w.probe round).2 = false ∧ (w.probe round).1.connected = true then
    match round.read with
    | .bytes buf => buf
    | _ => []
  else []

def heardLines (w : Clone D) : CloneEvent -> List (List CString)
  | .update round => linesRead round.lineTime (w.reads round) (w.probe round).1
  | _ => []

def heardState (w : Clone D) : CloneEvent -> Clone D
  | .update round => (readBytes round.lineTime (w.reads round) (w.probe round).1).1
  | _ => w

def reconnects (w : Clone D) : CloneEvent -> Bool
  | .update round => (w.probe round).2 && round.contact.connects
  | _ => false

def publishes (w : Clone D) : CloneEvent -> Bool
  | .update round => ((w.opened round.clock round.trends).listen round).2
  | _ => false

def noteLines (w : Clone D) (event : CloneEvent) (h : Heard) : Heard :=
  if w.reconnects event then { earlier := h.all, current := [] }
  else { h with current := h.current ++ w.heardLines event }

def noted (s : Clone D × Heard) (event : CloneEvent) : Clone D × Heard :=
  (s.1.step event, s.1.noteLines event s.2)

def dumpDone (lines : List (List CString)) : Bool :=
  lines.any fun line => line.head?.any fun keyword => isCommand keyword "DUMPDONE"

structure RegularEvent (s : Clone D × Heard) (event : CloneEvent) : Prop where
  lines : ∀ round, event = .update round -> EachLine LineRegular round.lineTime (s.1.reads round) (s.1.probe round).1
  status : s.1.publishes event = true -> dumpDone (s.1.noteLines event s.2).current = false ->
    (lastStatus (s.1.noteLines event s.2).current).isSome = true ∨ lastStatus s.2.earlier = none

structure Separates (s : Clone D × Heard) (event : CloneEvent) : Prop where
  own : ∀ var, isOwn var = true -> held (s.1.heardState event).tree var = held s.1.tree var ∨
    s.1.OwnLimit var (held (s.1.heardState event).tree var)
  mirrored : Mirrored (s.1.noteLines event s.2).all (s.1.step event)
  status : s.1.publishes event = true -> dumpDone (s.1.noteLines event s.2).current = false ->
    (s.1.heardState event).status =
      ((lastStatus (s.1.noteLines event s.2).current).map (snprintf stMaxValueLen)).getD (cstr "WAIT")

structure Separated (s : Clone D × Heard) : Prop where
  ordered : Ordered s.1.tree
  mirrored : Mirrored s.2.all s.1
  status : s.1.status = ((lastStatus s.2.all).map (snprintf stMaxValueLen)).getD (cstr "WAIT")

section Steps

variable {w v : Clone D}

theorem lastStatus_both (first second : List (List CString)) :
    lastStatus (first ++ second) = (lastStatus second).or (lastStatus first) := by
  simp [lastStatus, List.getLast?_append]

omit [CDouble D] in
theorem probe_values (w : Clone D) (round : CloneRound) : w.SameValues (w.probe round).1 := by
  unfold probe sstateDead sstateSendline
  dsimp only
  repeat' split
  all_goals exact ⟨rfl, rfl, rfl, rfl⟩

theorem listened_event {h : Heard} (separated : Separated (w, h)) {event : CloneEvent} (regular : RegularEvent (w, h) event) :
    Listened h.all w (w.heardLines event) (w.heardState event) := by
  have start : Listened h.all w [] w :=
    { keeps := ⟨separated.ordered, fun _ _ => .inl rfl, rfl, rfl⟩
      mirrored := by rw [List.append_nil]; exact separated.mirrored
      status := rfl }
  cases event with
  | update round =>
    have probed := listened_values start (probe_values w round)
    exact listened_bytes probed (regular.lines round rfl)
  | instcmd _ _ _ _ => exact start
  | setvar _ _ _ => exact start

omit [CDouble D] in
theorem reads_dead {round : CloneRound} (dead : (w.probe round).2 = true) : w.reads round = [] := by
  rw [reads, if_neg fun both => by rw [dead] at both; cases both.1]

theorem listen_dead {round : CloneRound} (dead : (w.probe round).2 = true) :
    (w.opened round.clock round.trends).listen round =
      ((w.probe round).1.sstateDisconnect.sstateConnect round.contact, false) := by
  unfold listen probe at *
  generalize (w.opened round.clock round.trends).sstateDead 15 round.deadTime round.pings = probed at dead ⊢
  obtain ⟨v, isDead⟩ := probed
  cases dead
  rfl

theorem listen_alive {round : CloneRound} (alive : (w.probe round).2 = false) :
    ∃ v, v.tree = (w.heardState (.update round)).tree ∧ v.status = (w.heardState (.update round)).status ∧
      ∃ goesOn, (w.opened round.clock round.trends).listen round = (v, goesOn) := by
  have read : ((w.probe round).1.sstateReadline round.read round.lineTime).1 =
      (readBytes round.lineTime (w.reads round) (w.probe round).1).1 := by
    unfold sstateReadline reads
    split
    case isTrue off => rw [if_neg fun both => by rw [both.2] at off; cases off]; rfl
    case isFalse on =>
      rw [if_pos ⟨alive, Bool.not_eq_false _ ▸ on⟩]
      cases round.read <;> rfl
  have heard : w.heardState (.update round) = ((w.probe round).1.sstateReadline round.read round.lineTime).1 := read.symm
  rw [heard]
  unfold listen probe at *
  generalize (w.opened round.clock round.trends).sstateDead 15 round.deadTime round.pings = probed at alive ⊢
  obtain ⟨v, isDead⟩ := probed
  cases alive
  dsimp only
  split
  · refine ⟨(v.sstateReadline round.read round.lineTime).1.sstateDisconnect, ?_, ?_, false, rfl⟩ <;> rfl
  · exact ⟨_, rfl, rfl, true, rfl⟩

theorem heardLines_reconnects {event : CloneEvent} (again : w.reconnects event = true) : w.heardLines event = [] := by
  cases event with
  | update round =>
    have dead := (Bool.and_eq_true _ _ |>.mp again).1
    show linesRead round.lineTime (w.reads round) (w.probe round).1 = []
    rw [reads_dead dead]
    rfl
  | instcmd _ _ _ _ => rfl
  | setvar _ _ _ => rfl

theorem noteLines_all (w : Clone D) (event : CloneEvent) (h : Heard) : (w.noteLines event h).all = h.all ++ w.heardLines event := by
  unfold noteLines
  split
  case isTrue again => rw [heardLines_reconnects again]; rfl
  case isFalse => exact (List.append_assoc _ _ _).symm

theorem publishes_alive {round : CloneRound} (publishes : w.publishes (.update round) = true) : (w.probe round).2 = false := by
  rw [<- Bool.not_eq_true]
  intro dead
  rw [Clone.publishes, listen_dead dead] at publishes
  cases publishes

theorem publishes_goes_on {event : CloneEvent} (publishes : w.publishes event = true) : w.reconnects event = false := by
  cases event with
  | update round => rw [reconnects, publishes_alive publishes, Bool.false_and]
  | instcmd _ _ _ _ => rfl
  | setvar _ _ _ => rfl

omit [CDouble D] in
theorem onlyOwn_sstateConnect (first : w.OnlyOwn v) (contact : CloneContact) : w.OnlyOwn (v.sstateConnect contact) := by
  unfold sstateConnect
  split
  · have fresh : w.OnlyOwn { v with connected := true, sockCtx := pconfInit, lastHeard := contact.heardTime, dumpdone := false } :=
      first.of_same rfl rfl
    exact ((fresh.call rfl).call rfl).statusCommit
  · exact first.of_same rfl rfl

omit [CDouble D] in
theorem onlyOwn_note (first : w.OnlyOwn v) (act : CloneAct) : w.OnlyOwn (v.note act) := first.of_same rfl rfl

theorem onlyOwn_step (w : Clone D) (event : CloneEvent) (ordered : Ordered (w.heardState event).tree) :
    (w.heardState event).OnlyOwn (w.step event) := by
  have start := OnlyOwn.refl ordered
  cases event with
  | instcmd cmdname extra now trend =>
    have opened : w.OnlyOwn (w.opened now [trend]) := start.of_same rfl rfl
    exact onlyOwn_instcmd opened cmdname extra now
  | setvar varname val now =>
    have opened : w.OnlyOwn (w.opened now []) := start.of_same rfl rfl
    exact onlyOwn_setvar opened varname val
  | update round =>
    show (w.heardState (.update round)).OnlyOwn (w.upsdrvUpdateinfo round)
    unfold upsdrvUpdateinfo
    cases dead : (w.probe round).2 with
    | true =>
      rw [listen_dead dead]
      have unread : w.heardState (.update round) = (w.probe round).1 := by
        show (readBytes round.lineTime (w.reads round) (w.probe round).1).1 = _
        rw [reads_dead dead]
        rfl
      rw [unread] at start ⊢
      have off : (w.probe round).1.OnlyOwn (w.probe round).1.sstateDisconnect := start.of_same rfl rfl
      exact onlyOwn_note (onlyOwn_sstateConnect off round.contact) _
    | false =>
      obtain ⟨v, tree, status, goesOn, listened⟩ := listen_alive dead
      rw [listened]
      have heard := start.of_same tree status
      cases goesOn with
      | true => exact onlyOwn_finishUpdate (onlyOwn_countTimers (onlyOwn_reportStatus heard _) _ _) _
      | false => exact onlyOwn_note heard _

theorem current_status {h : Heard} {event : CloneEvent} (publishes : w.publishes event = true) :
    lastStatus (w.noteLines event h).current = (lastStatus (w.heardLines event)).or (lastStatus h.current) := by
  rw [noteLines, if_neg (by rw [publishes_goes_on publishes]; exact Bool.false_ne_true), lastStatus_both]

theorem separated_step {h : Heard} {event : CloneEvent} (separated : Separated (w, h)) (regular : RegularEvent (w, h) event) :
    Separates (w, h) event ∧ Separated (noted (w, h) event) := by
  have listened := listened_event separated regular
  have only := onlyOwn_step w event listened.keeps.ordered
  have mirrored : Mirrored (w.noteLines event h).all (w.step event) := by
    intro var val other isTold
    rw [noteLines_all] at isTold
    rw [only.others var other]
    exact listened.mirrored var val other isTold
  have reported : (w.heardState event).status =
      (((lastStatus (w.heardLines event)).or (lastStatus h.all)).map (snprintf stMaxValueLen)).getD (cstr "WAIT") := by
    rw [listened.status, separated.status]
    cases lastStatus (w.heardLines event) <;> rfl
  constructor
  · refine ⟨listened.keeps.own, mirrored, fun publishes undone => ?_⟩
    have known := regular.status publishes undone
    rw [current_status publishes] at known ⊢
    rw [reported, Heard.all, lastStatus_both, <- Option.or_assoc]
    dsimp only at known ⊢
    rcases known with here | unheard
    · rw [Option.or_of_isSome here]
    · rw [unheard, Option.or_none]
  · refine ⟨only.ordered, mirrored, ?_⟩
    dsimp only [noted]
    rw [only.status, reported, noteLines_all, lastStatus_both]

theorem onlyOwn_start {own : Status} (ordered : Ordered own.dstate.dtreeRoot) (contact : CloneContact)
    (getval : String -> Option CString) (now : Int) : (globals own : Clone D).OnlyOwn (start own contact getval now) := by
  have first : (globals own : Clone D).OnlyOwn ((globals own).opened now []) :=
    OnlyOwn.of_same (v := globals own) (OnlyOwn.refl ordered) rfl rfl
  have up := onlyOwn_sstateConnect first contact
  unfold start upsdrvInitups upsdrvInitinfo
  generalize ((globals own : Clone D).opened now []).sstateConnect contact = v at up ⊢
  refine onlyOwn_publishTimers (OnlyOwn.setinfo (OnlyOwn.setinfo ?_ (by decide) _) (by decide) _)
  exact up.of_same rfl rfl

theorem globals_status (own : Status) : (globals own : Clone D).status = cstr "WAIT" := by
  rw [globals]

theorem separated_start {own : Status} (ordered : Ordered own.dstate.dtreeRoot) (contact : CloneContact)
    (getval : String -> Option CString) (now : Int) : Separated ((start own contact getval now : Clone D), ⟨[], []⟩) := by
  have only := onlyOwn_start (D := D) ordered contact getval now
  generalize (start own contact getval now : Clone D) = w at only
  refine ⟨only.ordered, ?_, only.status.trans (globals_status own)⟩
  intro _ _ _ isTold
  cases isTold

end Steps

-- As long as the events are regular, the driver's own variables and those of the upstream stay apart.
theorem stays_separated {own : Status} (ordered : Ordered own.dstate.dtreeRoot) (contact : CloneContact)
    (getval : String -> Option CString) (now : Int) (events : List CloneEvent)
    (regular : Always noted (EachAction RegularEvent) ((start own contact getval now : Clone D), ⟨[], []⟩) events) :
    Always noted (EachAction Separates) ((start own contact getval now : Clone D), ⟨[], []⟩) events :=
  always_while (fun _ _ separated regular => separated_step separated regular)
    (separated_start ordered contact getval now) regular

instance fixedDecidable (t : StTree) (var : CString) : Decidable (Fixed t var) :=
  decidable_of_iff ((stateTreeFind t var).any StNode.immutable = true) (by simp [Fixed, Option.any_eq_true])

instance lineDecidable (w : Clone D) (line : List CString) : Decidable (w.LineRegular line) :=
  match h : told line with
  | none => isTrue (by rw [LineRegular, h]; trivial)
  | some (var, none) => decidable_of_iff (isOwn var = true -> held w.tree var = none ∨ Fixed w.tree var) (by rw [LineRegular, h])
  | some (var, some val) =>
    decidable_of_iff (isOwn var = false -> val.length < stMaxValueLen ∧ (Fixed w.tree var -> held w.tree var = some val))
      (by rw [LineRegular, h])

instance eachLineDecidable (P : Clone D -> List CString -> Prop) [∀ w line, Decidable (P w line)] (lineTime : Int) :
    (bytes : CString) -> (w : Clone D) -> Decidable (EachLine P lineTime bytes w)
  | [], _ => isTrue trivial
  | b :: bytes, w =>
    have := eachLineDecidable P lineTime bytes
    decidable_of_iff
      (if (pconfChar w.sockCtx b).2 = 1 then
        P { w with sockCtx := (pconfChar w.sockCtx b).1 } (pconfChar w.sockCtx b).1.arglist ∧
          EachLine P lineTime bytes (({ w with sockCtx := (pconfChar w.sockCtx b).1 } : Clone D).behindLine lineTime
            (pconfChar w.sockCtx b).1.arglist)
      else if (pconfChar w.sockCtx b).2 = 0 then EachLine P lineTime bytes { w with sockCtx := (pconfChar w.sockCtx b).1 }
      else True) Iff.rfl

theorem regular_update {s : Clone D × Heard} {round : CloneRound} :
    RegularEvent s (.update round) ↔ EachLine LineRegular round.lineTime (s.1.reads round) (s.1.probe round).1 ∧
      (s.1.publishes (.update round) = true -> dumpDone (s.1.noteLines (.update round) s.2).current = false ->
        (lastStatus (s.1.noteLines (.update round) s.2).current).isSome = true ∨ lastStatus s.2.earlier = none) := by
  constructor
  · intro regular
    exact ⟨regular.lines round rfl, regular.status⟩
  · rintro ⟨lines, status⟩
    exact ⟨fun _ same => CloneEvent.update.inj same ▸ lines, status⟩

instance regularDecidable (s : Clone D × Heard) : (event : CloneEvent) -> Decidable (RegularEvent s event)
  | .update _ => decidable_of_iff' _ regular_update
  | .instcmd _ _ _ _ => isTrue ⟨(fun _ other => by cases other), fun never => absurd never Bool.false_ne_true⟩
  | .setvar _ _ _ => isTrue ⟨(fun _ other => by cases other), fun never => absurd never Bool.false_ne_true⟩

def sampleReads : List CloneRead :=
  [.bytes (cstr "SETINFO ups.status \"OL\"\nSETINFO input.voltage \"230\"\nSETINFO ups.delay.start \"7\"\nDUMPDONE\n"), .failed,
    .failed, .bytes (cstr "SETINFO ups.status \"OB\"\nDELINFO input.voltage\nDELINFO input.current\n")]

def updates (reads : List CloneRead) : List CloneEvent :=
  reads.zipIdx.map fun (read, i) => sampleUpdate (1002 + 2 * i) read true

theorem stays_separated_sample :
    held ((updates sampleReads).foldl step sampleStart).tree (cstr "ups.delay.start") = some (cstr "2") ∧
      Always noted (EachAction Separates) (sampleStart, ⟨[], []⟩) (updates sampleReads) :=
  ⟨by decide +kernel, stays_separated (ordered_runOps []) _ _ _ _ (by decide +kernel)⟩

-- A line deletes a variable of the driver, and a new connection begins with the status of the one before.
theorem deletion_and_reconnect :
    ¬ Always noted (EachAction Separates) (sampleStart, ⟨[], []⟩) (updates [.bytes (cstr "DELINFO ups.delay.start\n")]) ∧
      ¬ Always noted (EachAction Separates) (sampleStart, ⟨[], []⟩)
        (updates [.bytes (cstr "SETINFO ups.status \"OL\"\nDUMPDONE\n"), .failed, .later, .later]) := by
  constructor
  · intro separates
    have deleted := separates.1.own (cstr "ups.delay.start") (by decide)
    revert deleted
    simp only [OwnLimit]
    decide +kernel
  · intro separates
    have old := separates.2.2.2.1.status
    revert old
    decide +kernel

end Nut.Clone
