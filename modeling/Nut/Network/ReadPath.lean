import Nut.Network.Broadcasts
import Nut.Network.Variables
import Nut.Server.FsdLatch

set_option autoImplicit false

namespace Nut

structure Answer where
  var : CString
  bufsize : Nat
  value : Option CString
  sofar : Nat
  -- nothing that the driver broadcast was still under way
  current : Bool

structure ReadPath where
  driver : Dstate
  wire : CString
  upsd : Upsd
  conn : Upsconn
  -- the states of the driver so far, and what the client read
  past : List Dstate
  answers : List Answer

inductive PathTurn where
  -- the driver changes something and broadcasts it
  | call (now : Int) (op : DstateOp)
  -- upsd reads some of the bytes
  | read (now : Int) (count : Nat)
  -- the client reads a variable
  | ask (now : Int) (var : CString) (bufsize : Nat)

section Turns

variable (cutting : Cutting) (id : Nat) (upsname : CString)

def ReadPath.turn (p : ReadPath) : PathTurn -> ReadPath
  | .call now op =>
    let (driver, lines) := op.apply now p.driver
    { p with driver, wire := p.wire ++ lines.flatten, past := p.past ++ [driver] }
  | .read now count =>
    { p with upsd := serveDriver p.upsd upsname (.read now (p.wire.take count)), wire := p.wire.drop count }
  | .ask now var bufsize =>
    let done := exchange cutting now id p.upsd p.conn [cstr "VAR", upsname, var] bufsize
    { p with
      upsd := done.upsd
      conn := done.ups
      answers := p.answers ++ [⟨var, bufsize, done.value, p.past.length, p.wire.isEmpty⟩] }

-- Calls as drivers make them, whose messages can be told apart, and questions that fit into a reply.
def Fair (p : ReadPath) : PathTurn -> Prop
  | .call _ op => op.WellFormed ∧ op.Relayable p.driver
  | .read _ _ => True
  | .ask _ var _ => Asked upsname var

end Turns

-- The client got what the driver held at `moment`: not in the future, and now if nothing was under way.
def ToldAt (fsd : Bool) (past : List Dstate) (answer : Answer) (moment : Nat) : Prop :=
  moment < answer.sofar ∧ (answer.current = true -> moment + 1 = answer.sofar) ∧
    ∃ d, past[moment]? = some d ∧
      answer.value = (d.text answer.var).map fun text => snprintf answer.bufsize (shownValue fsd answer.var text)

section Run

variable {cutting : Cutting} {id : Nat} {upsname : CString} {fsd : Bool}

structure PathFollows (id : Nat) (upsname : CString) (fsd : Bool) (p : ReadPath) (moment : Nat) : Prop where
  ups : ∃ ups, Available p.upsd upsname ups ∧ ups.fsd = fsd ∧ Between (readCtx ups.sockCtx p.wire) ∧
    ∃ d shown, Synced d ups ∧ p.past[moment]? = some shown ∧ d.values = shown.values ∧
      Trailing d (readLines ups.sockCtx p.wire) (p.past.drop (moment + 1)) p.driver
  linked : ∃ client, Linked p.upsd id client p.conn
  -- no write of upsd fails
  writes : p.upsd.writes = []
  last : p.past.getLast? = some p.driver
  okay : ∀ d ∈ p.past, d.Reachable
  answers : InOrder (ToldAt fsd p.past) p.answers moment

theorem sstateLine_kept (now : Int) (s : Upstype × TrackingList) (word : List CString) :
    (sstateLine now s word).1.name = s.1.name ∧ (sstateLine now s word).1.connected = s.1.connected ∧
      (sstateLine now s word).1.stale = s.1.stale ∧ (sstateLine now s word).1.fsd = s.1.fsd := by
  obtain ⟨ups, list, lastHeard, effect, same⟩ := sstateLine_cases now s word
  rw [same]
  cases effect <;> exact ⟨rfl, rfl, rfl, rfl⟩

theorem sstateLines_kept (now : Int) (words : List (List CString)) (s : Upstype × TrackingList) :
    (words.foldl (sstateLine now) s).1.name = s.1.name ∧ (words.foldl (sstateLine now) s).1.connected = s.1.connected ∧
      (words.foldl (sstateLine now) s).1.stale = s.1.stale ∧ (words.foldl (sstateLine now) s).1.fsd = s.1.fsd := by
  induction words generalizing s with
  | nil => simp
  | cons word rest ih =>
    have step := sstateLine_kept now s word
    simpa [step] using ih (sstateLine now s word)

theorem told_later {past : List Dstate} {answer : Answer} {moment : Nat} (told : ToldAt fsd past answer moment) (more : List Dstate) :
    ToldAt fsd (past ++ more) answer moment := by
  obtain ⟨before, current, d, at_, value⟩ := told
  obtain ⟨inside, -⟩ := List.getElem?_eq_some_iff.mp at_
  exact ⟨before, current, d, by rw [List.getElem?_append_left inside, at_], value⟩

theorem printable_wellFormed {op : DstateOp} (wellFormed : op.WellFormed) : op.Printable := by
  cases op <;> simp_all [DstateOp.WellFormed, DstateOp.Printable, DstateOp.IsValue]

theorem follows_call {p : ReadPath} {moment : Nat} (follows : PathFollows id upsname fsd p moment) (now : Int) {op : DstateOp}
    (fair : Fair upsname p (.call now op)) : PathFollows id upsname fsd (p.turn cutting id upsname (.call now op)) moment := by
  obtain ⟨ups, available, mark, between, d, shown, synced, at_, looks, trailing⟩ := follows.ups
  obtain ⟨wellFormed, relayable⟩ := fair
  obtain ⟨inside, -⟩ := List.getElem?_eq_some_iff.mp at_
  -- An upsd that had read everything would be where the driver is.
  obtain ⟨words, areLines, call⟩ : ∃ words, List.Forall₂ (IsLine 32 512) (op.apply now p.driver).2 words ∧
      Trailing p.driver words [(op.apply now p.driver).1] (op.apply now p.driver).1 :=
    trailing_call now wellFormed relayable (catches_all trailing (show Synced d (ups, []).1 from synced) 0)
  obtain ⟨read, between'⟩ := read_lines between areLines
  refine ⟨⟨ups, available, mark, ?_, d, shown, synced, ?_, looks, ?_⟩, follows.linked, follows.writes, ?_, ?_, ?_⟩
  · simpa [ReadPath.turn, readCtx_append] using between'
  · simpa [ReadPath.turn, List.getElem?_append_left inside] using at_
  · have after := catches_append trailing call
    simpa [ReadPath.turn, readLines_append, read, List.drop_append_of_le_length (Nat.succ_le_of_lt inside)] using after
  · simp [ReadPath.turn]
  · intro d member
    obtain old | new := List.mem_append.mp member
    · exact follows.okay d old
    · obtain rfl := List.mem_singleton.mp new
      exact .call (follows.okay _ (List.mem_of_getLast? follows.last)) now (printable_wellFormed wellFormed)
  · exact inOrder_mono (fun answer moment told => told_later told _) follows.answers

theorem follows_read {p : ReadPath} {moment : Nat} (follows : PathFollows id upsname fsd p moment) (now : Int) (count : Nat) :
    ∃ later, moment ≤ later ∧ PathFollows id upsname fsd (p.turn cutting id upsname (.read now count)) later := by
  obtain ⟨ups, available, mark, between, d, shown, synced, at_, looks, trailing⟩ := follows.ups
  have whole : p.wire = p.wire.take count ++ p.wire.drop count := (List.take_append_drop count p.wire).symm
  rw [whole, readLines_append] at trailing
  obtain ⟨k, s', shown', synced', at', looks', trailing'⟩ :=
    catches_deliver trailing (show Synced d (ups, p.upsd.trackingList).1 from synced) now
  generalize reached : (readLines ups.sockCtx (p.wire.take count)).foldl (sstateLine now) (ups, p.upsd.trackingList) = after at synced'
  have kept := sstateLines_kept now (readLines ups.sockCtx (p.wire.take count)) (ups, p.upsd.trackingList)
  rw [reached] at kept
  obtain ⟨name, connected, stale, fsd_⟩ := kept
  have served : (p.turn cutting id upsname (.read now count)).upsd =
      { p.upsd.updateUps upsname (fun _ => { after.1 with sockCtx := readCtx ups.sockCtx (p.wire.take count) }) with
        trackingList := after.2 } := by
    simp [ReadPath.turn, serveDriver, available.found, available.connected, sstateReadline, readChars_eq, reached]
  have found := @getUpsPtr_updateUps _ _ _ available.found
    (fun _ => { after.1 with sockCtx := readCtx ups.sockCtx (p.wire.take count) }) name
  obtain ⟨client, linked⟩ := follows.linked
  -- What was a state behind `d` is one behind `moment`.
  obtain ⟨seen, seenAt, seenLooks⟩ : ∃ seen, p.past[moment + k]? = some seen ∧ shown'.values = seen.values := by
    cases k with
    | zero =>
      obtain rfl : d = shown' := by simpa using at'
      exact ⟨shown, at_, looks⟩
    | succ k =>
      refine ⟨shown', ?_, rfl⟩
      rw [<- at', List.getElem?_cons_succ, List.getElem?_drop]
      congr 1
      omega
  refine ⟨moment + k, by omega, ⟨{ after.1 with sockCtx := readCtx ups.sockCtx (p.wire.take count) }, ⟨?_, connected.trans available.connected, stale.trans available.fresh⟩, fsd_.trans mark, ?_, s', seen,
    synced', seenAt, looks'.trans seenLooks, ?_⟩, ⟨client, ?_⟩, ?_, follows.last, follows.okay, inOrder_later follows.answers (by omega)⟩
  · rw [served]
    exact found
  · rw [whole, readCtx_append] at between
    exact between
  · rw [List.drop_drop] at trailing'
    have same : moment + 1 + k = moment + k + 1 := by omega
    rw [same] at trailing'
    exact trailing'
  · rw [served]
    exact { linked with }
  · rw [served]
    exact follows.writes

theorem values_synced {d : Dstate} {ups : Upstype} (synced : Synced d ups) (var : CString) :
    stateGetinfo ups.inforoot var = d.values var := by
  obtain ⟨⟨ordered, ordered', agree⟩, -⟩ := synced
  have related : Option.Rel Agree (stateTreeFind d.dtreeRoot var) (stateTreeFind ups.inforoot var) :=
    SearchTree.find?_related StNode.var strcasecmp (fun a b agree => agree_var agree) ordered ordered' agree
  change (stateTreeFind ups.inforoot var).map StNode.val = (stateTreeFind d.dtreeRoot var).map StNode.val
  generalize stateTreeFind d.dtreeRoot var = a at related ⊢
  generalize stateTreeFind ups.inforoot var = b at related ⊢
  cases related with
  | none => rfl
  | some agree => exact congrArg (fun view => some view.val) agree.1.symm

theorem follows_shown {p : ReadPath} {moment : Nat} (follows : PathFollows id upsname fsd p moment) :
    ∃ now, moment ≤ now ∧ PathFollows id upsname fsd p now ∧ (p.wire.isEmpty = true -> now + 1 = p.past.length) := by
  by_cases idle : p.wire = []
  · obtain ⟨ups, available, mark, between, d, shown, synced, at_, looks, trailing⟩ := follows.ups
    obtain ⟨inside, -⟩ := List.getElem?_eq_some_iff.mp at_
    have last := follows.last
    rw [List.getLast?_eq_getElem?] at last
    rw [idle] at trailing between
    have agrees := catches_idle trailing (show Synced d (ups, []).1 from synced)
    refine ⟨p.past.length - 1, by omega, { follows with ups := ⟨ups, available, mark, ?_, p.driver, p.driver, agrees, last, rfl, ?_⟩, answers := inOrder_later follows.answers (by omega) }, fun _ => by omega⟩
    · rw [idle]
      exact between
    · rw [idle, List.drop_eq_nil_of_le (by omega)]
      exact .done p.driver
  · exact ⟨moment, Nat.le_refl _, follows, fun empty => absurd (List.isEmpty_iff.mp empty) idle⟩

theorem follows_ask {p : ReadPath} {moment : Nat} (follows : PathFollows id upsname fsd p moment) (now : Int) {var : CString} (bufsize : Nat)
    (asked : Asked upsname var) :
    ∃ later, moment ≤ later ∧ PathFollows id upsname fsd (p.turn cutting id upsname (.ask now var bufsize)) later := by
  obtain ⟨later, behind, follows, current⟩ := follows_shown follows
  obtain ⟨ups, available, mark, between, d, shown, synced, at_, looks, trailing⟩ := follows.ups
  obtain ⟨client, linked⟩ := follows.linked
  obtain ⟨inside, -⟩ := List.getElem?_eq_some_iff.mp at_
  have ok := dstateOk (follows.okay shown (List.mem_of_getElem? at_))
  have same : stateGetinfo ups.inforoot var = stateGetinfo shown.dtreeRoot var :=
    (values_synced synced var).trans (congrFun looks var)
  obtain ⟨value, linked', others⟩ := exchange_var cutting now bufsize linked follows.writes available asked ok same
  refine ⟨later, behind, ⟨ups, ⟨?_, available.connected, available.fresh⟩, mark, between, d, shown, synced, at_, looks, trailing⟩,
    linked', others.2, follows.last, follows.okay, inOrder_read follows.answers ⟨inside, current, shown, at_, ?_⟩⟩
  · rw [<- available.found]
    simp only [ReadPath.turn, getUpsPtr, others.1]
  · rw [<- mark]
    exact value

theorem follows_turn {p : ReadPath} {moment : Nat} (follows : PathFollows id upsname fsd p moment) {turn : PathTurn} (fair : Fair upsname p turn) :
    ∃ later, PathFollows id upsname fsd (p.turn cutting id upsname turn) later := by
  cases turn with
  | call now op => exact ⟨moment, follows_call follows now fair⟩
  | read now count =>
    obtain ⟨later, -, follows'⟩ := @follows_read cutting _ _ _ _ _ follows now count
    exact ⟨later, follows'⟩
  | ask now var bufsize =>
    obtain ⟨later, -, follows'⟩ := @follows_ask cutting _ _ _ _ _ follows now var bufsize fair
    exact ⟨later, follows'⟩

theorem follows_run {p : ReadPath} {moment : Nat} (follows : PathFollows id upsname fsd p moment) {turns : List PathTurn}
    (fair : Always (ReadPath.turn cutting id upsname) (EachAction (Fair upsname)) p turns) :
    ∃ later, PathFollows id upsname fsd (turns.foldl (ReadPath.turn cutting id upsname) p) later := by
  induction turns generalizing p moment with
  | nil => exact ⟨moment, follows⟩
  | cons turn rest ih =>
    obtain ⟨later, follows'⟩ := follows_turn follows fair.1
    exact ih follows' fair.2

end Run

structure ReadPath.Starts (p : ReadPath) (id : Nat) (upsname : CString) (fsd : Bool) : Prop where
  driver : p.driver.Reachable
  quiet : p.wire = []
  upsd : ∃ ups, Available p.upsd upsname ups ∧ ups.fsd = fsd ∧ Synced p.driver ups ∧ Listening ups
  client : ∃ client, Linked p.upsd id client p.conn
  writes : p.upsd.writes = []
  log : p.past = [p.driver] ∧ p.answers = []

-- However the calls of a driver, the reads of upsd and the questions of a client come after each other,
-- the client reads what the driver held: never something older than it read before, and what the driver
-- holds now if upsd has read everything.
theorem monotonic_reads (cutting : Cutting) (id : Nat) (upsname : CString) (fsd : Bool) (p : ReadPath) (turns : List PathTurn)
    (starts : p.Starts id upsname fsd)
    (fair : Always (ReadPath.turn cutting id upsname) (EachAction (Fair upsname)) p turns) :
    let after := turns.foldl (ReadPath.turn cutting id upsname) p
    InOrder (ToldAt fsd after.past) after.answers (after.past.length - 1) := by
  intro after
  obtain ⟨ups, available, mark, synced, listening⟩ := starts.upsd
  have start : PathFollows id upsname fsd p 0 := by
    obtain ⟨past, answers⟩ := starts.log
    refine ⟨⟨ups, available, mark, ?_, p.driver, p.driver, synced, by simp [past], rfl, ?_⟩, starts.client, starts.writes, by simp [past], ?_, ?_⟩
    · rw [starts.quiet]
      exact listening
    · rw [starts.quiet, past]
      exact .done p.driver
    · simpa [past] using starts.driver
    · rw [answers]
      exact inOrder_nil 0
  obtain ⟨moment, follows⟩ := follows_run start fair
  obtain ⟨_, _, _, _, _, _, _, at_, _⟩ := follows.ups
  obtain ⟨inside, -⟩ := List.getElem?_eq_some_iff.mp at_
  exact inOrder_later follows.answers (Nat.le_sub_one_of_lt inside)

def sampleReader : Client :=
  { id := 0, addr := cstr "::1", lastHeard := 0, loginups := none, password := none, username := none, tracking := false,
    ctx := pconfInit }

def sampleReadPath : ReadPath :=
  { driver := samplePair.1
    wire := []
    upsd := { sampleUpsd with firstups := [sampleUps], firstclient := [sampleReader] }
    conn := { connected := true, upserror := none, pcCtx := pconfInit, slots := [], readbuf := [], writable := true,
              incoming := [], sent := [] }
    past := [samplePair.1]
    answers := [] }

def sampleTurns : List PathTurn :=
  [.call 1 (.setinfo (cstr "ups.id") (cstr "a b")), .read 2 5, .ask 3 (cstr "ups.id") 512, .read 4 100,
    .ask 5 (cstr "ups.id") 512]

-- The first answer is the value before the change, since upsd has read five bytes of it only.
theorem monotonic_reads_sample :
    let after := sampleTurns.foldl (ReadPath.turn .byByte 0 (cstr "ups")) sampleReadPath
    InOrder (ToldAt false after.past) after.answers (after.past.length - 1) ∧
      after.answers.map Answer.value = [some (cstr "x"), some (cstr "a b")] := by
  obtain ⟨ordered, ⟨ordered', mutable⟩, equal, listening⟩ := samplePair_synced
  have asked : Asked (cstr "ups") (cstr "ups.id") := ⟨by decide, by decide, by decide⟩
  have reachable : sampleReadPath.driver.Reachable :=
    @Dstate.Reachable.call _ (@Dstate.Reachable.call _ .start 0 (.setinfo (cstr "ups.id") (cstr "x")) ⟨by decide, by decide +kernel⟩)
      0 .dataok trivial
  have starts : sampleReadPath.Starts 0 (cstr "ups") false := by
    refine ⟨reachable, rfl, ⟨sampleUps, ⟨by decide +kernel, rfl, rfl⟩, rfl, synced_iff.mpr ⟨ordered, ordered', mutable, equal⟩, listening⟩,
      ⟨_, rfl, ⟨atLineStart_init _ _, rfl, rfl⟩, ⟨rfl, rfl⟩, ?_, rfl, ?_, rfl⟩, rfl, rfl, rfl⟩
    · intro chunk member
      cases member
    · exact ⟨rfl, rfl, by decide, acceptable_nil, fun word member => by cases member⟩
  have fair : Always (ReadPath.turn .byByte 0 (cstr "ups")) (EachAction (Fair (cstr "ups"))) sampleReadPath sampleTurns := by
    refine ⟨⟨⟨by decide, by decide, by decide +kernel⟩, .inl ?_⟩, trivial, asked, trivial, asked, trivial⟩
    simp only [DstateOp.Unescaped]
    decide +kernel
  exact ⟨monotonic_reads .byByte 0 (cstr "ups") false sampleReadPath sampleTurns starts fair, by decide +kernel⟩

end Nut
