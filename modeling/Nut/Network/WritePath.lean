import Nut.Network.Requests
import Nut.Server.Accepted
import Nut.Server.FsdLatch

set_option autoImplicit false

namespace Nut

structure WritePath where
  upsd : Upsd
  wire : CString
  loop : Sock.Loop
  accepted : List (Request × Option CString)

inductive WriteTurn where
  | act (action : Action)
  | op (op : DstateOp)
  | read (count : Nat)

section Turns

variable (world : World) (fd : Nat) (upsname : CString)

def WritePath.turn (p : WritePath) : WriteTurn -> WritePath
  | .act action =>
    let after := perform p.upsd action
    { p with
      upsd := after
      wire := p.wire ++ (p.upsd.linesTo after upsname).flatten
      accepted := p.accepted ++ (action.accepts p.upsd upsname).toList }
  | .op op => { p with loop := { p.loop with sock := Sock.applyOp world p.loop.sock op } }
  | .read count =>
    let bytes := p.wire.take (min count smallbuf)
    if bytes = [] then p
    else
      { p with
        wire := p.wire.drop (min count smallbuf)
        loop := (Sock.sockRead world fd (.bytes bytes) p.loop).1 }

def Undisturbed (p : WritePath) : WriteTurn -> Prop
  | .act action =>
    (∃ ups, getUpsPtr (perform p.upsd action) upsname = some ups ∧ ups.connected = true) ∧
      ∀ id now arglist, action = .command id now arglist -> (∀ word ∈ arglist, Receivable word) ∧
        ∀ client request, p.upsd.findClient id = some client -> Request.of arglist = some request ->
          strcasecmp (deviceOf arglist) upsname = .eq -> request.Relayable (newTrackingId p.upsd client).1
  | _ => True

end Turns

def fromClient (words : List CString) : Bool :=
  words ≠ [cstr "PING"] ∧ words ≠ [cstr "DUMPALL"]

section Lines

theorem fromClient_words (request : Request) (id : Option CString) : fromClient (request.words id) = true := by
  have apart : cstr "SET" ≠ cstr "PING" ∧ cstr "SET" ≠ cstr "DUMPALL" ∧ cstr "INSTCMD" ≠ cstr "PING" ∧
      cstr "INSTCMD" ≠ cstr "DUMPALL" := by decide
  cases request <;> simp [fromClient, Request.words, apart]

variable {id : Option CString} (uuid : ∀ tracked ∈ id, Uuid tracked)

include uuid in
theorem isLine_request {request : Request} (isText : request.IsText) (short : ∀ word ∈ request.words none, word.length ≤ 512)
    (relayable : request.Relayable id) : IsLine 32 512 (request.line id) (request.words id) := by
  obtain ⟨few, fits⟩ := trackingWords_fit uuid
  obtain ⟨buf, written, cut⟩ := line_cut uuid request isText
  refine ⟨request.text id, ?_, ?_, ?_, ?_⟩
  · rw [written, (cut_newline cut).1 (by rw [Request.text_length]; exact relayable.1)]
  · have set : BareWord (cstr "SET") := by decide
    have keyword : BareWord (cstr "INSTCMD") := by decide
    obtain ⟨var, newval⟩ | ⟨cmdname, _ | value⟩ := request
    · have word : Word var := relayable.2
      have line := lineOf_tracking uuid (.more set.token (.more word.token (.last (.quoted (quotedAs_escapeAll isText.2)))))
      simpa [Request.text, Request.words, cstr] using line
    · have word : Word cmdname := relayable.2
      have line := lineOf_tracking uuid (.more keyword.token (.last word.token))
      simpa [Request.text, Request.words, cstr] using line
    · obtain ⟨word, escaped⟩ : Word cmdname ∧ (EscapedWord value ∨ value = [61]) := relayable.2
      have token := escaped_token (isText.2 value rfl) escaped
      have line := lineOf_tracking uuid (.more keyword.token (.more word.token (.last token)))
      simpa [Request.text, Request.words, cstr] using line
  · cases request with
    | set var newval => simp [Request.words]; omega
    | instcmd cmdname value => cases value <;> simp [Request.words] <;> omega
  · intro word member
    have either : word ∈ request.words none ∨ word ∈ Request.trackingWords id := by
      cases request <;> simp [Request.words, Request.trackingWords] at member ⊢ <;> tauto
    obtain own | tracking := either
    · exact short word own
    · exact fits word tracking

theorem isLine_house {line : CString} (house : Housekeeping line) :
    ∃ words, IsLine 32 512 line words ∧ Sock.Asks words ∧ fromClient words = false := by
  have one (word : CString) (bare : BareWord word) (short : word.length ≤ 512) : IsLine 32 512 (word ++ [10]) [word] :=
    ⟨word, rfl, .last bare.token, by simp, by simpa using short⟩
  obtain rfl | rfl := house
  · exact ⟨_, one (cstr "PING") (by decide) (by decide), .ping, by decide⟩
  · exact ⟨_, one (cstr "DUMPALL") (by decide) (by decide), .dumpall, by decide⟩

end Lines

section Actions

variable {w after : Upsd} {upsname : CString}

theorem linesTo_added {added : List (CString × CString)} (lines : after.lines = w.lines ++ added) :
    w.linesTo after upsname = (added.filter fun line => strcasecmp line.1 upsname = .eq).map Prod.snd := by
  simp [Upsd.linesTo, lines]

structure Fed (lines : List CString) (words : List (List CString)) (requests : List (Request × Option CString)) : Prop where
  areLines : List.Forall₂ (IsLine 32 512) lines words
  asks : ∀ line ∈ words, Sock.Asks line
  requests : words.filter fromClient = requests.map fun entry => entry.1.words entry.2

theorem fed_house {lines : List CString} (house : ∀ line ∈ lines, Housekeeping line) : ∃ words, Fed lines words [] := by
  induction lines with
  | nil => exact ⟨[], .nil, by simp, by simp⟩
  | cons line rest ih =>
    obtain ⟨words, areLines, asks, requests⟩ := ih fun other member => house other (List.mem_cons_of_mem line member)
    obtain ⟨first, isLine, asks', own⟩ := isLine_house (house line List.mem_cons_self)
    exact ⟨first :: words, .cons isLine areLines, List.forall_mem_cons.mpr ⟨asks', asks⟩, by simpa [own] using requests⟩

theorem fed_maintained (kept : ∃ added, after.lines = w.lines ++ added ∧ ∀ line ∈ added, Housekeeping line.2) :
    ∃ words, Fed (w.linesTo after upsname) words [] := by
  obtain ⟨added, lines, house⟩ := kept
  rw [linesTo_added lines]
  refine fed_house fun line member => ?_
  obtain ⟨entry, inside, rfl⟩ := List.mem_map.mp member
  exact house entry (List.mem_filter.mp inside).1

theorem fed_silent (lines : after.lines = w.lines) : ∃ words, Fed (w.linesTo after upsname) words [] :=
  fed_maintained ⟨[], by simpa using lines, by simp⟩

theorem modifyUps_asked {asked : CString} (same : strcasecmp asked upsname = .eq) (change : Upstype -> Upstype) (list : List Upstype) :
    modifyUps asked change list = modifyUps upsname change list := by
  have folded := (strcasecmp_eq_iff _ _).mp same
  induction list with
  | nil => rfl
  | cons first rest ih => simp [modifyUps, ih, strcasecmp_eq_iff, folded]

theorem lost_closed {ups : Upstype} {device : CString} (known : getUpsPtr w device = some ups)
    (firstups : after.firstups = modifyUps ups.name sstateDisconnect w.firstups) (asked : strcasecmp ups.name upsname = .eq) :
    ¬ ∃ ups, getUpsPtr after upsname = some ups ∧ ups.connected = true := by
  rintro ⟨ups', found, connected⟩
  have here : getUpsPtr w upsname = some ups := by
    have folded := (strcasecmp_eq_iff _ _).mp asked
    have own := getUpsPtr_name known
    simpa only [getUpsPtr, beq_iff_eq, Bool.beq_eq_decide_eq, strcasecmp_eq_iff, folded] using own
  rw [getUpsPtr, firstups, modifyUps_asked asked, find_modifyUps here (sameAccount_sstateDisconnect ups).1] at found
  obtain rfl := Option.some.inj found
  unfold sstateDisconnect at connected
  split at connected <;> simp_all

theorem accepts_replied {id : Nat} {now : Int} {arglist : List CString} {request : Request} (asked : Request.of arglist = some request)
    {reply : Reply} {sent : Bool} (replies : (serveLine now id w arglist).replies = w.replies ++ [(id, reply, sent)]) :
    (Action.command id now arglist).accepts w upsname =
      if strcasecmp (deviceOf arglist) upsname = .eq then (acceptedAs reply).map fun trackingId => (request, trackingId) else none := by
  simp [Action.accepts, asked, @replyTo_of w (.command id now arglist) id reply sent replies]

theorem fed_command {id : Nat} {now : Int} {arglist : List CString}
    (connected : ∃ ups, getUpsPtr (serveLine now id w arglist) upsname = some ups ∧ ups.connected = true)
    (received : ∀ word ∈ arglist, Receivable word)
    (relayable : ∀ client request, w.findClient id = some client -> Request.of arglist = some request ->
      strcasecmp (deviceOf arglist) upsname = .eq -> request.Relayable (newTrackingId w client).1) :
    ∃ words, Fed (w.linesTo (serveLine now id w arglist) upsname) words ((Action.command id now arglist).accepts w upsname).toList := by
  cases found : w.findClient id with
  | none =>
    have gone := serveLine_gone now found arglist
    have silent : replyTo w (.command id now arglist) = none := by simp [replyTo, perform, gone]
    simpa [Action.accepts, silent] using @fed_silent w _ upsname (congrArg Upsd.lines gone)
  | some client =>
    cases asked : Request.of arglist with
    | none =>
      have lines : (serveLine now id w arglist).lines = w.lines := by
        obtain ⟨_, same⟩ | ⟨client', between, found', effect, answers⟩ := serveLine_cases now id w arglist
        · rw [same]
        · obtain ⟨_, _, _, _, answered, _⟩ := answers
          rw [answered]
          obtain same | ⟨_, _, isLine, _⟩ := effect_line effect
          · exact same
          · obtain ⟨request, asked', -⟩ := line_request isLine
            rw [asked] at asked'
            cases asked'
      simpa [Action.accepts, asked] using @fed_silent w _ upsname lines
    | some request =>
      have accepts {reply : Reply} {sent : Bool} := @accepts_replied w upsname id now arglist request asked reply sent
      cases answers_request now found asked with
      | refused errtype sent replies lines => simpa [accepts replies, acceptedAs, ok] using @fed_silent w _ upsname lines
      | lost ups errtype sent known replies lines firstups =>
        have other : ¬ strcasecmp ups.name upsname = .eq := fun asked => lost_closed known firstups asked connected
        simpa [accepts replies, acceptedAs, ok, linesTo_added lines, other] using fed_house (fun line member => by cases member)
      | passed ups sent known replies lines =>
        have named : strcasecmp ups.name (deviceOf arglist) = .eq := by simpa using List.find?_some known
        have same : strcasecmp (deviceOf arglist) upsname = .eq ↔ strcasecmp ups.name upsname = .eq := by
          simp only [strcasecmp_eq_iff] at named ⊢
          rw [named]
        rw [accepts replies, acceptedAs_accepting, linesTo_added lines]
        by_cases asked' : strcasecmp ups.name upsname = .eq
        · obtain ⟨isText, short⟩ := request_received asked received
          have uuid : ∀ tracked ∈ (newTrackingId w client).1, Uuid tracked := by
            intro tracked member
            unfold newTrackingId at member
            split_ifs at member
            · obtain rfl := Option.some.inj member
              exact uuid_nutUuidV4 w.randoms
            · cases member
          have isLine := isLine_request uuid isText short (relayable client request found asked (same.mpr asked'))
          refine ⟨[request.words (newTrackingId w client).1], ?_, ?_, ?_⟩
          · simpa [asked'] using isLine
          · simpa using Sock.Asks.request request (newTrackingId w client).1
          · simp [fromClient_words, same, asked']
        · simpa [same, asked'] using fed_house (fun line member => by cases member)

theorem fed_perform {action : Action}
    (connected : ∃ ups, getUpsPtr (perform w action) upsname = some ups ∧ ups.connected = true)
    (relayable : ∀ id now arglist, action = .command id now arglist -> (∀ word ∈ arglist, Receivable word) ∧
      ∀ client request, w.findClient id = some client -> Request.of arglist = some request ->
        strcasecmp (deviceOf arglist) upsname = .eq -> request.Relayable (newTrackingId w client).1) :
    ∃ words, Fed (w.linesTo (perform w action) upsname) words (action.accepts w upsname).toList := by
  cases action with
  | command id now arglist => exact fed_command connected (relayable id now arglist rfl).1 (relayable id now arglist rfl).2
  | parsed id ctx => exact fed_maintained ⟨[], by simp [perform, Upsd.updateClient], by simp⟩
  | connect now addr => exact fed_maintained ⟨[], by simp [perform, clientConnect], by simp⟩
  | reload now up r => exact fed_maintained (maintained_confReload now up r w).lines
  | trackingCleanup now => exact fed_maintained (quiet_trackingCleanup now w).lines
  | scanDriver now up name => exact fed_maintained (quiet_scanDriver now up w name).lines
  | scanClients now => exact fed_maintained (upkeep_scanClients now w).lines
  | driver name event => exact fed_maintained (quiet_serveDriver w name event).lines
  | disconnect id => exact fed_maintained (upkeep_clientDisconnect w id).lines

end Actions

-- The driver's handler was called with what the client asked for.
def Fulfilled (world : World) (fd : Nat) (entry : Request × Option CString) (call : Sock.Call) : Prop :=
  call.fd = fd ∧ call.after = (Sock.serve world fd entry.1 entry.2 call.before).1

structure Tracks (world : World) (fd : Nat) (p : WritePath) : Prop where
  fine : p.loop.sock.errno ≠ .enotconn
  conn : ∃ conn, Sock.Has fd conn p.loop.sock ∧ Between (readCtx conn.ctx p.wire) ∧
    ∃ words, List.Forall₂ (Sock.Takes world fd) words p.loop.calls ∧
      (∀ line ∈ words ++ readLines conn.ctx p.wire, Sock.Asks line) ∧
      (words ++ readLines conn.ctx p.wire).filter fromClient = p.accepted.map fun entry => entry.1.words entry.2

section Runs

variable {world : World} {fd : Nat} {upsname : CString} {p : WritePath}

theorem tracks_act (tracks : Tracks world fd p) {action : Action} (undisturbed : Undisturbed upsname p (.act action)) :
    Tracks world fd (p.turn world fd upsname (.act action)) := by
  obtain ⟨conn, has, between, words, takes, asks, requests⟩ := tracks.conn
  obtain ⟨more, areLines, asks', requests'⟩ := fed_perform undisturbed.1 undisturbed.2
  obtain ⟨read, between'⟩ := read_lines between areLines
  refine ⟨tracks.fine, conn, has, ?_, words, takes, ?_, ?_⟩
  · simpa [WritePath.turn, readCtx_append] using between'
  · simp only [WritePath.turn, readLines_append, read, <- List.append_assoc]
    exact List.forall_mem_append.mpr ⟨asks, asks'⟩
  · simp only [WritePath.turn, readLines_append, read, <- List.append_assoc]
    rw [List.filter_append, requests, requests', List.map_append]

theorem tracks_op (sound : world.Sound fd) (tracks : Tracks world fd p) (op : DstateOp) :
    Tracks world fd (p.turn world fd upsname (.op op)) := by
  obtain ⟨conn, has, behind⟩ := tracks.conn
  exact ⟨Sock.applyOp_errno op tracks.fine, conn, Sock.applyOp_has sound.delivers op has, behind⟩

theorem tracks_read (sound : world.Sound fd) (tracks : Tracks world fd p) (count : Nat) :
    Tracks world fd (p.turn world fd upsname (.read count)) := by
  obtain ⟨conn, has, between, words, takes, asks, requests⟩ := tracks.conn
  by_cases nothing : p.wire.take (min count smallbuf) = []
  · simpa [WritePath.turn, nothing] using tracks
  · have whole := (List.take_append_drop (min count smallbuf) p.wire).symm
    rw [whole, readLines_append, <- List.append_assoc] at asks requests
    rw [whole, readCtx_append] at between
    obtain ⟨asks, later⟩ := List.forall_mem_append.mp asks
    obtain ⟨earlier, now⟩ := List.forall_mem_append.mp asks
    have few : (p.wire.take (min count smallbuf)).length ≤ smallbuf := by
      rw [List.length_take]
      omega
    obtain ⟨has', fine', calls, made, takes'⟩ := Sock.sockRead_taken sound has tracks.fine few now
    simp only [WritePath.turn, nothing, if_false]
    refine ⟨fine', _, has', between, words ++ readLines conn.ctx (p.wire.take (min count smallbuf)), ?_, ?_, requests⟩
    · rw [made]
      exact List.rel_append takes takes'
    · exact List.forall_mem_append.mpr ⟨asks, later⟩

theorem tracks_run (sound : world.Sound fd) (tracks : Tracks world fd p) {turns : List WriteTurn}
    (undisturbed : Always (WritePath.turn world fd upsname) (EachAction (Undisturbed upsname)) p turns) :
    Tracks world fd (turns.foldl (WritePath.turn world fd upsname) p) := by
  induction turns generalizing p with
  | nil => exact tracks
  | cons turn rest ih =>
    refine ih ?_ undisturbed.2
    cases turn with
    | act action => exact tracks_act tracks undisturbed.1
    | op op => exact tracks_op sound tracks op
    | read count => exact tracks_read sound tracks count

theorem fulfilled_takes {entry : Request × Option CString} {call : Sock.Call} (takes : Sock.Takes world fd (entry.1.words entry.2) call) :
    Fulfilled world fd entry call := by
  refine ⟨takes.from_, ?_⟩
  rw [takes.after, Sock.sockArg_words takes.open_]

theorem tracks_executed (tracks : Tracks world fd p) : ∃ executed pending, p.accepted = executed ++ pending ∧
      List.Forall₂ (Fulfilled world fd) executed (p.loop.calls.filter fun call => fromClient call.arg) ∧
      (p.wire = [] -> pending = []) := by
  obtain ⟨conn, -, -, words, takes, -, requests⟩ := tracks.conn
  rw [List.filter_append] at requests
  obtain ⟨executed, pending, split, first, second⟩ := List.map_eq_append_iff.mp requests.symm
  have calls : List.Forall₂ (Sock.Takes world fd) (words.filter fromClient) (p.loop.calls.filter fun call => fromClient call.arg) :=
    List.rel_filter (fun words call takes => by simp [takes.arg]) takes
  rw [<- first, List.forall₂_map_left_iff] at calls
  refine ⟨executed, pending, split, calls.imp fun entry call takes => fulfilled_takes takes, fun empty => ?_⟩
  simpa [empty, readLines] using second

end Runs

structure WritePath.Starts (p : WritePath) (fd : Nat) : Prop where
  conn : ∃ conn, Sock.Has fd conn p.loop.sock ∧ Between conn.ctx
  fine : p.loop.sock.errno ≠ .enotconn
  quiet : p.wire = [] ∧ p.loop.calls = [] ∧ p.accepted = []

-- However the actions of upsd, the calls of the driver and its reads come after each other: the driver
-- executes each request that upsd has told a client it passes on, once, in that order, with the words
-- of the client, and nothing else. Those that it has not executed are still on their way.
theorem requests_executed (world : World) (fd : Nat) (upsname : CString) (p : WritePath) (turns : List WriteTurn)
    (sound : world.Sound fd) (starts : p.Starts fd)
    (undisturbed : Always (WritePath.turn world fd upsname) (EachAction (Undisturbed upsname)) p turns) :
    let after := turns.foldl (WritePath.turn world fd upsname) p
    ∃ executed pending, after.accepted = executed ++ pending ∧
      List.Forall₂ (Fulfilled world fd) executed (after.loop.calls.filter fun call => fromClient call.arg) ∧
      (after.wire = [] -> pending = []) := by
  have start : Tracks world fd p := by
    obtain ⟨conn, has, between⟩ := starts.conn
    obtain ⟨wire, calls, accepted⟩ := starts.quiet
    refine ⟨starts.fine, conn, has, ?_, [], ?_, ?_, ?_⟩ <;> simp [wire, calls, accepted, readCtx, readLines, between]
  exact tracks_executed (tracks_run sound start undisturbed)

def sampleWorld : World where
  write _ _ := .complete
  now _ := 0
  pid := 1
  instcmd _ _ _ := { ops := [.setinfo (cstr "ups.test.result") (cstr "started")], errno := .ok, ret := 0 }
  setvar _ _ _ := none

def sampleWritePath : WritePath :=
  { upsd := sampleClient
    wire := []
    loop := { Sock.driverStart 0 with sock := (Sock.driverStart 0).sock.sockConnect 4 }
    accepted := [] }

def sampleRequest : Action :=
  .command 0 1000 [cstr "INSTCMD", cstr "ups", cstr "test.start", cstr "5"]

def sampleWriteTurns : List WriteTurn :=
  [.act (.command 0 999 [cstr "SET", cstr "TRACKING", cstr "ON"]), .act sampleRequest, .read 5, .op .dataok, .read 100]

theorem requests_executed_sample :
    let after := sampleWriteTurns.foldl (WritePath.turn sampleWorld 4 (cstr "ups")) sampleWritePath
    (∃ executed pending, after.accepted = executed ++ pending ∧
      List.Forall₂ (Fulfilled sampleWorld 4) executed (after.loop.calls.filter fun call => fromClient call.arg) ∧
      (after.wire = [] -> pending = [])) ∧
      after.wire = [] ∧
      after.loop.calls.map Sock.Call.arg =
        [[cstr "INSTCMD", cstr "test.start", cstr "5", cstr "TRACKING", nutUuidV4 []]] := by
  have sound : sampleWorld.Sound 4 := by
    refine ⟨fun _ => rfl, fun _ _ _ => by simp [sampleWorld], fun _ _ _ handling member => ?_⟩
    cases member
  have starts : sampleWritePath.Starts 4 :=
    ⟨⟨⟨4, pconfInit, false, 0, false⟩, ⟨by decide, rfl⟩, atLineStart_init _ _, rfl, rfl⟩, by decide, rfl, rfl, rfl⟩
  have connected (w : Upsd) (there : (getUpsPtr w (cstr "ups")).any Upstype.connected = true) :
      ∃ ups, getUpsPtr w (cstr "ups") = some ups ∧ ups.connected = true := by
    simpa [Option.any_eq_true] using there
  have receivable (words : List CString) (plain : words.all (fun word => decide (word.length ≤ 512) && word.all isText) = true) :
      ∀ word ∈ words, Receivable word := by
    simpa [Receivable, pconfDefaultWordlenLimit] using plain
  have undisturbed : Always (WritePath.turn sampleWorld 4 (cstr "ups")) (EachAction (Undisturbed (cstr "ups"))) sampleWritePath
      sampleWriteTurns := by
    refine ⟨⟨connected _ (by decide +kernel), ?_⟩, ⟨connected _ (by decide +kernel), ?_⟩, trivial, trivial, trivial, trivial⟩
    · rintro _ _ _ ⟨⟩
      refine ⟨receivable _ (by decide +kernel), fun client request _ asked => ?_⟩
      cases asked
    · rintro _ _ _ ⟨⟩
      refine ⟨receivable _ (by decide +kernel), fun client request _ asked _ => ?_⟩
      obtain rfl := Option.some.inj asked
      refine ⟨?_, .inl (by decide), .inl (by decide)⟩
      unfold newTrackingId
      split <;> simp [Request.length, Request.trackingText] <;> decide
  exact ⟨requests_executed sampleWorld 4 (cstr "ups") sampleWritePath sampleWriteTurns sound starts undisturbed, by decide +kernel,
    by decide +kernel⟩

end Nut
