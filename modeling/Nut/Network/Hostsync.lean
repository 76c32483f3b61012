import Nut.Network.Logins

set_option autoImplicit false

namespace Nut

structure MonitoredUps where
  server : Nat
  upsname : CString
  id : Nat
  isPrimary : Bool

inductive Luck where
  | answered
  -- no reply comes; upsd may have served it
  | lost (served : Bool)
  deriving DecidableEq

inductive Phase where
  | fsd (next : Nat)
  | round (start : Int) (next : Nat) (maxlogins : Int64)
  | down (timedOut : Bool)
  deriving DecidableEq

structure Look where
  index : Nat
  upsd : Upsd
  logins : Option Int64

-- upsmon in `forceshutdown`, with the upsds that it talks to.
structure Shutdown where
  servers : Nat -> Upsd
  conns : Nat -> Upsconn
  phase : Phase
  looks : List Look

def fsdLine (upsname : CString) : CString :=
  snprintf smallbuf (cstr "FSD " ++ upsname ++ cstr "\n")

section Requests

variable (cutting : Cutting) (now : Int) (w : Upsd) (id : Nat) (conn : Upsconn)

def setfsd (upsname : CString) : Upsd × Upsconn :=
  match conn.sendline (fsdLine upsname) with
  | (conn, false) => (w, conn)
  | (conn, true) =>
    let after := clientReadline now w id (some (fsdLine upsname))
    (after, ((conn.gets cutting ((w.answers after id).flatMap Reply.ans)).readline smallbuf).1)

def fate (luck : Luck) : Luck :=
  if conn.connected && (w.findClient id).isSome then luck else .lost false

def askFsd (upsname : CString) (luck : Luck) : Upsd × Upsconn :=
  match fate w id conn luck with
  | .answered => setfsd cutting now w id conn upsname
  | .lost served => (if served then clientReadline now w id (some (fsdLine upsname)) else w, conn.disconnect)

def askNumlogins (upsname : CString) (luck : Luck) : Exchanged :=
  match fate w id conn luck with
  | .answered => exchange cutting now id w conn (getVarQuery upsname "numlogins") smallbuf
  | .lost served =>
    { upsd := if served then clientReadline now w id (some (buildCmd upscliNetbufLen (cstr "GET") (getVarQuery upsname "numlogins")))
        else w
      ups := conn.disconnect
      value := none }

end Requests

-- Without an answer, the UPS counts for nothing.
def atLeast (maxlogins : Int64) : Option Int64 -> Int64
  | some logins => if logins > maxlogins then logins else maxlogins
  | none => maxlogins

inductive ShutdownEvent where
  -- something else happens at a upsd
  | act (server : Nat) (action : Action)
  | next (now : Int) (luck : Luck)

section Steps

variable (cutting : Cutting) (upses : List MonitoredUps) (hostsync : Int)

-- upsmon gets on with `forceshutdown`, by one request or to the end of a loop.
def Shutdown.next (now : Int) (luck : Luck) (s : Shutdown) : Shutdown :=
  match s.phase with
  | .fsd i =>
    match upses[i]? with
    | none => { s with phase := if upses.any MonitoredUps.isPrimary then .round now 0 0 else .down false, looks := [] }
    | some ups =>
      if ups.isPrimary then
        let (w, conn) := askFsd cutting now (s.servers ups.server) ups.id (s.conns i) ups.upsname luck
        { s with
          servers := Function.update s.servers ups.server w
          conns := Function.update s.conns i conn
          phase := .fsd (i + 1) }
      else { s with phase := .fsd (i + 1) }
  | .round start i maxlogins =>
    match upses[i]? with
    | none =>
      if maxlogins ≤ 1 then { s with phase := .down false }
      else if now - start > hostsync then { s with phase := .down true }
      else { s with phase := .round start 0 0, looks := [] }
    | some ups =>
      if ups.isPrimary then
        let done := askNumlogins cutting now (s.servers ups.server) ups.id (s.conns i) ups.upsname luck
        let logins := done.value.map strtol
        { servers := Function.update s.servers ups.server done.upsd
          conns := Function.update s.conns i done.ups
          phase := .round start (i + 1) (atLeast maxlogins logins)
          looks := s.looks ++ [⟨i, s.servers ups.server, logins⟩] }
      else { s with phase := .round start (i + 1) maxlogins }
  | .down _ => s

def Shutdown.step (s : Shutdown) : ShutdownEvent -> Shutdown
  | .act server action => { s with servers := Function.update s.servers server (perform (s.servers server) action) }
  | .next now luck => s.next cutting upses hostsync now luck

-- Others do not act for the clients of this upsmon, and no upsd has more clients than a counter of logins can tell.
def Shutdown.Fair (s : Shutdown) : ShutdownEvent -> Prop
  | .act server action => ∀ ups ∈ upses, ups.server = server -> action.Spares ups.id
  | .next _ luck => ∀ ups ∈ upses, (s.servers ups.server).firstclient.length < 2 ^ 31 ∧
      (luck = .answered -> (s.servers ups.server).nextWrite = true)

instance Shutdown.Fair.decidable (s : Shutdown) : (event : ShutdownEvent) -> Decidable (s.Fair upses event)
  | .act server action => inferInstanceAs (Decidable (∀ ups ∈ upses, ups.server = server -> action.Spares ups.id))
  | .next _ luck => inferInstanceAs (Decidable (∀ ups ∈ upses, (s.servers ups.server).firstclient.length < 2 ^ 31 ∧
      (luck = .answered -> (s.servers ups.server).nextWrite = true)))

end Steps

section Talks

variable {cutting : Cutting} {now : Int} {w : Upsd} {id : Nat} {conn : Upsconn} {client : Client} {upsname : CString}

theorem isLine_fsd (bare : BareWord upsname) (short : upsname.length ≤ 200) :
    IsLine 32 512 (fsdLine upsname) [cstr "FSD", upsname] := by
  have keyword : BareWord (cstr "FSD") := by decide
  have whole : fsdLine upsname = cstr "FSD" ++ [32] ++ upsname ++ [10] := by
    have length : (cstr "FSD ").length = 4 ∧ (cstr "\n").length = 1 := ⟨rfl, rfl⟩
    rw [fsdLine, snprintf_fits (by simp only [List.length_append, smallbuf]; omega)]
    rfl
  refine ⟨_, whole, .ofToken keyword.token (.last bare.token), by simp, ?_⟩
  have length : (cstr "FSD").length = 3 := rfl
  simp only [List.forall_mem_cons, List.not_mem_nil, false_imp_iff, implies_true, and_true]
  omega

theorem serveLine_fsd (now : Int) (found : w.findClient id = some client) (written : w.nextWrite = true) (upsname : CString) :
    ∃ (between : Upsd) (reply : Reply) (text : CString),
      serveLine now id w [cstr "FSD", upsname] = between.reply id reply ∧ between.replies = w.replies ∧
      between.nextWrite = true ∧ reply.format = text ++ [10] ∧ text.length ≤ 510 ∧ 10 ∉ text := by
  have table : (netcmds.find? fun cmd => isCommand (cstr "FSD") cmd.name) = some ⟨"FSD", fun _ => netFsd, true⟩ := rfl
  have itself : (client.hear now).id = id := (findClient_spec found).2
  -- All refusals look the same.
  have refused (errtype : String) (fits : (cstr ("ERR " ++ errtype)).length ≤ 510 ∧ 10 ∉ cstr ("ERR " ++ errtype))
      (format : (Reply.err errtype).format = cstr ("ERR " ++ errtype) ++ [10]) :
      ∃ (between : Upsd) (reply : Reply) (text : CString),
        sendErr (w.updateClient id (Client.hear now)) (client.hear now).id errtype = between.reply id reply ∧
          between.replies = w.replies ∧ between.nextWrite = true ∧ reply.format = text ++ [10] ∧ text.length ≤ 510 ∧ 10 ∉ text :=
    ⟨w.updateClient id (Client.hear now), _, _, by rw [sendErr, itself], rfl, written, format, fits.1, fits.2⟩
  rw [serveLine_found now found, parseNet, table]
  simp only [checkCommand, if_true]
  split
  next => exact refused "USERNAME-REQUIRED" (by decide) rfl
  next => exact refused "PASSWORD-REQUIRED" (by decide) rfl
  next =>
    split_ifs
    · exact refused "ACCESS-DENIED" (by decide) rfl
    · simp only [netFsd, withUps]
      split
      next => exact refused "UNKNOWN-UPS" (by decide) rfl
      next ups _ =>
        split_ifs
        · refine ⟨(w.updateClient id (Client.hear now)).updateUps ups.name fun ups => { ups with fsd := true },
            .line (cstr "OK FSD-SET\n"), cstr "OK FSD-SET", ?_, rfl, written, rfl, by decide, by decide⟩
          rw [itself]
        · exact refused "ACCESS-DENIED" (by decide) rfl

theorem setfsd_ready (linked : Linked w id client conn) (written : w.nextWrite = true) (bare : BareWord upsname)
    (short : upsname.length ≤ 200) :
    (setfsd cutting now w id conn upsname).1 = clientReadline now w id (some (fsdLine upsname)) ∧
      ConnReady (setfsd cutting now w id conn upsname).2 := by
  have isLine := isLine_fsd bare short
  have read := clientReadline_line now linked.found linked.line isLine
  obtain ⟨between, reply, text, served, same, writes, format, fits, free⟩ := serveLine_fsd now linked.found written upsname
  rw [served] at read
  have answer := @answers_one w id _ same writes reply ⟨.endofline, [cstr "FSD", upsname], [], 32, 512⟩
  have nonempty : fsdLine upsname ≠ [] := by
    obtain ⟨body, whole, -⟩ := isLine
    simp [whole]
  have sent : conn.sendline (fsdLine upsname) = ({ conn with sent := conn.sent ++ [fsdLine upsname] }, true) := by
    simp [Upsconn.sendline, linked.connected.1, linked.connected.2, nonempty]
  obtain ⟨pending, chunked⟩ := gets_pending cutting linked (text ++ [10])
  obtain ⟨readbuf, incoming, readline, left, still⟩ :=
    @readline_line (Upsconn.gets cutting { conn with sent := conn.sent ++ [fsdLine upsname] } (text ++ [10])) [] text
      linked.connected.1 chunked free fits pending
  unfold setfsd
  rw [sent]
  dsimp only
  rw [read, answer, ans_line format fits, show smallbuf = upscliNetbufLen from rfl, readline]
  exact ⟨rfl, linked.connected.2, still, left, linked.parser⟩

structure Talked (w : Upsd) (after : Upsd) (conn : Upsconn) : Prop where
  accounted : Accounted after
  clients : ∀ other, ClientReady w other -> ClientReady after other
  conn : conn.connected = true -> ConnReady conn

theorem talked_lost (accounted : Accounted w) (ready : ClientReady w id) (conn : Upsconn) (served : Bool) {text : CString}
    {words : List CString} (isLine : IsLine 32 512 text words) :
    Talked w (if served then clientReadline now w id (some text) else w) conn.disconnect := by
  cases served with
  | false => exact ⟨accounted, fun _ ready => ready, fun connected => by cases connected⟩
  | true =>
    obtain ⟨accounted', clients⟩ := clientReady_line now accounted ready isLine
    exact ⟨accounted', clients, fun connected => by cases connected⟩

theorem fate_answered {luck : Luck} (answered : fate w id conn luck = .answered) :
    luck = .answered ∧ conn.connected = true ∧ ∃ client, w.findClient id = some client := by
  unfold fate at answered
  split_ifs at answered with open_
  · simp only [Bool.and_eq_true] at open_
    exact ⟨answered, open_.1, Option.isSome_iff_exists.mp open_.2⟩

theorem askFsd_talked {luck : Luck} (accounted : Accounted w) (clientReady : ClientReady w id)
    (connReady : conn.connected = true -> ConnReady conn) (written : luck = .answered -> w.nextWrite = true)
    (bare : BareWord upsname) (short : upsname.length ≤ 200) :
    Talked w (askFsd cutting now w id conn upsname luck).1 (askFsd cutting now w id conn upsname luck).2 := by
  have isLine := isLine_fsd bare short
  unfold askFsd
  split
  next answered =>
    obtain ⟨lucky, connected, client, found⟩ := fate_answered answered
    have linked := ready_linked found clientReady connected (connReady connected)
    obtain ⟨same, ready⟩ := @setfsd_ready cutting now _ _ _ _ _ linked (written lucky) bare short
    obtain ⟨accounted', clients⟩ := clientReady_line now accounted clientReady isLine
    rw [same]
    exact ⟨accounted', clients, fun _ => ready⟩
  next served _ => exact talked_lost accounted clientReady conn served isLine

theorem askNumlogins_talked {luck : Luck} (accounted : Accounted w) (clientReady : ClientReady w id)
    (connReady : conn.connected = true -> ConnReady conn) (few : w.firstclient.length < 2 ^ 31)
    (written : luck = .answered -> w.nextWrite = true) (bare : BareWord upsname) (short : upsname.length ≤ 200) :
    Talked w (askNumlogins cutting now w id conn upsname luck).upsd (askNumlogins cutting now w id conn upsname luck).ups ∧
      ∀ text, (askNumlogins cutting now w id conn upsname luck).value = some text ->
        ∃ ups, getUpsPtr w upsname = some ups ∧ (strtol text).toInt = w.logins ups.name := by
  have query : getVarQuery upsname "numlogins" = [cstr "NUMLOGINS", upsname] := rfl
  obtain ⟨askable, request⟩ := numlogins_request bare short
  have isLine := @isLine_buildCmd (cstr "GET") (by decide) _ askable (by simp) request
  unfold askNumlogins
  rw [query]
  split
  next answered =>
    obtain ⟨lucky, connected, client, found⟩ := fate_answered answered
    have linked := ready_linked found clientReady connected (connReady connected)
    obtain ⟨value, client', linked'⟩ := exchange_numlogins cutting now linked (written lucky) accounted few bare short
    obtain ⟨accounted', clients⟩ := clientReady_line now accounted clientReady isLine
    refine ⟨⟨accounted', clients, fun _ => linked_ready linked'⟩, ?_⟩
    intro text some_
    obtain none_ | ⟨ups, known, shown⟩ := value
    · rw [none_] at some_
      cases some_
    · obtain rfl : printInt (w.logins ups.name) = text := Option.some.inj (shown.symm.trans some_)
      have bound := (logins_few accounted few (List.mem_of_find?_eq_some known)).2
      refine ⟨ups, known, ?_⟩
      rw [strtol_printInt (by simp only [longMin]; omega) (by simp only [longMax]; omega)]
      exact Int64.toInt_ofInt_of_le (by omega) (by omega)
  next served _ =>
    exact ⟨talked_lost accounted clientReady conn served isLine, fun text some_ => by cases some_⟩

end Talks

section Runs

variable {cutting : Cutting} {upses : List MonitoredUps} {hostsync : Int} {s : Shutdown}

def Look.Honest (upses : List MonitoredUps) (look : Look) : Prop :=
  Accounted look.upsd ∧ ∃ ups, upses[look.index]? = some ups ∧ ∀ n, look.logins = some n ->
    ∃ there, getUpsPtr look.upsd ups.upsname = some there ∧ n.toInt = look.upsd.logins there.name

def Shutdown.Asked (upses : List MonitoredUps) (s : Shutdown) (upto : Nat) (maxlogins : Int64) : Prop :=
  ∀ i < upto, ∀ ups, upses[i]? = some ups -> ups.isPrimary = true ->
    ∃ look ∈ s.looks, look.index = i ∧ ∀ n, look.logins = some n -> n ≤ maxlogins

structure Shutdown.Orderly (upses : List MonitoredUps) (s : Shutdown) : Prop where
  accounted : ∀ server, Accounted (s.servers server)
  clients : ∀ ups ∈ upses, ClientReady (s.servers ups.server) ups.id
  conns : ∀ i, (s.conns i).connected = true -> ConnReady (s.conns i)
  honest : ∀ look ∈ s.looks, look.Honest upses
  asked : ∀ start i maxlogins, s.phase = .round start i maxlogins -> s.Asked upses i maxlogins
  gone : s.phase = .down false -> s.Asked upses upses.length 1

theorem atLeast_le (maxlogins : Int64) (logins : Option Int64) :
    maxlogins ≤ atLeast maxlogins logins ∧ ∀ n, logins = some n -> n ≤ atLeast maxlogins logins := by
  cases logins with
  | none => simp [atLeast]
  | some logins =>
    simp only [atLeast, Option.some.injEq, forall_eq', Int64.le_iff_toInt_le, gt_iff_lt, Int64.lt_iff_toInt_lt]
    split_ifs <;> omega

theorem asked_none (upses : List MonitoredUps) (s : Shutdown) (maxlogins : Int64) : s.Asked upses 0 maxlogins := by
  intro i inside
  omega

theorem asked_more {i : Nat} {maxlogins more : Int64} (asked : s.Asked upses i maxlogins) (le : maxlogins ≤ more) :
    s.Asked upses i more := by
  intro j before ups known primary
  obtain ⟨look, member, same, few⟩ := asked j before ups known primary
  exact ⟨look, member, same, fun n some_ => Int64.le_trans (few n some_) le⟩

theorem asked_succ {s' : Shutdown} {i : Nat} {maxlogins : Int64} {ups : MonitoredUps} (asked : s.Asked upses i maxlogins)
    (here : upses[i]? = some ups) (kept : s.looks ⊆ s'.looks)
    (seen : ups.isPrimary = true -> ∃ look ∈ s'.looks, look.index = i ∧ ∀ n, look.logins = some n -> n ≤ maxlogins) :
    s'.Asked upses (i + 1) maxlogins := by
  intro j before other known primary
  by_cases last : j = i
  · subst last
    obtain rfl : ups = other := Option.some.inj (here.symm.trans known)
    exact seen primary
  · obtain ⟨look, member, same⟩ := asked j (by omega) other known primary
    exact ⟨look, kept member, same⟩

theorem update_servers (accounted : ∀ server, Accounted (s.servers server))
    (clients : ∀ ups ∈ upses, ClientReady (s.servers ups.server) ups.id) {server : Nat} {after : Upsd}
    (accounted' : Accounted after)
    (clients' : ∀ ups ∈ upses, ups.server = server -> ClientReady (s.servers server) ups.id -> ClientReady after ups.id) :
    (∀ other, Accounted (Function.update s.servers server after other)) ∧
      ∀ ups ∈ upses, ClientReady (Function.update s.servers server after ups.server) ups.id := by
  constructor
  · intro other
    by_cases same : other = server <;> simp [Function.update, same, accounted', accounted]
  · intro ups member
    by_cases same : ups.server = server
    · simpa [Function.update, same] using clients' ups member same (same ▸ clients ups member)
    · simpa [Function.update, same] using clients ups member

theorem update_conns (conns : ∀ i, (s.conns i).connected = true -> ConnReady (s.conns i)) {i : Nat} {conn : Upsconn}
    (ready : conn.connected = true -> ConnReady conn) :
    ∀ j, (Function.update s.conns i conn j).connected = true -> ConnReady (Function.update s.conns i conn j) := by
  intro j
  by_cases same : j = i
  · simpa [Function.update, same] using ready
  · simpa [Function.update, same] using conns j

theorem orderly_act (orderly : s.Orderly upses) (server : Nat) (action : Action)
    (fair : s.Fair upses (.act server action)) : (s.step cutting upses hostsync (.act server action)).Orderly upses := by
  obtain ⟨accounted, clients⟩ := update_servers orderly.accounted orderly.clients
    (accounted_perform (s.servers server) action (orderly.accounted server))
    fun ups member same => clientReady_perform (orderly.accounted server) action (fair ups member same)
  exact { orderly with accounted := accounted, clients := clients }

theorem orderly_next (names : ∀ ups ∈ upses, BareWord ups.upsname ∧ ups.upsname.length ≤ 200) (orderly : s.Orderly upses) (now : Int)
    (luck : Luck) (fair : s.Fair upses (.next now luck)) : (s.step cutting upses hostsync (.next now luck)).Orderly upses := by
  unfold Shutdown.step
  dsimp only
  unfold Shutdown.next
  split
  next i phase =>
    split
    next =>
      refine { orderly with honest := by simp, asked := ?_, gone := ?_ }
      · intro start j maxlogins now_
        split_ifs at now_
        cases now_
        exact asked_none _ _ _
      · intro down j inside ups known primary
        have some_ : upses.any MonitoredUps.isPrimary = true := List.any_eq_true.mpr ⟨ups, List.mem_of_getElem? known, primary⟩
        simp [some_] at down
    next ups here =>
      have member : ups ∈ upses := List.mem_of_getElem? here
      split_ifs
      · obtain ⟨bare, short⟩ := names ups member
        have talked := @askFsd_talked cutting now _ _ _ _ luck (orderly.accounted ups.server) (orderly.clients ups member) (orderly.conns i)
          (fair ups member).2 bare short
        obtain ⟨accounted, clients⟩ := update_servers orderly.accounted orderly.clients talked.accounted
          fun other _ _ => talked.clients other.id
        exact ⟨accounted, clients, update_conns orderly.conns talked.conn, orderly.honest, by simp, by simp⟩
      · exact { orderly with asked := by simp, gone := by simp }
  next start i maxlogins phase =>
    have asked := orderly.asked start i maxlogins phase
    split
    next none_ =>
      have all : upses.length ≤ i := List.getElem?_eq_none_iff.mp none_
      split_ifs with few late
      · refine { orderly with asked := by simp, gone := fun _ => ?_ }
        intro j inside
        exact asked_more asked few j (by omega)
      · exact { orderly with asked := by simp, gone := by simp }
      · refine { orderly with honest := by simp, asked := ?_, gone := by simp }
        intro start' j more now_
        cases now_
        exact asked_none _ _ _
    next ups here =>
      have member : ups ∈ upses := List.mem_of_getElem? here
      split_ifs with primary
      · obtain ⟨bare, short⟩ := names ups member
        obtain ⟨talked, told⟩ := @askNumlogins_talked cutting now _ _ _ _ luck (orderly.accounted ups.server) (orderly.clients ups member)
          (orderly.conns i) (fair ups member).1 (fair ups member).2 bare short
        obtain ⟨accounted, clients⟩ := update_servers orderly.accounted orderly.clients talked.accounted
          fun other _ _ => talked.clients other.id
        refine ⟨accounted, clients, update_conns orderly.conns talked.conn, ?_, ?_, by simp⟩
        · intro look inside
          obtain old | new := List.mem_append.mp inside
          · exact orderly.honest look old
          · obtain rfl := List.mem_singleton.mp new
            refine ⟨orderly.accounted ups.server, ups, here, fun n some_ => ?_⟩
            obtain ⟨text, value, rfl⟩ := Option.map_eq_some_iff.mp some_
            exact told text value
        · intro start' j more now_
          cases now_
          obtain ⟨before, this_⟩ := atLeast_le maxlogins _
          exact asked_succ (asked_more asked before) here (by simp) fun _ => ⟨_, List.mem_append_right _ (List.mem_singleton_self _), rfl, this_⟩
      · refine { orderly with asked := ?_, gone := by simp }
        intro start' j more now_
        cases now_
        exact asked_succ asked here (fun _ inside => inside) fun yes => absurd yes primary
  next => exact orderly

theorem orderly_run (names : ∀ ups ∈ upses, BareWord ups.upsname ∧ ups.upsname.length ≤ 200) (orderly : s.Orderly upses)
    {events : List ShutdownEvent} (fair : Always (Shutdown.step cutting upses hostsync) (EachAction (Shutdown.Fair upses)) s events) :
    (events.foldl (Shutdown.step cutting upses hostsync) s).Orderly upses := by
  induction events generalizing s with
  | nil => exact orderly
  | cons event rest ih =>
    refine ih ?_ fair.2
    cases event with
    | act server action => exact orderly_act orderly server action fair.1
    | next now luck => exact orderly_next names orderly now luck fair.1

theorem looks_step (s : Shutdown) (event : ShutdownEvent) {look : Look} (member : look ∈ (s.step cutting upses hostsync event).looks) :
    look ∈ s.looks ∨ ∃ ups, upses[look.index]? = some ups ∧ look.upsd = s.servers ups.server := by
  cases event with
  | act server action => exact .inl member
  | next now luck =>
    unfold Shutdown.step at member
    dsimp only at member
    unfold Shutdown.next at member
    split at member
    next => split at member <;> [simp at member; split_ifs at member <;> exact .inl member]
    next =>
      split at member
      next => split_ifs at member <;> [exact .inl member; exact .inl member; simp at member]
      next ups here =>
        split_ifs at member
        · obtain old | new := List.mem_append.mp member
          · exact .inl old
          · obtain rfl := List.mem_singleton.mp new
            exact .inr ⟨ups, here, rfl⟩
        · exact .inl member
    next => exact .inl member

theorem looks_taken (s : Shutdown) {events : List ShutdownEvent} {look : Look}
    (member : look ∈ (events.foldl (Shutdown.step cutting upses hostsync) s).looks) :
    look ∈ s.looks ∨ ∃ before, before <+: events ∧ ∃ ups, upses[look.index]? = some ups ∧
      look.upsd = (before.foldl (Shutdown.step cutting upses hostsync) s).servers ups.server := by
  induction events generalizing s with
  | nil => exact .inl member
  | cons event rest ih =>
    obtain old | ⟨before, earlier, ups, known, same⟩ := ih _ member
    · obtain old | ⟨ups, known, same⟩ := looks_step s event old
      · exact .inl old
      · exact .inr ⟨[], List.nil_prefix, ups, known, same⟩
    · exact .inr ⟨event :: before, List.cons_prefix_cons.mpr ⟨rfl, earlier⟩, ups, known, same⟩

end Runs

section Timer

variable {cutting : Cutting} {upses : List MonitoredUps} {hostsync : Int} {s : Shutdown}

def requests (events : List ShutdownEvent) : Nat :=
  events.countP fun
    | .next .. => true
    | .act .. => false

-- Within `room` more steps, upsmon is waiting since before `clock`, or has stopped to wait.
def Shutdown.Begins (upses : List MonitoredUps) (clock : Int) (room : Nat) (s : Shutdown) : Prop :=
  match s.phase with
  | .fsd i => i ≤ upses.length ∧ upses.length - i < room
  | .round start i _ => i ≤ upses.length ∧ start ≤ clock
  | .down _ => True

def Shutdown.Ends (upses : List MonitoredUps) (clock : Int) (room : Nat) (s : Shutdown) : Prop :=
  match s.phase with
  | .fsd _ => False
  | .round start i _ => i ≤ upses.length ∧ start ≤ clock ∧ upses.length - i < room
  | .down _ => True

theorem begins_next {clock : Int} {room : Nat} (begins : s.Begins upses clock (room + 1)) {now : Int} (early : now ≤ clock)
    (luck : Luck) : (s.next cutting upses hostsync now luck).Begins upses clock room := by
  unfold Shutdown.next
  unfold Shutdown.Begins at begins
  split at begins
  next i phase =>
    dsimp only
    cases here : upses[i]? with
    | none =>
      dsimp only
      unfold Shutdown.Begins
      dsimp only
      split_ifs
      · exact ⟨by omega, early⟩
      · trivial
    | some ups =>
      obtain ⟨inside, -⟩ := List.getElem?_eq_some_iff.mp here
      dsimp only
      split_ifs <;> exact ⟨inside, by omega⟩
  next start i maxlogins phase =>
    dsimp only
    cases here : upses[i]? with
    | none =>
      dsimp only
      split_ifs
      · trivial
      · trivial
      · exact ⟨by omega, begins.2⟩
    | some ups =>
      obtain ⟨inside, -⟩ := List.getElem?_eq_some_iff.mp here
      dsimp only
      split_ifs <;> exact ⟨inside, begins.2⟩
  next timedOut phase => simp [phase, Shutdown.Begins]

theorem ends_next {clock : Int} {room : Nat} (ends : s.Ends upses clock (room + 1)) {now : Int} (late : clock + hostsync < now)
    (luck : Luck) : (s.next cutting upses hostsync now luck).Ends upses clock room := by
  unfold Shutdown.next
  unfold Shutdown.Ends at ends
  split at ends
  next => exact absurd ends id
  next start i maxlogins phase =>
    dsimp only
    cases here : upses[i]? with
    | none =>
      dsimp only
      split_ifs
      · trivial
      · trivial
      · omega
    | some ups =>
      obtain ⟨inside, -⟩ := List.getElem?_eq_some_iff.mp here
      dsimp only
      split_ifs <;> exact ⟨inside, ends.2.1, by omega⟩
  next timedOut phase => simp [phase, Shutdown.Ends]

theorem begins_run {clock : Int} {events : List ShutdownEvent} (begins : s.Begins upses clock (requests events))
    (early : ∀ now luck, .next now luck ∈ events -> now ≤ clock) :
    (events.foldl (Shutdown.step cutting upses hostsync) s).Begins upses clock 0 := by
  induction events generalizing s with
  | nil => exact begins
  | cons event rest ih =>
    refine ih ?_ fun now luck member => early now luck (List.mem_cons_of_mem _ member)
    cases event with
    | act server action => exact begins
    | next now luck =>
      have room : requests (.next now luck :: rest) = requests rest + 1 := List.countP_cons_of_pos rfl
      rw [room] at begins
      exact begins_next begins (early now luck List.mem_cons_self) luck

theorem ends_run {clock : Int} {events : List ShutdownEvent} (ends : s.Ends upses clock (requests events))
    (late : ∀ now luck, .next now luck ∈ events -> clock + hostsync < now) :
    (events.foldl (Shutdown.step cutting upses hostsync) s).Ends upses clock 0 := by
  induction events generalizing s with
  | nil => exact ends
  | cons event rest ih =>
    refine ih ?_ fun now luck member => late now luck (List.mem_cons_of_mem _ member)
    cases event with
    | act server action => exact ends
    | next now luck =>
      have room : requests (.next now luck :: rest) = requests rest + 1 := List.countP_cons_of_pos rfl
      rw [room] at ends
      exact ends_next ends (late now luck List.mem_cons_self) luck

end Timer

-- upsmon does not wait for longer than its HOSTSYNC, whatever the upsds answer: when it has told them all,
-- it is done at the end of the first round that is over then.
theorem hostsync_over (cutting : Cutting) (upses : List MonitoredUps) (hostsync : Int) (s : Shutdown) (begun : s.phase = .fsd 0)
    (clock : Int) (first second : List ShutdownEvent) (told : upses.length < requests first)
    (early : ∀ now luck, .next now luck ∈ first -> now ≤ clock) (waited : upses.length < requests second)
    (late : ∀ now luck, .next now luck ∈ second -> clock + hostsync < now) :
    ∃ timedOut, ((first ++ second).foldl (Shutdown.step cutting upses hostsync) s).phase = .down timedOut := by
  have start : s.Begins upses clock (requests first) := by
    unfold Shutdown.Begins
    rw [begun]
    exact ⟨Nat.zero_le _, by omega⟩
  have begins := @begins_run cutting upses hostsync s clock first start early
  have middle : (first.foldl (Shutdown.step cutting upses hostsync) s).Ends upses clock (requests second) := by
    unfold Shutdown.Begins at begins
    unfold Shutdown.Ends
    split at begins
    next => omega
    next => omega
    next => trivial
  have ends := @ends_run cutting upses hostsync _ clock second middle late
  rw [List.foldl_append]
  unfold Shutdown.Ends at ends
  split at ends
  next => exact absurd ends id
  next => omega
  next timedOut phase => exact ⟨timedOut, phase⟩

def Upsd.Alone (w : Upsd) (name : CString) : Prop :=
  ∀ client ∈ w.firstclient, ∀ other ∈ w.firstclient, client.loginups = some name -> other.loginups = some name -> other = client

theorem alone_of_logins {w : Upsd} {name : CString} (few : w.logins name ≤ 1) : w.Alone name := by
  intro client member other member' here there
  have inside : client ∈ w.firstclient.filter fun client => client.loginups = some name := by simp [member, here]
  have inside' : other ∈ w.firstclient.filter fun client => client.loginups = some name := by simp [member', there]
  rw [Upsd.logins, List.countP_eq_length_filter] at few
  generalize w.firstclient.filter _ = list at few inside inside'
  match list, few with
  | [one], _ => simp_all

structure Shutdown.Starts (upses : List MonitoredUps) (s : Shutdown) : Prop where
  names : ∀ ups ∈ upses, BareWord ups.upsname ∧ ups.upsname.length ≤ 200
  servers : ∀ server, Accounted (s.servers server)
  clients : ∀ ups ∈ upses, ClientReady (s.servers ups.server) ups.id
  conns : ∀ i, (s.conns i).connected = true -> ConnReady (s.conns i)
  phase : s.phase = .fsd 0 ∧ s.looks = []

-- upsmon does not go down before its HOSTSYNC is over unless it has, in one last round, asked for every UPS that it is
-- the primary for, and each time either got no answer or was the only one who was logged in there at that moment, whatever
-- all clients and drivers do meanwhile, and whichever of its requests get lost.
theorem secondaries_gone (cutting : Cutting) (upses : List MonitoredUps) (hostsync : Int) (s : Shutdown) (events : List ShutdownEvent)
    (starts : s.Starts upses) (fair : Always (Shutdown.step cutting upses hostsync) (EachAction (Shutdown.Fair upses)) s events)
    (down : (events.foldl (Shutdown.step cutting upses hostsync) s).phase = .down false) (i : Nat) (ups : MonitoredUps)
    (known : upses[i]? = some ups) (primary : ups.isPrimary = true) :
    ∃ look ∈ (events.foldl (Shutdown.step cutting upses hostsync) s).looks, look.index = i ∧
      (∃ before, before <+: events ∧ look.upsd = (before.foldl (Shutdown.step cutting upses hostsync) s).servers ups.server) ∧
      (look.logins = none ∨ ∃ there, getUpsPtr look.upsd ups.upsname = some there ∧ look.upsd.Alone there.name) := by
  obtain ⟨begun, looks⟩ := starts.phase
  have start : s.Orderly upses :=
    ⟨starts.servers, starts.clients, starts.conns, by simp [looks], by simp [begun], by simp [begun]⟩
  have orderly := orderly_run starts.names start fair
  obtain ⟨inside, -⟩ := List.getElem?_eq_some_iff.mp known
  obtain ⟨look, member, rfl, few⟩ := orderly.gone down i inside ups known primary
  obtain ⟨-, ups', known', told⟩ := orderly.honest look member
  obtain rfl : ups = ups' := Option.some.inj (known.symm.trans known')
  refine ⟨look, member, rfl, ?_, ?_⟩
  · obtain old | ⟨before, earlier, ups', known', same⟩ := looks_taken s member
    · simp [looks] at old
    · obtain rfl : ups = ups' := Option.some.inj (known.symm.trans known')
      exact ⟨before, earlier, same⟩
  · cases found : look.logins with
    | none => exact .inl rfl
    | some n =>
      obtain ⟨there, known, counted⟩ := told n found
      have bound := few n found
      rw [Int64.le_iff_toInt_le, counted] at bound
      refine .inr ⟨there, known, alone_of_logins ?_⟩
      have one : (1 : Int64).toInt = 1 := rfl
      omega

def hostsyncEarlier : List Action :=
  [.command 0 1003 [cstr "LOGIN", cstr "ups"], .connect 1004 (cstr "::2"), .command 1 1005 [cstr "USERNAME", cstr "admin"],
    .command 1 1005 [cstr "PASSWORD", cstr "x"], .command 1 1005 [cstr "LOGIN", cstr "ups"]]

def hostsyncUpsd : Upsd :=
  hostsyncEarlier.foldl perform fsdUpsd

def sampleShutdown : Shutdown :=
  { servers := fun _ => hostsyncUpsd
    conns := fun _ => { connected := true, upserror := none, pcCtx := pconfInit, slots := [], readbuf := [], writable := true,
                        incoming := [], sent := [] }
    phase := .fsd 0
    looks := [] }

def sampleMonitored : List MonitoredUps :=
  [⟨0, cstr "ups", 0, true⟩]

def sampleEvents : List ShutdownEvent :=
  [.next 1010 .answered, .next 1010 .answered, .next 1010 .answered, .next 1010 .answered,
    .act 0 (.disconnect 1), .next 1012 .answered, .next 1012 .answered]

theorem secondaries_gone_sample :
    let after := sampleEvents.foldl (Shutdown.step .byByte sampleMonitored 15) sampleShutdown
    (∃ look ∈ after.looks, look.index = 0 ∧
      (∃ before, before <+: sampleEvents ∧
        look.upsd = (before.foldl (Shutdown.step .byByte sampleMonitored 15) sampleShutdown).servers 0) ∧
      (look.logins = none ∨ ∃ there, getUpsPtr look.upsd (cstr "ups") = some there ∧ look.upsd.Alone there.name)) ∧
      after.looks.map Look.logins = [some 1] ∧
      ((sampleEvents.take 4).foldl (Shutdown.step .byByte sampleMonitored 15) sampleShutdown).phase = .round 1010 0 0 := by
  have accounted : Accounted hostsyncUpsd := invariant_foldl accounted_perform (invariant_foldl accounted_perform
      (accounted_upsconfAdd 1000 (fun _ => true) false _ (accounted_blank rfl rfl)) fsdEarlier) hostsyncEarlier
  have fresh : hostsyncUpsd.firstclient.map Client.ctx = [pconfInit, pconfInit] := by decide +kernel
  have starts : sampleShutdown.Starts sampleMonitored := by
    have bare : BareWord (cstr "ups") ∧ (cstr "ups").length ≤ 200 := ⟨by decide, by simp [show (cstr "ups").length = 3 from rfl]⟩
    have quiet : ConnReady (sampleShutdown.conns 0) :=
      ⟨rfl, (by intro chunk member; cases member), rfl, ⟨rfl, rfl, by decide, acceptable_nil, (by intro word member; cases member)⟩, rfl⟩
    refine ⟨by simpa [sampleMonitored] using bare, by simp only [sampleShutdown, accounted, implies_true], ?_, fun _ _ => quiet, rfl, rfl⟩
    intro ups member client inside same
    have ctx : client.ctx ∈ [pconfInit, pconfInit] := fresh ▸ List.mem_map_of_mem inside
    rw [show client.ctx = pconfInit by simpa using ctx]
    exact ⟨atLineStart_init _ _, rfl, rfl⟩
  have fair : Always (Shutdown.step .byByte sampleMonitored 15) (EachAction (Shutdown.Fair sampleMonitored)) sampleShutdown sampleEvents := by
    decide +kernel
  exact ⟨secondaries_gone .byByte sampleMonitored 15 sampleShutdown sampleEvents starts fair (by decide +kernel) 0 _ rfl rfl,
    by decide +kernel, by decide +kernel⟩

def sampleFirst : List ShutdownEvent :=
  [.next 1010 .answered, .next 1010 .answered]

def sampleSecond : List ShutdownEvent :=
  [.act 0 (.connect 1020 (cstr "::3")), .next 1030 .answered, .next 1030 .answered]

-- The secondary does not leave.
theorem hostsync_over_sample :
    let after := (sampleFirst ++ sampleSecond).foldl (Shutdown.step .byByte sampleMonitored 15) sampleShutdown
    (∃ timedOut, after.phase = .down timedOut) ∧ after.phase = .down true :=
  ⟨hostsync_over .byByte sampleMonitored 15 sampleShutdown rfl 1010 sampleFirst sampleSecond (by decide)
    (by simp [sampleFirst]) (by decide) (by simp [sampleSecond]), by decide +kernel⟩

end Nut
