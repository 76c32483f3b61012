import Nut.Network.Variables
import Nut.Server.FsdLatch

set_option autoImplicit false

namespace Nut

def ClientReady (w : Upsd) (id : Nat) : Prop :=
  ∀ client ∈ w.firstclient, client.id = id -> AtLineStart client.ctx ∧ client.ctx.argLimit = 32 ∧ client.ctx.wordlenLimit = 512

structure ConnReady (conn : Upsconn) : Prop where
  writable : conn.writable = true
  chunked : conn.Chunked
  quiet : conn.pending = []
  parser : WithinLimits 32 512 conn.pcCtx ∧ conn.pcCtx.wordbuf = []

def Action.Spares (id : Nat) : Action -> Prop
  | .command other _ _ | .parsed other _ => other ≠ id
  | _ => True

instance Action.Spares.decidable (id : Nat) : (act : Action) -> Decidable (act.Spares id)
  | .command other _ _ | .parsed other _ => inferInstanceAs (Decidable (other ≠ id))
  | .reload .. | .trackingCleanup .. | .scanDriver .. | .scanClients .. | .driver .. | .disconnect .. | .connect .. => isTrue trivial

section Ready

variable {w : Upsd} {id : Nat} {client : Client} {conn : Upsconn}

theorem linked_ready (linked : Linked w id client conn) : ConnReady conn :=
  { linked with writable := linked.connected.2 }

theorem ready_linked (found : w.findClient id = some client) (clientReady : ClientReady w id) (connected : conn.connected = true)
    (ready : ConnReady conn) : Linked w id client conn := by
  obtain ⟨member, same⟩ := findClient_spec found
  exact ⟨found, clientReady client member same, ⟨connected, ready.writable⟩, ready.chunked, ready.quiet, ready.parser⟩

theorem clientReady_subset {w' : Upsd} (ready : ClientReady w id) (subset : w'.firstclient ⊆ w.firstclient) : ClientReady w' id :=
  fun client member => ready client (subset member)

theorem clientReady_command (ids : ClientIds w) (other : Nat) (now : Int) (arglist : List CString) (ready : ClientReady w id) :
    ClientReady (serveLine now other w arglist) id := by
  intro client' member same
  obtain ⟨client, inside, attended⟩ := all_mem (serveLine_clients ids arglist) member
  have kept : client'.ctx = client.ctx := by
    unfold Attended at attended
    split at attended
    · exact attended.2.2.1
    · rw [attended]
  rw [kept]
  exact ready client inside ((attended_id attended).symm.trans same)

theorem clientReady_perform (accounted : Accounted w) (act : Action) (spares : act.Spares id) (ready : ClientReady w id) :
    ClientReady (perform w act) id := by
  have internal {act : Action} (internal : act.Internal) : ClientReady (perform w act) id :=
    clientReady_subset ready (maintained_perform internal w).clients.subset
  cases act with
  | command other now arglist => exact clientReady_command accounted.ids other now arglist ready
  | parsed other ctx =>
    intro client' member same
    obtain ⟨client, inside, rfl⟩ := List.mem_map.mp member
    by_cases hit : client.id = other
    · simp only [hit, if_true] at same
      exact absurd same spares
    · simp only [hit, if_false] at same ⊢
      exact ready client inside same
  | connect now addr =>
    intro client' member same
    obtain rfl | inside := List.mem_cons.mp member
    · exact ⟨atLineStart_init _ _, rfl, rfl⟩
    · exact ready client' inside same
  | _ => exact internal trivial

theorem clientReadline_perform (now : Int) (ready : ClientReady w id) {text : CString} {words : List CString}
    (isLine : IsLine 32 512 text words) : clientReadline now w id (some text) = w ∨
      clientReadline now w id (some text) =
        perform (perform w (.command id now words)) (.parsed id ⟨.endofline, words, [], 32, 512⟩) := by
  cases found : w.findClient id with
  | none =>
    left
    obtain ⟨body, rfl, -⟩ := isLine
    unfold clientReadline
    rw [found]
    cases body <;> rfl
  | some client =>
    right
    obtain ⟨member, same⟩ := findClient_spec found
    exact clientReadline_line now found (ready client member same) isLine

theorem clientReady_line (now : Int) (accounted : Accounted w) (ready : ClientReady w id) {text : CString} {words : List CString}
    (isLine : IsLine 32 512 text words) : Accounted (clientReadline now w id (some text)) ∧
      ∀ other, ClientReady w other -> ClientReady (clientReadline now w id (some text)) other := by
  obtain same | same := clientReadline_perform now ready isLine
  · rw [same]
    exact ⟨accounted, fun _ ready => ready⟩
  · have served := accounted_perform w (.command id now words) accounted
    rw [same]
    refine ⟨accounted_perform _ _ served, fun other ready => ?_⟩
    have after : ClientReady (perform w (.command id now words)) other := clientReady_command accounted.ids id now words ready
    intro client' member same
    obtain ⟨client, inside, rfl⟩ := List.mem_map.mp member
    by_cases hit : client.id = id
    · rw [if_pos hit]
      exact ⟨⟨rfl, .inl rfl⟩, rfl, rfl⟩
    · simp only [hit, if_false] at same ⊢
      exact after client inside same

end Ready

section Numlogins

variable {w : Upsd} {id : Nat} {client : Client} {conn : Upsconn} {upsname : CString}

def Upsd.logins (w : Upsd) (name : CString) : Nat :=
  w.firstclient.countP fun client => client.loginups = some name

theorem logins_few (accounted : Accounted w) (few : w.firstclient.length < 2 ^ 31) {ups : Upstype} (member : ups ∈ w.firstups) :
    ups.numlogins = w.logins ups.name ∧ w.logins ups.name < 2 ^ 31 :=
  ⟨accounted.loginsCounted.counted ups member, Nat.lt_of_le_of_lt List.countP_le_length few⟩

theorem lineOf_numlogins (bare : BareWord upsname) (n : Int) :
    LineOf (cstr "NUMLOGINS" ++ [32] ++ (upsname ++ [32] ++ printInt n)) [cstr "NUMLOGINS", upsname, printInt n] := by
  have keyword : BareWord (cstr "NUMLOGINS") := by decide
  exact .ofToken keyword.token (.ofToken bare.token (.last (bareWord_printInt n).token))

theorem numlogins_request (bare : BareWord upsname) (short : upsname.length ≤ 200) :
    (∀ word ∈ [cstr "NUMLOGINS", upsname], Askable word) ∧ (cmdText (cstr "GET") [cstr "NUMLOGINS", upsname]).length ≤ 510 := by
  have keyword : BareWord (cstr "NUMLOGINS") := by decide
  refine ⟨by simpa using ⟨askable_bare keyword, askable_bare bare⟩, ?_⟩
  have name := length_fieldOf_bare bare
  have field : (fieldOf (cstr "NUMLOGINS")).length = 9 := by decide
  have command : (cstr "GET").length = 3 := rfl
  simp only [cmdText, List.flatMap_cons, List.flatMap_nil, List.length_append, List.length_cons, List.length_nil]
  omega

theorem exchange_numlogins (cutting : Cutting) (now : Int) (linked : Linked w id client conn) (written : w.nextWrite = true)
    (accounted : Accounted w) (few : w.firstclient.length < 2 ^ 31) (bare : BareWord upsname) (short : upsname.length ≤ 200) :
    let done := exchange cutting now id w conn [cstr "NUMLOGINS", upsname] smallbuf
    (done.value = none ∨ ∃ ups, getUpsPtr w upsname = some ups ∧ done.value = some (printInt (w.logins ups.name))) ∧
      ∃ client', Linked done.upsd id client' done.ups := by
  intro done
  obtain ⟨askable, request⟩ := numlogins_request bare short
  have itself : (client.hear now).id = id := (findClient_spec linked.found).2
  have get : netGet (w.updateClient id (Client.hear now)) (client.hear now) [cstr "NUMLOGINS", upsname] =
      getNumlogins (w.updateClient id (Client.hear now)) (client.hear now) upsname := rfl
  have refused (errtype : String) (isErr : errtype = "UNKNOWN-UPS" ∨ errtype = "DRIVER-NOT-CONNECTED" ∨ errtype = "DATA-STALE")
      (served : getNumlogins (w.updateClient id (Client.hear now)) (client.hear now) upsname =
        (w.updateClient id (Client.hear now)).reply id (.err errtype)) :
      done.value = none ∧ ∃ client', Linked done.upsd id client' done.ups := by
    have served := serves_request now linked written askable (by simp) request (get.trans served)
    rcases isErr with rfl | rfl | rfl
    · exact @exchange_error w id client conn _ (cstr "ERR UNKNOWN-UPS") _ cutting now smallbuf linked (by simp) served rfl
        (by decide) (by decide) .unknownups (by decide)
    · exact @exchange_error w id client conn _ (cstr "ERR DRIVER-NOT-CONNECTED") _ cutting now smallbuf linked (by simp) served rfl
        (by decide) (by decide) .drvnotconn (by decide)
    · exact @exchange_error w id client conn _ (cstr "ERR DATA-STALE") _ cutting now smallbuf linked (by simp) served rfl
        (by decide) (by decide) .datastale (by decide)
  cases known : getUpsPtr w upsname with
  | none =>
    obtain ⟨value, linked'⟩ := refused "UNKNOWN-UPS" (by simp) (by
      have known' : getUpsPtr (w.updateClient id (Client.hear now)) upsname = none := known
      rw [getNumlogins, withUps, known', itself]
      rfl)
    exact ⟨.inl value, linked'⟩
  | some ups =>
    have known' : getUpsPtr (w.updateClient id (Client.hear now)) upsname = some ups := known
    by_cases gone : ups.connected = false
    · obtain ⟨value, linked'⟩ := refused "DRIVER-NOT-CONNECTED" (by simp) (by
        rw [getNumlogins, withUps, known', itself]
        simp [ifAvailable, gone, sendErr])
      exact ⟨.inl value, linked'⟩
    · by_cases stale : ups.stale = true
      · obtain ⟨value, linked'⟩ := refused "DATA-STALE" (by simp) (by
          rw [getNumlogins, withUps, known', itself]
          simp [ifAvailable, gone, stale, sendErr])
        exact ⟨.inl value, linked'⟩
      · have served : getNumlogins (w.updateClient id (Client.hear now)) (client.hear now) upsname =
            (w.updateClient id (Client.hear now)).reply id (.numlogins upsname ups.numlogins) := by
          rw [getNumlogins, withUps, known', itself]
          simp [ifAvailable, gone, stale]
        have served := serves_request now linked written askable (by simp) request (get.trans served)
        obtain ⟨counted, bound⟩ := logins_few accounted few (List.mem_of_find?_eq_some known)
        have digits : (printInt ups.numlogins).length ≤ 11 := by
          rw [counted]
          exact printInt_length (by omega) (by decide)
        have keyword : (cstr "NUMLOGINS").length = 9 := rfl
        obtain ⟨value, linked'⟩ := @exchange_reply w id client conn _ _ _ _ cutting now smallbuf linked (by simp) served
          (by simp [Reply.format, show cstr "NUMLOGINS " = cstr "NUMLOGINS" ++ [32] from rfl, show cstr " " = [32] from rfl,
            show cstr "\n" = [10] from rfl]) (lineOf_numlogins bare ups.numlogins) (by simp)
          (by simp only [List.forall_mem_cons, List.not_mem_nil, false_imp_iff, implies_true, and_true]; omega)
          (by simp only [List.length_append, List.length_cons, List.length_nil]; omega) rfl (by simp [Echoes]) _ rfl
        refine ⟨.inr ⟨ups, rfl, ?_⟩, linked'⟩
        rw [<- counted]
        refine value.trans (congrArg some (snprintf_fits ?_))
        rw [smallbuf]
        omega

end Numlogins

end Nut
