import Mathlib.Data.List.Nodup
import Nut.Server.Commands
import Nut.Server.Upkeep

set_option autoImplicit false

namespace Nut

def ClientIds (w : Upsd) : Prop :=
  (w.firstclient.map Client.id).Nodup ∧ ∀ client ∈ w.firstclient, client.id < w.nextId

section Ids

variable {w w' : Upsd}

theorem clientIds_sub (ids : ClientIds w) (nextId : w'.nextId = w.nextId)
    (sub : (w'.firstclient.map Client.id).Sublist (w.firstclient.map Client.id)) : ClientIds w' := by
  refine ⟨ids.1.sublist sub, fun client member => ?_⟩
  obtain ⟨origin, inside, same⟩ := List.mem_map.mp (sub.subset (List.mem_map_of_mem member))
  rw [nextId, <- same]
  exact ids.2 origin inside

theorem findClient_spec {id : Nat} {client : Client} (found : w.findClient id = some client) :
    client ∈ w.firstclient ∧ client.id = id := ⟨List.mem_of_find?_eq_some found, by simpa using List.find?_some found⟩

theorem ids_unique (ids : ClientIds w) {a b : Client} (first : a ∈ w.firstclient)
    (second : b ∈ w.firstclient) (same : a.id = b.id) : a = b := List.inj_on_of_nodup_map ids.1 first second same

theorem map_id_updateClient (w : Upsd) (id : Nat) {change : Client -> Client}
    (keeps : ∀ client, (change client).id = client.id) :
    (w.updateClient id change).firstclient.map Client.id = w.firstclient.map Client.id := by
  simp only [Upsd.updateClient, List.map_map]
  apply List.map_congr_left
  intro client _
  by_cases same : client.id = id <;> simp [same, keeps]

end Ids

-- What serving the client `id` does to a record: others stay as they are, and it keeps what is set.
def Attended (id : Nat) (client client' : Client) : Prop :=
  if client.id = id then
    client'.id = id ∧ client'.addr = client.addr ∧ client'.ctx = client.ctx ∧
      (client.username ≠ none -> client'.username = client.username) ∧
      (client.password ≠ none -> client'.password = client.password) ∧
      (client.loginups ≠ none -> client'.loginups = client.loginups)
  else client' = client

theorem attended_refl (id : Nat) (client : Client) : Attended id client client := by
  unfold Attended
  split
  next same => exact ⟨same, rfl, rfl, fun _ => rfl, fun _ => rfl, fun _ => rfl⟩
  next => rfl

theorem attended_trans {id : Nat} {a b c : Client} (first : Attended id a b) (second : Attended id b c) :
    Attended id a c := by
  unfold Attended at *
  by_cases same : a.id = id
  · simp only [same, if_true] at first ⊢
    obtain ⟨here, addr, ctx, username, password, loginups⟩ := first
    simp only [here, if_true] at second
    obtain ⟨here', addr', ctx', username', password', loginups'⟩ := second
    refine ⟨here', addr'.trans addr, ctx'.trans ctx, ?_, ?_, ?_⟩
    · intro set_
      rw [username' (by rw [username set_]; exact set_), username set_]
    · intro set_
      rw [password' (by rw [password set_]; exact set_), password set_]
    · intro set_
      rw [loginups' (by rw [loginups set_]; exact set_), loginups set_]
  · simp only [same, if_false] at first ⊢
    subst first
    simpa only [same, if_false] using second

theorem attended_id {id : Nat} {a b : Client} (attended : Attended id a b) : b.id = a.id := by
  unfold Attended at attended
  split at attended
  next same => rw [attended.1, same]
  next => rw [attended]

abbrev AllAttended (id : Nat) (clients clients' : List Client) : Prop :=
  List.Forall₂ (Attended id) clients clients'

theorem allAttended_refl (id : Nat) (clients : List Client) : AllAttended id clients clients :=
  List.forall₂_same.mpr fun client _ => attended_refl id client

theorem allAttended_map {id : Nat} {clients : List Client} {change : Client -> Client}
    (attended : ∀ client ∈ clients, client.id = id -> Attended id client (change client)) :
    AllAttended id clients (clients.map fun client => if client.id = id then change client else client) := by
  apply List.forall₂_map_right_iff.mpr
  apply List.forall₂_same.mpr
  intro client member
  split
  next same => exact attended client member same
  next => exact attended_refl id client

theorem allAttended_ids {id : Nat} {x y : List Client} (all : AllAttended id x y) :
    y.map Client.id = x.map Client.id := by
  induction all with
  | nil => rfl
  | cons head _ ih => rw [List.map_cons, List.map_cons, ih, attended_id head]

theorem answers_clients {id : Nat} {w w' : Upsd} (answers : Answers id w w') :
    AllAttended id w.firstclient w'.firstclient := by
  obtain ⟨_, _, _, clients, rfl, ⟨rfl, _⟩ | rfl⟩ := answers
  · exact allAttended_refl id w.firstclient
  · apply allAttended_map
    intro client _ same
    simp [Attended, same]

theorem sstateSendline_fst (w : Upsd) (ups : Upstype) (line : CString) :
    ∃ firstups writes lines, (sstateSendline w ups line).1 = { w with firstups, writes, lines } ∧
      (firstups = w.firstups ∨ firstups = modifyUps ups.name sstateDisconnect w.firstups) ∧
      (lines = w.lines ∨ lines = w.lines ++ [(ups.name, line)]) := by
  unfold sstateSendline
  split
  · exact ⟨w.firstups, w.writes, w.lines, rfl, Or.inl rfl, Or.inl rfl⟩
  · split
    · exact ⟨w.firstups, w.writes.tail, _, rfl, Or.inl rfl, Or.inr rfl⟩
    · exact ⟨_, w.writes.tail, _, rfl, Or.inr rfl, Or.inr rfl⟩

section Effects

variable {w between : Upsd} {client : Client} {arglist : List CString}

theorem effect_clients (effect : Effect w client arglist between) (ids : ClientIds w)
    (member : client ∈ w.firstclient) : AllAttended client.id w.firstclient between.firstclient := by
  have itself {other : Client} (inside : other ∈ w.firstclient) (same : other.id = client.id) :
      other = client := ids_unique ids inside member same
  cases effect with
  | none => exact allAttended_refl _ _
  | username name unset =>
    apply allAttended_map
    intro other inside same
    obtain rfl := itself inside same
    simp [Attended, unset]
  | password word unset =>
    apply allAttended_map
    intro other inside same
    obtain rfl := itself inside same
    simp [Attended, unset]
  | login ups found unset granted =>
    apply allAttended_map
    intro other inside same
    obtain rfl := itself inside same
    simp [Attended, unset]
  | fsd ups granted => exact allAttended_refl _ _
  | tracking value enabled =>
    apply allAttended_map
    intro other inside same
    simp [Attended, same]
  | relayed ups line randoms trackingList isLine =>
    obtain ⟨_, _, _, sent, _⟩ := sstateSendline_fst { w with randoms, trackingList } ups line
    rw [sent]
    exact allAttended_refl _ _

theorem effect_frame (effect : Effect w client arglist between) :
    between.nextId = w.nextId ∧ between.users = w.users := by
  cases effect with
  | relayed ups line randoms trackingList isLine =>
    obtain ⟨_, _, _, sent, _⟩ := sstateSendline_fst { w with randoms, trackingList } ups line
    rw [sent]
    exact ⟨rfl, rfl⟩
  | _ => exact ⟨rfl, rfl⟩

theorem effect_line (effect : Effect w client arglist between) : between.lines = w.lines ∨
      ∃ upsname line, Line w client arglist line ∧ between.lines = w.lines ++ [(upsname, line)] := by
  cases effect with
  | relayed ups line randoms trackingList isLine =>
    obtain ⟨_, _, lines, sent, _, same | more⟩ := sstateSendline_fst { w with randoms, trackingList } ups line
    · rw [sent]
      exact Or.inl same
    · rw [sent]
      exact Or.inr ⟨ups.name, line, isLine, more⟩
  | _ => exact Or.inl rfl

end Effects

theorem findClient_updateClient (w : Upsd) (id : Nat) {change : Client -> Client}
    (keeps : ∀ client, (change client).id = client.id) :
    (w.updateClient id change).findClient id = (w.findClient id).map change := by
  simp only [Upsd.findClient, Upsd.updateClient]
  induction w.firstclient with
  | nil => rfl
  | cons client rest ih =>
    by_cases same : client.id = id
    · simp [same, keeps]
    · simpa [List.find?_cons, same] using ih

theorem updateClient_absent {w : Upsd} {id : Nat} (absent : w.findClient id = none)
    (change : Client -> Client) : w.updateClient id change = w := by
  have other : ∀ client ∈ w.firstclient, client.id ≠ id := by
    simpa [Upsd.findClient] using absent
  have same : w.firstclient.map (fun client => if client.id = id then change client else client) =
      w.firstclient := by
    conv_rhs => rw [<- List.map_id w.firstclient]
    apply List.map_congr_left
    intro client member
    simp [other client member]
  simp only [Upsd.updateClient, same]

theorem serveLine_gone (now : Int) {w : Upsd} {id : Nat} (gone : w.findClient id = none) (arglist : List CString) :
    serveLine now id w arglist = w := by
  simp only [serveLine, updateClient_absent gone, gone]

theorem serveLine_found (now : Int) {w : Upsd} {id : Nat} {client : Client} (found : w.findClient id = some client)
    (arglist : List CString) :
    serveLine now id w arglist = parseNet now (w.updateClient id (Client.hear now)) (client.hear now) arglist := by
  have heard := findClient_updateClient w id (show ∀ client, (Client.hear now client).id = client.id from fun _ => rfl)
  simp only [serveLine, heard, found, Option.map_some]

theorem serveLine_cases (now : Int) (id : Nat) (w : Upsd) (arglist : List CString) :
    (w.findClient id = none ∧ serveLine now id w arglist = w) ∨ ∃ client between, w.findClient id = some client ∧
        Effect (w.updateClient id (Client.hear now)) (client.hear now) arglist between ∧
        Answers id between (serveLine now id w arglist) := by
  cases found : w.findClient id with
  | none => exact Or.inl ⟨rfl, serveLine_gone now found arglist⟩
  | some client =>
    obtain ⟨_, rfl⟩ := findClient_spec found
    obtain ⟨between, effect, answers⟩ := served_parseNet now (w.updateClient client.id (Client.hear now))
      (client.hear now) arglist
    refine Or.inr ⟨client, between, rfl, effect, ?_⟩
    rw [serveLine_found now found]
    exact answers

theorem serveLine_clients {now : Int} {id : Nat} {w : Upsd} (ids : ClientIds w) (arglist : List CString) :
    AllAttended id w.firstclient (serveLine now id w arglist).firstclient := by
  obtain ⟨_, same⟩ | ⟨client, between, found, effect, answers⟩ := serveLine_cases now id w arglist
  · rw [same]
    exact allAttended_refl id _
  · obtain ⟨member, rfl⟩ := findClient_spec found
    have heard : AllAttended client.id w.firstclient (w.updateClient client.id (Client.hear now)).firstclient := by
      apply allAttended_map
      intro other inside same
      simp [Attended, Client.hear, same]
    have heardIds : ClientIds (w.updateClient client.id (Client.hear now)) :=
      clientIds_sub ids rfl (by rw [allAttended_ids heard])
    have heardMember : client.hear now ∈ (w.updateClient client.id (Client.hear now)).firstclient :=
      List.mem_map.mpr ⟨client, member, by simp⟩
    have attended := effect_clients effect heardIds heardMember
    exact all_trans (Attended _) attended_trans heard (all_trans (Attended _) attended_trans attended (answers_clients answers))

theorem serveLine_frame (now : Int) (id : Nat) (w : Upsd) (arglist : List CString) :
    (serveLine now id w arglist).nextId = w.nextId ∧ (serveLine now id w arglist).users = w.users := by
  obtain ⟨_, same⟩ | ⟨client, between, _, effect, answers⟩ := serveLine_cases now id w arglist
  · rw [same]
    exact ⟨rfl, rfl⟩
  · have frame := effect_frame effect
    obtain ⟨_, _, _, _, equal, _⟩ := answers
    rw [equal]
    exact frame

theorem clientDisconnect_gone (w : Upsd) (id : Nat) :
    ∀ client ∈ (clientDisconnect w id).firstclient, client.id ≠ id := by
  intro client member
  cases found : w.findClient id with
  | none =>
    simp only [clientDisconnect, found] at member
    have absent : ∀ client ∈ w.firstclient, client.id ≠ id := by
      simpa [Upsd.findClient] using found
    exact absent client member
  | some leaving =>
    simp only [clientDisconnect, found] at member
    simpa using (List.mem_filter.mp member).2

theorem disconnects_gone (cond : Client -> Prop) [DecidablePred cond] (clients : List Client) (w : Upsd)
    {client : Client} (member : client ∈ clients) (holds : cond client) : ∀ other ∈ (clients.foldl (fun w client =>
        if cond client then clientDisconnect w client.id else w) w).firstclient, other.id ≠ client.id := by
  induction clients generalizing w with
  | nil => cases member
  | cons first rest ih =>
    rw [List.foldl_cons]
    obtain rfl | later := List.mem_cons.mp member
    · rw [if_pos holds]
      intro other inside
      have shrunk := (upkeep_disconnects cond rest (clientDisconnect w client.id)).clients
      exact clientDisconnect_gone w client.id other (shrunk.subset inside)
    · exact ih _ later

-- The actions that serve no line of a client and accept no connection.
def Action.Internal : Action -> Prop
  | .command .. | .parsed .. | .connect .. => False
  | _ => True

theorem maintained_perform {act : Action} (internal : act.Internal) (w : Upsd) : Maintained w (perform w act) := by
  cases act with
  | reload now up r => exact maintained_confReload now up r w
  | trackingCleanup now => exact (quiet_trackingCleanup now w).upkeep.maintained
  | scanDriver now up name => exact (quiet_scanDriver now up w name).upkeep.maintained
  | scanClients now => exact (upkeep_scanClients now w).maintained
  | driver name event => exact (quiet_serveDriver w name event).upkeep.maintained
  | disconnect id => exact (upkeep_clientDisconnect w id).maintained
  | command | parsed | connect => exact absurd internal id

theorem clientIds_perform (w : Upsd) (act : Action) (ids : ClientIds w) : ClientIds (perform w act) := by
  have internal {act : Action} (internal : act.Internal) : ClientIds (perform w act) :=
    have kept := maintained_perform internal w
    clientIds_sub ids kept.nextId (kept.clients.map Client.id)
  cases act with
  | command id now arglist =>
    apply clientIds_sub ids (serveLine_frame now id w arglist).1
    exact (allAttended_ids (serveLine_clients ids arglist)).symm ▸ List.Sublist.refl _
  | parsed id ctx =>
    have same : (perform w (.parsed id ctx)).firstclient.map Client.id = w.firstclient.map Client.id :=
      map_id_updateClient w id fun _ => rfl
    exact clientIds_sub ids rfl (same ▸ List.Sublist.refl _)
  | connect now addr =>
    simp only [perform, clientConnect]
    refine ⟨?_, ?_⟩
    · simp only [List.map_cons, List.nodup_cons]
      refine ⟨fun member => ?_, ids.1⟩
      obtain ⟨client, inside, same⟩ := List.mem_map.mp member
      have below := ids.2 client inside
      rw [same] at below
      exact absurd below (Nat.lt_irrefl _)
    · intro client member
      obtain rfl | inside := List.mem_cons.mp member
      · exact Nat.lt_succ_self _
      · exact Nat.lt_succ_of_lt (ids.2 client inside)
  | _ => exact internal trivial

end Nut
