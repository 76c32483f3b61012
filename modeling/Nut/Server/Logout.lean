import Nut.Server.Authorisation

set_option autoImplicit false

namespace Nut

def Action.Serves (id : Nat) : Action -> Prop
  | .command other _ _ => other = id
  | _ => False

def IsLogout (arglist : List CString) : Prop :=
  ∃ arg0, arglist = [arg0] ∧ isCommand arg0 "LOGOUT" = true

def Final (id : Nat) (w : Upsd) (act : Action) : Prop :=
  ∃ now arglist, act = .command id now arglist ∧ w.findClient id ≠ none ∧
    (IsLogout arglist ∨
      ∃ added, (perform w act).replies = w.replies ++ added ∧ ∃ reply ∈ added, reply.2.2 = false)

def LogoutIsFinal (w : Upsd) : List Action -> Prop
  | [] => True
  | act :: rest => ∀ id, Final id w act ->
      (∀ later ∈ rest, ¬ later.Serves id) ∧
        ∀ upto now more, rest = upto ++ .scanClients now :: more ->
          ∀ client ∈ ((upto ++ [.scanClients now]).foldl perform (perform w act)).firstclient, client.id ≠ id

-- What was read from the client ends with its final line.
def NothingFollows (w : Upsd) : List Action -> Prop
  | act :: next :: _ => ∀ id, Final id w act -> ¬ next.Serves id
  | _ => True

structure Doomed (id : Nat) (w : Upsd) : Prop where
  ids : ClientIds w
  below : id < w.nextId
  marked : ∀ client ∈ w.firstclient, client.id = id -> client.lastHeard = 0

structure Absent (id : Nat) (w : Upsd) : Prop where
  ids : ClientIds w
  below : id < w.nextId
  gone : ∀ client ∈ w.firstclient, client.id ≠ id

theorem Absent.doomed {id : Nat} {w : Upsd} (absent : Absent id w) : Doomed id w :=
  ⟨absent.ids, absent.below, fun client member same => absurd same (absent.gone client member)⟩

section Steps

variable {id : Nat} {w : Upsd}

theorem nextId_perform (w : Upsd) (act : Action) : w.nextId ≤ (perform w act).nextId := by
  have internal {act : Action} (internal : act.Internal) : w.nextId ≤ (perform w act).nextId :=
    Nat.le_of_eq (maintained_perform internal w).nextId.symm
  cases act with
  | command id now arglist => exact Nat.le_of_eq (serveLine_frame now id w arglist).1.symm
  | parsed id ctx => exact Nat.le_refl _
  | connect now addr => exact Nat.le_succ _
  | _ => exact internal trivial

theorem client_perform (ids : ClientIds w) (below : id < w.nextId) {act : Action} {client' : Client}
    (member : client' ∈ (perform w act).firstclient) (same : client'.id = id) :
    ∃ client ∈ w.firstclient, client.id = id ∧ (¬ act.Serves id -> client'.lastHeard = client.lastHeard) := by
  have internal {act : Action} (internal : act.Internal) (member : client' ∈ (perform w act).firstclient) :
      ∃ client ∈ w.firstclient, client.id = id ∧ (¬ act.Serves id -> client'.lastHeard = client.lastHeard) :=
    ⟨client', (maintained_perform internal w).clients.subset member, same, fun _ => rfl⟩
  cases act with
  | command other now arglist =>
    obtain ⟨client, inside, attended⟩ := all_mem (serveLine_clients ids arglist) member
    have sameId := attended_id attended
    refine ⟨client, inside, by rw [<- sameId, same], fun quiet => ?_⟩
    have differs : client.id ≠ other := by
      rw [<- sameId, same]
      exact Ne.symm quiet
    rw [Attended, if_neg differs] at attended
    rw [attended]
  | parsed other ctx =>
    obtain ⟨client, inside, rfl⟩ := List.mem_map.mp member
    refine ⟨client, inside, by split at same <;> exact same, fun _ => ?_⟩
    split <;> rfl
  | connect now addr =>
    obtain rfl | inside := List.mem_cons.mp member
    · exact absurd same (Nat.ne_of_gt below)
    · exact ⟨client', inside, same, fun _ => rfl⟩
  | _ => exact internal trivial member

theorem doomed_perform {act : Action} (quiet : ¬ act.Serves id) (doomed : Doomed id w) : Doomed id (perform w act) := by
  refine ⟨clientIds_perform w act doomed.ids, Nat.lt_of_lt_of_le doomed.below (nextId_perform w act), ?_⟩
  intro client' member same
  obtain ⟨client, inside, sameId, unheard⟩ := client_perform doomed.ids doomed.below member same
  rw [unheard quiet]
  exact doomed.marked client inside sameId

theorem absent_perform (w : Upsd) (act : Action) (absent : Absent id w) : Absent id (perform w act) := by
  refine ⟨clientIds_perform w act absent.ids, Nat.lt_of_lt_of_le absent.below (nextId_perform w act), ?_⟩
  intro client' member same
  obtain ⟨client, inside, sameId, _⟩ := client_perform absent.ids absent.below member same
  exact absent.gone client inside sameId

theorem doomed_foldl {actions : List Action} (quiet : ∀ act ∈ actions, ¬ act.Serves id)
    (doomed : Doomed id w) : Doomed id (actions.foldl perform w) := by
  induction actions generalizing w with
  | nil => exact doomed
  | cons act rest ih =>
    apply ih (fun later member => quiet later (List.mem_cons_of_mem act member))
    exact doomed_perform (quiet act List.mem_cons_self) doomed

theorem absent_scanClients {now : Int} (clock : 60 < now) (doomed : Doomed id w) : Absent id (scanClients now w) := by
  have after : Doomed id (perform w (.scanClients now)) := doomed_perform (fun serves => serves) doomed
  refine ⟨after.ids, after.below, ?_⟩
  intro client member same
  have inside := (upkeep_scanClients now w).clients.subset member
  have idle : now - client.lastHeard > 60 := by
    rw [doomed.marked client inside same]
    omega
  exact disconnects_gone (fun client => now - client.lastHeard > 60) w.firstclient w inside idle client member rfl

theorem effect_replies {client : Client} {arglist : List CString} {between : Upsd}
    (effect : Effect w client arglist between) : between.replies = w.replies := by
  cases effect with
  | relayed ups line randoms trackingList isLine =>
    obtain ⟨_, _, _, sent, _⟩ := sstateSendline_fst { w with randoms, trackingList } ups line
    rw [sent]
  | _ => rfl

theorem parseNet_logout {now : Int} {client : Client} {arg0 : CString}
    (logout : isCommand arg0 "LOGOUT" = true) : parseNet now w client [arg0] = netLogout w client [] := by
  have entry : (netcmds.find? fun cmd => isCommand (cstr "LOGOUT") cmd.name) =
      some ⟨"LOGOUT", fun _ => netLogout, false⟩ := rfl
  rw [parseNet_find now w client logout entry, checkCommand]
  simp only [Bool.false_eq_true, if_false]

theorem doomed_final {act : Action} (ids : ClientIds w) (final : Final id w act) : Doomed id (perform w act) := by
  obtain ⟨now, arglist, rfl, present, reason⟩ := final
  obtain ⟨client, found⟩ := Option.ne_none_iff_exists'.mp present
  obtain ⟨member, rfl⟩ := findClient_spec found
  refine ⟨clientIds_perform w _ ids, Nat.lt_of_lt_of_le (ids.2 client member) (nextId_perform w _), ?_⟩
  obtain ⟨arg0, rfl, logout⟩ | ⟨added, replies, reply, inside, failed⟩ := reason
  · intro client' member' same
    simp only [perform, serveLine_found now found, parseNet_logout logout, netLogout] at member'
    obtain ⟨marked, _, rfl⟩ := List.mem_map.mp member'
    by_cases here : marked.id = (client.hear now).id
    · simp [here]
    · simp only [here, if_false] at same
      exact absurd same here
  · obtain ⟨none, _⟩ | ⟨client', between, found', effect, answers⟩ := serveLine_cases now client.id w arglist
    · rw [none] at found
      cases found
    · obtain ⟨_, _, more, clients, equal, ⟨_, sent⟩ | rfl⟩ := answers
      · -- every reply went out
        have same : w.replies ++ added = w.replies ++ more := by
          rw [<- replies]
          simp only [perform, equal, effect_replies effect, Upsd.updateClient]
        rw [List.append_cancel_left same] at inside
        have wrote := sent reply inside
        rw [failed] at wrote
        cases wrote
      · intro client'' member'' same
        simp only [perform, equal] at member''
        obtain ⟨marked, _, rfl⟩ := List.mem_map.mp member''
        by_cases here : marked.id = client.id
        · simp [here]
        · simp only [here, if_false] at same

end Steps

section Scripts

variable {id : Nat} {w : Upsd}

theorem silent_scanScript (id : Nat) (pass : Pass) (w : Upsd) : ∀ act ∈ scanScript pass w, ¬ act.Serves id := by
  intro act member serves
  simp only [scanScript, thenScript, List.mem_append, List.mem_map, List.mem_singleton] at member
  obtain (reload | rfl) | ⟨ups, _, rfl⟩ | rfl := member
  · cases found : pass.reload with
    | none => simp [found] at reload
    | some r =>
      obtain rfl : act = _ := by simpa [found] using reload
      exact serves
  · exact serves
  · exact serves
  · exact serves

theorem clientScript_lines (event : Nat -> ClientEvent) (item : Nat) (w : Upsd) :
    (∀ act ∈ clientScript event item w, ∀ id, ¬ act.Serves id) ∨
      ∃ (now : Int) (lines : List (List CString)) (ctx : PconfCtx), w.findClient item ≠ none ∧
        clientScript event item w = lines.map (.command item now) ++ [.parsed item ctx] := by
  have disconnect : ∀ act ∈ [Action.disconnect item], ∀ id, ¬ act.Serves id := by
    intro act member id serves
    rw [List.mem_singleton.mp member] at serves
    exact serves
  unfold clientScript
  cases event item with
  | quiet => exact Or.inl (by simp)
  | hangup => exact Or.inl disconnect
  | read now ret =>
    cases ret with
    | none => exact Or.inl disconnect
    | some buf =>
      cases buf with
      | nil => exact Or.inl disconnect
      | cons b rest =>
        cases found : w.findClient item with
        | none => exact Or.inl (by simp)
        | some client => exact Or.inr ⟨_, _, _, by simp, rfl⟩

theorem clientScript_serves {event : Nat -> ClientEvent} {item : Nat} {act : Action}
    (member : act ∈ clientScript event item w) (serves : act.Serves id) : item = id ∧ w.findClient id ≠ none := by
  obtain none | ⟨now, lines, ctx, present, equal⟩ := clientScript_lines event item w
  · exact absurd serves (none act member id)
  · rw [equal] at member
    obtain command | parsed := List.mem_append.mp member
    · obtain ⟨line, _, rfl⟩ := List.mem_map.mp command
      obtain rfl : item = id := serves
      exact ⟨rfl, present⟩
    · rw [List.mem_singleton.mp parsed] at serves
      exact absurd serves fun serves => serves

theorem clientScript_behind {event : Nat -> ClientEvent} {item : Nat} {upto more : List Action} {act : Action}
    (split : clientScript event item w = upto ++ act :: more) (serves : act.Serves id) :
    ∃ next rest, more = next :: rest ∧ (next.Serves id ∨ ∀ later ∈ more, ¬ later.Serves id) := by
  have member : act ∈ clientScript event item w := by simp [split]
  obtain ⟨rfl, _⟩ := clientScript_serves member serves
  obtain none | ⟨now, lines, ctx, _, equal⟩ := clientScript_lines event item w
  · exact absurd serves (none act member item)
  · rw [equal] at split
    obtain ⟨inner, commands, rfl⟩ | ⟨_, _, parsed⟩ := append_split split
    · cases inner with
      | nil =>
        refine ⟨_, _, rfl, Or.inr ?_⟩
        intro later member serves
        rw [List.nil_append, List.mem_singleton] at member
        rw [member] at serves
        exact serves
      | cons next inner =>
        refine ⟨next, _, rfl, Or.inl ?_⟩
        have command : next ∈ lines.map (Action.command item now) := by simp [commands]
        obtain ⟨line, _, rfl⟩ := List.mem_map.mp command
        rfl
    · have only : act ∈ [Action.parsed item ctx] := by simp [parsed]
      rw [List.mem_singleton.mp only] at serves
      exact absurd serves fun serves => serves

theorem silent_serveScript (pass : Pass) (absent : Absent id w) : ∀ act ∈ serveScript pass w, ¬ act.Serves id := by
  intro act member serves
  simp only [serveScript, thenScript, List.mem_append, List.mem_map] at member
  obtain ⟨ups, _, rfl⟩ | served | ⟨connection, _, rfl⟩ := member
  · exact serves
  · have driven : Absent id _ := invariant_foldl absent_perform absent
      (w.firstups.map fun ups => Action.driver ups.name (pass.driver ups.name))
    obtain ⟨item, _, s, gone, here⟩ := mem_eachScript absent_perform driven served
    obtain ⟨_, present⟩ := clientScript_serves here serves
    apply present
    simpa [Upsd.findClient] using gone.gone
  · exact serves

theorem absent_scanScript {pass : Pass} (clock : 60 < pass.now) (doomed : Doomed id w) :
    Absent id ((scanScript pass w).foldl perform w) := by
  have quiet := silent_scanScript id pass w
  simp only [scanScript, thenScript, <- List.append_assoc] at quiet ⊢
  rw [List.foldl_append]
  apply absent_scanClients clock
  apply doomed_foldl _ doomed
  exact fun act member => quiet act (List.mem_append_left _ member)

theorem silent_runActions {passes : List Pass} (clock : ∀ pass ∈ passes, 60 < pass.now)
    (doomed : Doomed id w) : ∀ act ∈ runActions passes w, ¬ act.Serves id := by
  induction passes generalizing w with
  | nil => simp [runActions, eachScript]
  | cons pass rest ih =>
    have gone := absent_scanScript (clock pass List.mem_cons_self) doomed
    intro act member
    obtain here | later := List.mem_append.mp member
    · obtain scanned | served := List.mem_append.mp here
      · exact silent_scanScript id pass w act scanned
      · exact silent_serveScript pass gone act served
    · have after : Absent id (runScript perform (passScript pass) w) := by
        simp only [passScript, runScript, thenScript, List.foldl_append]
        exact invariant_foldl absent_perform gone _
      exact ih (fun pass inside => clock pass (List.mem_cons_of_mem _ inside)) after.doomed act later

theorem passScript_behind {pass : Pass} (ids : ClientIds w) {upto more : List Action} {act : Action}
    (split : passScript pass w = upto ++ act :: more) (serves : act.Serves id)
    (last : ∀ next rest, more = next :: rest -> ¬ next.Serves id) : ∀ other ∈ more, ¬ other.Serves id := by
  obtain ⟨_, scanned, _⟩ | ⟨_, _, served⟩ := append_split split
  · have inside : act ∈ scanScript pass w := by simp [scanned]
    exact absurd serves (silent_scanScript id pass w act inside)
  obtain ⟨_, drivers, _⟩ | ⟨_, _, served⟩ := append_split served
  · obtain ⟨ups, _, rfl⟩ := List.mem_map.mp (drivers.symm ▸ List.mem_append_right _ List.mem_cons_self)
    exact absurd serves fun serves => serves
  obtain ⟨reads, clients, rfl⟩ | ⟨_, _, connects⟩ := append_split served
  · obtain ⟨item, earlier, later, first, own, items, here, rfl⟩ := eachScript_split clients
    have inside : act ∈ first ++ act :: own := by simp
    rw [<- here] at inside
    obtain ⟨rfl, _⟩ := clientScript_serves inside serves
    obtain ⟨next, rest, rfl, again | silent⟩ := clientScript_behind here serves
    · exact absurd again (last next _ rfl)
    intro other member serves
    obtain (mine | theirs) | connected := by simpa only [List.mem_append] using member
    · exact silent other mine serves
    · -- the numbers of the clients behind it are different
      have always (w : Upsd) (act : Action) (_ : True) : True := trivial
      obtain ⟨item', listed, s, _, here'⟩ := mem_eachScript always trivial theirs
      obtain ⟨rfl, _⟩ := clientScript_serves here' serves
      have driven (script : Upsd -> List Action) :
          ClientIds (runScript perform script (runScript perform (scanScript pass) w)) :=
        invariant_foldl clientIds_perform (invariant_foldl clientIds_perform ids _) _
      have unique := (driven fun w => w.firstups.map fun ups => .driver ups.name (pass.driver ups.name)).1
      rw [items] at unique
      simp [List.nodup_append, listed] at unique
    · obtain ⟨connection, _, rfl⟩ := List.mem_map.mp connected
      exact serves
  · obtain ⟨connection, _, rfl⟩ := List.mem_map.mp (connects.symm ▸ List.mem_append_right _ List.mem_cons_self)
    exact absurd serves fun serves => serves

end Scripts

section Runs

variable {passes : List Pass} {start : Upsd} {before after : List Action} {act : Action} {id : Nat}

theorem silent_after_final (ids : ClientIds start) (clock : ∀ pass ∈ passes, 60 < pass.now)
    (split : runActions passes start = before ++ act :: after) (final : Final id (before.foldl perform start) act)
    (last : ∀ next rest, after = next :: rest -> ¬ next.Serves id) : ∀ later ∈ after, ¬ later.Serves id := by
  have serves : act.Serves id := by
    obtain ⟨_, _, rfl, _⟩ := final
    rfl
  have doomed := doomed_final (invariant_foldl clientIds_perform ids before) final
  obtain ⟨pass, earlier, later, upto, more, rfl, here, rfl⟩ := eachScript_split split
  have passIds : ClientIds _ := invariant_foldl clientIds_perform ids (eachScript perform passScript earlier start)
  have rest := passScript_behind passIds here serves
    fun next rest equal => last next (rest ++ _) (by rw [equal]; rfl)
  intro other member
  obtain inPass | inRest := List.mem_append.mp member
  · exact rest other inPass
  · have later_ : ∀ pass ∈ later, 60 < pass.now := fun pass inside => clock pass (by simp [inside])
    exact silent_runActions later_ (doomed_foldl rest doomed) other inRest

theorem gone_after_scan (ids : ClientIds start) (clock : ∀ pass ∈ passes, 60 < pass.now)
    (split : runActions passes start = before ++ act :: after)
    (final : Final id (before.foldl perform start) act) (silent : ∀ later ∈ after, ¬ later.Serves id)
    {upto more : List Action} {now : Int} (scan : after = upto ++ Action.scanClients now :: more) :
    Absent id ((upto ++ [Action.scanClients now]).foldl perform (perform (before.foldl perform start) act)) := by
  have doomed := doomed_final (invariant_foldl clientIds_perform ids before) final
  have inside : Action.scanClients now ∈ runActions passes start := by simp [split, scan]
  obtain ⟨pass, member, rfl⟩ := mem_runActions inside
  rw [List.foldl_append]
  apply absent_scanClients (clock pass member)
  exact doomed_foldl (fun later member => silent later (by simp [scan, member])) doomed

end Runs

-- LOGOUT is final all along a run, and so is a failed reply, exactly if the reads end with the line:
-- a further line that came with it is still served.
theorem logout_final (start : Upsd) (noClients : start.firstclient = []) (passes : List Pass)
    (clock : ∀ pass ∈ passes, 60 < pass.now) : Always perform LogoutIsFinal start (runActions passes start) ↔
      Always perform NothingFollows start (runActions passes start) := by
  have ids : ClientIds start := by simp [ClientIds, noClients]
  constructor
  · intro always
    refine always_mono (fun w actions final => ?_) always
    cases actions with
    | nil => trivial
    | cons act rest =>
      cases rest with
      | nil => trivial
      | cons next rest =>
        intro id reached
        exact (final id reached).1 next List.mem_cons_self
  · intro always
    refine always_iff.mpr fun before after split => ?_
    cases after with
    | nil => trivial
    | cons act after =>
      intro id final
      have last : ∀ next rest, after = next :: rest -> ¬ next.Serves id := by
        rintro next rest rfl
        exact always_iff.mp always before (act :: next :: rest) split id final
      have silent := silent_after_final ids clock split final last
      exact ⟨silent, fun upto now more scan => (gone_after_scan ids clock split final silent scan).gone⟩

theorem logout_final_sample :
    Always perform LogoutIsFinal sampleUpsd (runActions (samplePasses "LOGOUT\n") sampleUpsd) ↔
      Always perform NothingFollows sampleUpsd (runActions (samplePasses "LOGOUT\n") sampleUpsd) := by
  apply logout_final sampleUpsd rfl
  intro pass member
  obtain rfl | rfl : pass = _ ∨ pass = _ := by simpa [samplePasses] using member
  all_goals decide

def Action.line? : Action -> Option (Nat × Int × List CString)
  | .command id now arglist => some (id, now, arglist)
  | _ => none

theorem command_of_line {act : Action} {id : Nat} {now : Int} {arglist : List CString}
    (line : act.line? = some (id, now, arglist)) : act = .command id now arglist := by
  cases act <;> cases line
  rfl

-- `VER` is answered, and as it was heard the client stays.
theorem logout_not_final :
    let passes := samplePasses "LOGOUT\nVER\n"
    ¬ Always perform LogoutIsFinal sampleUpsd (runActions passes sampleUpsd) ∧
      ((passes ++ passes.take 1).foldl mainloop sampleUpsd).firstclient.map Client.id = [1, 0] := by
  intro passes
  refine ⟨fun always => ?_, by decide +kernel⟩
  have split := List.take_append_drop 9 (runActions passes sampleUpsd)
  have final := always_iff.mp always _ _ split.symm
  have shape : (((runActions passes sampleUpsd).drop 9).map Action.line?).take 2 =
      [some (0, 1000, [cstr "LOGOUT"]), some (0, 1000, [cstr "VER"])] := by decide +kernel
  have present : ((((runActions passes sampleUpsd).take 9).foldl perform sampleUpsd).findClient 0).isSome := by
    decide +kernel
  cases behind : (runActions passes sampleUpsd).drop 9 with
  | nil => simp [behind] at shape
  | cons act rest =>
    cases rest with
    | nil => simp [behind] at shape
    | cons next rest =>
      simp only [behind, List.map_cons, List.take_succ_cons, List.take_zero, List.cons.injEq, and_true] at shape
      obtain rfl := command_of_line shape.1
      obtain rfl := command_of_line shape.2
      rw [behind] at final
      have reached := final 0 ⟨_, _, rfl, Option.isSome_iff_ne_none.mp present, Or.inl ⟨_, rfl, by decide⟩⟩
      exact reached.1 _ List.mem_cons_self rfl

end Nut
