import Nut.Library.Tally
import Nut.Server.Authorisation

set_option autoImplicit false

namespace Nut

def Upsd.tally (w : Upsd) : Tally Nat CString :=
  { counts := w.firstups.map fun ups => (ups.name, ups.numlogins)
    holders := w.firstclient.map fun client => (client.id, client.loginups) }

-- No two names differ in case only, so `get_ups_ptr` finds for the name of a UPS that very UPS.
def DistinctNames (list : List Upstype) : Prop :=
  (list.map fun ups => foldCase ups.name).Nodup

structure Accounted (w : Upsd) : Prop where
  ids : ClientIds w
  names : DistinctNames w.firstups
  balanced : w.tally.Balanced

section Records

variable {list : List Upstype}

theorem counts_modifyUps (name : CString) (change : Upstype -> Upstype)
    (same : ∀ ups, (change ups).name = ups.name ∧ (change ups).numlogins = ups.numlogins) (list : List Upstype) :
    ((modifyUps name change list).map fun ups => (ups.name, ups.numlogins)) =
      list.map fun ups => (ups.name, ups.numlogins) := by
  induction list with
  | nil => rfl
  | cons ups rest ih =>
    unfold modifyUps
    split <;> simp [same, ih]

theorem modifyUps_exact (names : DistinctNames list) {ups : Upstype} (member : ups ∈ list)
    (change : Upstype -> Upstype) : modifyUps ups.name change list =
      list.map fun tmp => if tmp.name = ups.name then change tmp else tmp := by
  induction list with
  | nil => cases member
  | cons tmp rest ih =>
    simp only [DistinctNames, List.map_cons, List.nodup_cons] at names
    have elsewhere {other : Upstype} (inside : other ∈ rest) : foldCase other.name ≠ foldCase tmp.name :=
      fun same => names.1 (same ▸ List.mem_map_of_mem inside)
    by_cases here : strcasecmp tmp.name ups.name = .eq
    · have only : ups = tmp := by
        obtain same | inside := List.mem_cons.mp member
        · exact same
        · exact absurd ((strcasecmp_eq_iff _ _).mp here).symm (elsewhere inside)
      subst only
      have others : (rest.map fun tmp => if tmp.name = ups.name then change tmp else tmp) = rest := by
        conv_rhs => rw [<- List.map_id rest]
        apply List.map_congr_left
        intro other inside
        have differs : other.name ≠ ups.name := fun same => elsewhere inside (by rw [same])
        simp [differs]
      simp [modifyUps, others]
    · have differs : tmp.name ≠ ups.name := by
        intro same
        simp [same] at here
      have inside : ups ∈ rest := by
        obtain rfl | inside := List.mem_cons.mp member
        · exact absurd rfl differs
        · exact inside
      simp [modifyUps, here, differs, ih names.2 inside]

theorem counts_bump (names : DistinctNames list) {ups : Upstype} (member : ups ∈ list) (more : Int) :
    ((modifyUps ups.name (fun ups => { ups with numlogins := ups.numlogins + more }) list).map
        fun ups => (ups.name, ups.numlogins)) =
      Tally.bump ups.name more (list.map fun ups => (ups.name, ups.numlogins)) := by
  simp only [modifyUps_exact names member, Tally.bump, List.map_map]
  apply List.map_congr_left
  intro tmp _
  by_cases same : tmp.name = ups.name <;> simp [same]

end Records

section Accounted

variable {w w' : Upsd}

theorem accounted_of (accounted : Accounted w) (ids : ClientIds w')
    (keys : w'.tally.counts.map Prod.fst = w.tally.counts.map Prod.fst) (balanced : w'.tally.Balanced) :
    Accounted w' := by
  refine ⟨ids, ?_, balanced⟩
  have names := congrArg (List.map foldCase) keys
  simp only [Upsd.tally, List.map_map, Function.comp_def] at names
  unfold DistinctNames
  rw [names]
  exact accounted.names

theorem accounted_same (accounted : Accounted w) (ids : ClientIds w') (same : w'.tally = w.tally) : Accounted w' :=
  accounted_of accounted ids (by rw [same]) (same ▸ accounted.balanced)

theorem tally_quiet (quiet : Quiet w w') : w'.tally = w.tally := by
  have counts {list list' : List Upstype} (ups : List.Forall₂ SameAccount list list') :
      (list'.map fun ups => (ups.name, ups.numlogins)) = list.map fun ups => (ups.name, ups.numlogins) := by
    induction ups with
    | nil => rfl
    | cons same _ ih => simp [same.1, same.2.2, ih]
  simp only [Upsd.tally, counts quiet.ups, quiet.clients]

theorem accounted_quiet (accounted : Accounted w) (quiet : Quiet w w') : Accounted w' := by
  apply accounted_same accounted ?_ (tally_quiet quiet)
  exact clientIds_sub accounted.ids quiet.nextId (quiet.clients ▸ List.Sublist.refl _)

theorem accounted_ups (accounted : Accounted w) {client : Client} (member : client ∈ w.firstclient)
    {upsname : CString} (login : client.loginups = some upsname) : ∃ ups ∈ w.firstups, ups.name = upsname := by
  have holder : (client.id, client.loginups) ∈ w.tally.holders := List.mem_map_of_mem member
  simpa [Upsd.tally] using accounted.balanced.known _ holder upsname login

theorem tally_clientDisconnect (accounted : Accounted w) {id : Nat} {client : Client}
    (found : w.findClient id = some client) : (clientDisconnect w id).tally = w.tally.leave id client.loginups := by
  have holders : ((w.firstclient.filter fun other => other.id ≠ id).map
        fun client => (client.id, client.loginups)) =
      (w.firstclient.map fun client => (client.id, client.loginups)).filter fun holder => holder.1 ≠ id := by
    simp [List.filter_map, Function.comp_def]
  simp only [clientDisconnect, found]
  cases login : client.loginups with
  | none => simp only [Upsd.tally, Tally.leave, holders]
  | some upsname =>
    obtain ⟨ups, member, rfl⟩ := accounted_ups accounted (findClient_spec found).1 login
    have counts := counts_bump accounted.names member (-1)
    simp only [Upsd.tally, Tally.leave, declogins, Upsd.updateUps, Int.sub_eq_add_neg, counts, holders]

theorem accounted_clientDisconnect (w : Upsd) (id : Nat) (accounted : Accounted w) :
    Accounted (clientDisconnect w id) := by
  cases found : w.findClient id with
  | none => simpa [clientDisconnect, found] using accounted
  | some client =>
    obtain ⟨member, same⟩ := findClient_spec found
    have holder : (id, client.loginups) ∈ w.tally.holders := by
      simp only [Upsd.tally, List.mem_map]
      exact ⟨client, member, by rw [same]⟩
    have tally := tally_clientDisconnect accounted found
    have ids : ClientIds (clientDisconnect w id) := clientIds_perform w (.disconnect id) accounted.ids
    apply accounted_of accounted ids
    · rw [tally]
      cases client.loginups with
      | none => rfl
      | some upsname => exact Tally.map_fst_bump upsname (-1) w.tally.counts
    · rw [tally]
      exact Tally.balanced_leave accounted.balanced holder

theorem accounted_closeOldest (count : Nat) (accounted : Accounted w) : Accounted (closeOldest count w) := by
  induction count generalizing w with
  | zero => exact accounted
  | succ count ih =>
    simp only [closeOldest, Function.iterate_succ_apply]
    apply ih
    unfold closeOldestClient
    split
    · exact accounted
    · exact accounted_clientDisconnect w _ accounted

theorem accounted_disconnects (cond : Client -> Prop) [DecidablePred cond] (clients : List Client)
    (accounted : Accounted w) :
    Accounted (clients.foldl (fun w client => if cond client then clientDisconnect w client.id else w) w) := by
  apply invariant_foldl _ accounted
  intro w client accounted
  split
  · exact accounted_clientDisconnect w client.id accounted
  · exact accounted

theorem accounted_deleteUps (w : Upsd) (name : CString) (accounted : Accounted w) : Accounted (deleteUps w name) := by
  have kicked : Accounted (kickLoginClients w name) :=
    accounted_disconnects (fun client => client.loginups = some name) w.firstclient accounted
  have free : ∀ client ∈ (kickLoginClients w name).firstclient, client.loginups ≠ some name := by
    intro client inside login
    have shrunk := (upkeep_kickLoginClients w name).clients
    exact disconnects_gone (fun client => client.loginups = some name) w.firstclient w
      (shrunk.subset inside) login client inside rfl
  have tally : (deleteUps w name).tally = (kickLoginClients w name).tally.drop name := by
    simp [deleteUps, Upsd.tally, Tally.drop, List.filter_map, Function.comp_def]
  refine ⟨clientIds_sub kicked.ids rfl (List.Sublist.refl _), kicked.names.sublist (List.filter_sublist.map _), ?_⟩
  rw [tally]
  apply Tally.balanced_drop kicked.balanced
  simpa [Upsd.tally] using free

theorem accounted_upsCreate (now : Int) (up : CString -> Bool) (fn name : CString) (desc : Option CString)
    (accounted : Accounted w) : Accounted (upsCreate now up w fn name desc) := by
  unfold upsCreate
  split
  next => exact accounted
  next free =>
      dsimp only
      generalize blank : ({
        name, fn, desc, connected := false, stale := true, dumpdone := false, dataOk := false,
        lastHeard := 0, lastPing := 0, sockCtx := pconfInit, inforoot := .nil, cmdlist := [],
        numlogins := 0, fsd := false, retain := true } : Upstype) = temp
      obtain ⟨quiet, account, same⟩ := quiet_connectDriver now (up name) w temp
      have named : (w.connectDriver now (up name) temp).2.name = name := by
        rw [account.1, <- blank]
      have nobody : (w.connectDriver now (up name) temp).2.numlogins = 0 := by
        rw [account.2.2, <- blank]
      have fresh : ∀ ups ∈ w.firstups, foldCase ups.name ≠ foldCase name := by
        intro ups member
        rw [Ne, <- strcasecmp_eq_iff]
        have unlike : ∀ ups ∈ w.firstups, strcasecmp ups.name name ≠ .eq := by
          simpa using free
        exact unlike ups member
      refine ⟨clientIds_sub accounted.ids quiet.nextId (quiet.clients ▸ List.Sublist.refl _), ?_, ?_⟩
      · simp only [DistinctNames, List.map_cons, List.nodup_cons, same, named]
        refine ⟨fun member => ?_, accounted.names⟩
        obtain ⟨ups, inside, equal⟩ := List.mem_map.mp member
        exact fresh ups inside equal
      · have added := Tally.balanced_add accounted.balanced (k := name) (fun member => by
          simp only [Upsd.tally, List.map_map, List.mem_map] at member
          obtain ⟨ups, inside, rfl⟩ := member
          exact fresh ups inside rfl)
        simpa [Upsd.tally, Tally.add, same, named, nobody, quiet.clients] using added

theorem accounted_upsconfAdd (now : Int) (up : CString -> Bool) (reloading : Bool)
    (upstable : List UpsEntry) (accounted : Accounted w) : Accounted (upsconfAdd now up reloading upstable w) := by
  apply invariant_foldl _ accounted
  intro w entry accounted
  unfold upsconfAddEntry
  split
  · dsimp only
    split
    · exact accounted_quiet accounted (quiet_upsUpdate w _ _ _)
    · exact accounted_upsCreate now up _ _ _ accounted
  · exact accounted

theorem accounted_loadUpsdconf (r : Reload) (accounted : Accounted w) : Accounted (loadUpsdconf r w) := by
  have closed := accounted_closeOldest r.upsdConfAgain.emfile accounted
  unfold loadUpsdconf
  split
  · exact accounted_same closed closed.ids rfl
  · exact closed

theorem accounted_confReload (now : Int) (up : CString -> Bool) (r : Reload) (accounted : Accounted w) :
    Accounted (confReload now up r w) := by
  have checked (opening : Opening) {w : Upsd} (accounted : Accounted w) : Accounted (checkFile opening w).1 :=
    accounted_closeOldest _ accounted
  have reread {w : Upsd} (accounted : Accounted w) : Accounted (rereadConf now up r w) := by
    have cleared := accounted_closeOldest r.upsConfEmfile.toNat (accounted_quiet accounted (quiet_clearRetain w))
    have added := accounted_upsconfAdd now up true (r.settings.foldl doUpsconfArgs []) cleared
    apply invariant_foldl _ (accounted_loadUpsdconf r added)
    intro w ups accounted
    split
    · exact accounted
    · exact accounted_deleteUps w ups.name accounted
  have first := checked r.upsdConf accounted
  unfold confReload
  split
  next stopped => rw [stopped] at first; exact first
  next w' ready =>
      rw [ready] at first
      have last := checked r.upsdUsers (reread first)
      split
      next stopped => rw [stopped] at last; exact last
      next read =>
          rw [read] at last
          exact accounted_same last last.ids rfl

theorem tally_updateClient (w : Upsd) (id : Nat) {change : Client -> Client}
    (same : ∀ client, ((change client).id, (change client).loginups) = (client.id, client.loginups)) :
    (w.updateClient id change).tally = w.tally := by
  simp only [Upsd.tally, Upsd.updateClient, List.map_map, Tally.mk.injEq, true_and]
  apply List.map_congr_left
  intro client _
  by_cases here : client.id = id
  · simpa [here] using same client
  · simp [here]

theorem tally_answers {id : Nat} (answers : Answers id w w') : w'.tally = w.tally := by
  obtain ⟨_, _, _, clients, rfl, ⟨rfl, _⟩ | rfl⟩ := answers
  · rfl
  · exact tally_updateClient w id fun _ => rfl

theorem tally_sstateSendline (w : Upsd) (ups : Upstype) (line : CString) :
    (sstateSendline w ups line).1.tally = w.tally := by
  obtain ⟨_, _, _, sent, rfl | rfl, _⟩ := sstateSendline_fst w ups line
  · rw [sent]
    rfl
  · have same := counts_modifyUps ups.name sstateDisconnect (fun ups => ⟨(sameAccount_sstateDisconnect ups).1,
      (sameAccount_sstateDisconnect ups).2.2⟩) w.firstups
    rw [sent]
    simp only [Upsd.tally, same]

theorem balanced_effect {between : Upsd} {client : Client} {arglist : List CString}
    (accounted : Accounted w) (member : client ∈ w.firstclient) (effect : Effect w client arglist between) :
    between.tally.Balanced ∧ between.tally.counts.map Prod.fst = w.tally.counts.map Prod.fst := by
  have unchanged (same : between.tally = w.tally) :
      between.tally.Balanced ∧ between.tally.counts.map Prod.fst = w.tally.counts.map Prod.fst := by
    rw [same]
    exact ⟨accounted.balanced, rfl⟩
  cases effect with
  | none => exact unchanged rfl
  | username | password => exact unchanged (tally_updateClient w client.id fun _ => rfl)
  | tracking value enabled => exact unchanged (tally_updateClient _ client.id fun _ => rfl)
  | fsd ups granted =>
    apply unchanged
    have same := counts_modifyUps ups.name (fun ups => { ups with fsd := true }) (fun _ => ⟨rfl, rfl⟩) w.firstups
    simp only [Upsd.tally, Upsd.updateUps, same]
  | relayed ups line randoms trackingList isLine => exact unchanged (tally_sstateSendline _ ups line)
  | login ups found unset granted =>
    have known := List.mem_of_find?_eq_some found
    have tally : ((w.updateUps ups.name fun ups => { ups with numlogins := ups.numlogins + 1 }).updateClient
        client.id fun client => { client with loginups := some ups.name }).tally =
          w.tally.acquire client.id ups.name := by
      simp only [Upsd.tally, Upsd.updateUps, Upsd.updateClient, Tally.acquire,
        counts_bump accounted.names known 1, List.map_map, Tally.mk.injEq, true_and]
      apply List.map_congr_left
      intro other _
      by_cases here : other.id = client.id <;> simp [here]
    rw [tally]
    have free : (client.id, none) ∈ w.tally.holders := List.mem_map.mpr ⟨client, member, by rw [unset]⟩
    have key : ups.name ∈ w.tally.counts.map Prod.fst := by
      simp only [Upsd.tally, List.map_map]
      exact List.mem_map_of_mem known
    exact ⟨Tally.balanced_acquire accounted.balanced free key, Tally.map_fst_bump ups.name 1 w.tally.counts⟩

theorem accounted_serveLine (now : Int) (id : Nat) (arglist : List CString) (accounted : Accounted w) :
    Accounted (serveLine now id w arglist) := by
  have ids : ClientIds (serveLine now id w arglist) := clientIds_perform w (.command id now arglist) accounted.ids
  obtain ⟨_, same⟩ | ⟨client, between, found, effect, answers⟩ := serveLine_cases now id w arglist
  · rw [same]
    exact accounted
  · obtain ⟨member, rfl⟩ := findClient_spec found
    have kept : (w.updateClient client.id (Client.hear now)).tally = w.tally :=
      tally_updateClient w client.id fun _ => rfl
    have heard : Accounted (w.updateClient client.id (Client.hear now)) := by
      have same : (w.updateClient client.id (Client.hear now)).firstclient.map Client.id =
          w.firstclient.map Client.id := map_id_updateClient w client.id fun _ => rfl
      exact accounted_same accounted (clientIds_sub accounted.ids rfl (same ▸ .refl _)) kept
    have heardMember : client.hear now ∈ (w.updateClient client.id (Client.hear now)).firstclient :=
      List.mem_map.mpr ⟨client, member, by simp⟩
    obtain ⟨balanced, keys⟩ := balanced_effect heard heardMember effect
    have answered := tally_answers answers
    apply accounted_of heard ids
    · rw [answered, keys]
    · rw [answered]
      exact balanced

theorem accounted_perform (w : Upsd) (act : Action) (accounted : Accounted w) : Accounted (perform w act) := by
  cases act with
  | reload now up r => exact accounted_confReload now up r accounted
  | trackingCleanup now => exact accounted_quiet accounted (quiet_trackingCleanup now w)
  | scanDriver now up name => exact accounted_quiet accounted (quiet_scanDriver now up w name)
  | scanClients now =>
    exact accounted_disconnects (fun client => now - client.lastHeard > 60) w.firstclient accounted
  | driver name event => exact accounted_quiet accounted (quiet_serveDriver w name event)
  | disconnect id => exact accounted_clientDisconnect w id accounted
  | command id now arglist => exact accounted_serveLine now id arglist accounted
  | parsed id ctx =>
    exact accounted_same accounted (clientIds_perform w (.parsed id ctx) accounted.ids)
      (tally_updateClient w id fun _ => rfl)
  | connect now addr =>
    refine ⟨clientIds_perform w (.connect now addr) accounted.ids, accounted.names, ?_⟩
    apply Tally.balanced_join accounted.balanced
    simp only [Upsd.tally, List.map_map, List.mem_map, not_exists, not_and]
    exact fun client member => Nat.ne_of_lt (accounted.ids.2 client member)

end Accounted

structure LoginsCounted (w : Upsd) : Prop where
  counted : ∀ ups ∈ w.firstups,
    ups.numlogins = w.firstclient.countP fun client => client.loginups = some ups.name
  notNegative : ∀ ups ∈ w.firstups, 0 ≤ ups.numlogins
  listed : ∀ client ∈ w.firstclient, ∀ upsname, client.loginups = some upsname ->
    ∃ ups ∈ w.firstups, ups.name = upsname

theorem Accounted.loginsCounted {w : Upsd} (accounted : Accounted w) : LoginsCounted w := by
  have counted : ∀ ups ∈ w.firstups,
      ups.numlogins = w.firstclient.countP fun client => client.loginups = some ups.name := by
    intro ups member
    have right := accounted.balanced.counted (ups.name, ups.numlogins) (List.mem_map_of_mem member)
    simpa [Upsd.tally, Tally.heldBy, List.countP_map, Function.comp_def] using right
  refine ⟨counted, fun ups member => ?_, fun client member upsname => accounted_ups accounted member⟩
  rw [counted ups member]
  exact Int.natCast_nonneg _

-- From the first reading of ups.conf on, through every run: each `numlogins` is the number of clients
-- whose `loginups` names that UPS, and no client is logged into a UPS that is not there.
theorem logins_counted (blank : Upsd) (noUpses : blank.firstups = []) (noClients : blank.firstclient = [])
    (now : Int) (up : CString -> Bool) (settings : List (Option CString × CString × Option CString))
    (passes : List Pass) :
    let start := upsconfAdd now up false (settings.foldl doUpsconfArgs []) blank
    Always perform (fun w _ => DistinctNames w.firstups ∧ LoginsCounted w) start (runActions passes start) := by
  intro start
  have empty : Accounted blank := by
    refine ⟨by simp [ClientIds, noClients], by simp [DistinctNames, noUpses], ?_⟩
    constructor <;> simp [Upsd.tally, noUpses, noClients]
  have loaded : Accounted start := accounted_upsconfAdd now up false _ empty
  apply always_mono _ (always_invariant accounted_perform loaded (runActions passes start))
  intro w _ accounted
  exact ⟨accounted.names, accounted.loginsCounted⟩

theorem logins_counted_sample :
    let blank := { sampleUpsd with firstups := [] }
    let settings := [(some (cstr "ups"), cstr "driver", some (cstr "dummy-ups")),
      (some (cstr "ups"), cstr "port", some (cstr "auto"))]
    let start := upsconfAdd 1000 (fun _ => true) false (settings.foldl doUpsconfArgs []) blank
    let passes := samplePasses "USERNAME admin\nPASSWORD x\nLOGIN UPS\n"
    Always perform (fun w _ => DistinctNames w.firstups ∧ LoginsCounted w) start (runActions passes start) ∧
      ((passes.foldl mainloop start).firstups.map fun ups => ups.numlogins) = [1] ∧
      ((passes.foldl mainloop start).firstclient.map fun client => client.loginups) = [some (cstr "ups")] := by
  refine ⟨?_, by decide +kernel, by decide +kernel⟩
  exact logins_counted { sampleUpsd with firstups := [] } rfl rfl 1000 (fun _ => true) _ _

end Nut
