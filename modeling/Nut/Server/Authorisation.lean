import Nut.Server.Clients

set_option autoImplicit false

namespace Nut

def MayDo (table : List User) (w : Upsd) (act : Action) (granted : User -> Prop) : Prop :=
  ∃ client ∈ w.firstclient, ∃ now arglist, act = .command client.id now arglist ∧
    Grants table client.username client.password granted

def LineAuthorised (table : List User) (w : Upsd) (act : Action) (line : CString) : Prop :=
  Housekeeping line ∨
    (∃ var newval trackingId, line = setCmd var newval trackingId) ∧ MayDo table w act (GrantsAction "SET") ∨
    ∃ cmdname, (∃ value trackingId, line = instcmdCmd cmdname value trackingId) ∧
      MayDo table w act (GrantsInstcmd cmdname)

structure Authorised (table : List User) (w : Upsd) (act : Action) (w' : Upsd) : Prop where
  ups : ∀ ups' ∈ w'.firstups,
    (∃ ups ∈ w.firstups, ups.name = ups'.name ∧
      (ups.fsd = false -> ups'.fsd = true -> MayDo table w act (GrantsAction "FSD")) ∧
      (ups.numlogins < ups'.numlogins -> MayDo table w act (GrantsAction "LOGIN"))) ∨
    -- or it has just been added
    ups'.fsd = false ∧ ups'.numlogins ≤ 0 ∧ ∀ ups ∈ w.firstups, ups.name ≠ ups'.name
  lines : ∃ added, w'.lines = w.lines ++ added ∧ ∀ line ∈ added, LineAuthorised table w act line.2
  clients : ∀ client' ∈ w'.firstclient,
    (∃ client ∈ w.firstclient, client.id = client'.id ∧
      (client.username ≠ none -> client'.username = client.username) ∧
      (client.password ≠ none -> client'.password = client.password)) ∨
    -- or it has just connected
    client'.username = none ∧ client'.password = none ∧ ∀ client ∈ w.firstclient, client.id ≠ client'.id

theorem flag_still {flag : Bool} {P : Prop} (down : flag = false) (up : flag = true) : P := by
  rw [down] at up
  cases up

theorem authorised_maintained {w w' : Upsd} (table : List User) (act : Action) (kept : Maintained w w') :
    Authorised table w act w' := by
  obtain ⟨added, lines, house⟩ := kept.lines
  refine ⟨fun ups' member => ?_, ⟨added, lines, fun line member => Or.inl (house line member)⟩,
    fun client' member => Or.inl ⟨client', kept.clients.subset member, rfl, fun _ => rfl, fun _ => rfl⟩⟩
  obtain ⟨ups, inside, name, fsd, numlogins⟩ | fresh := kept.ups ups' member
  · refine Or.inl ⟨ups, inside, name.symm, fun down up => ?_, fun more => ?_⟩
    · exact flag_still down (fsd ▸ up)
    · exact absurd more (by omega)
  · exact Or.inr fresh

section Commands

variable {table : List User} {w between : Upsd} {client : Client} {arglist : List CString}

def UpsChange (table : List User) (client : Client) (ups ups' : Upstype) : Prop :=
  ups'.name = ups.name ∧
    (ups.fsd = false -> ups'.fsd = true ->
      Grants table client.username client.password (GrantsAction "FSD")) ∧
    (ups.numlogins < ups'.numlogins ->
      Grants table client.username client.password (GrantsAction "LOGIN"))

theorem upsChange_refl (ups : Upstype) : UpsChange table client ups ups :=
  ⟨rfl, flag_still, fun more => absurd more (Int.lt_irrefl _)⟩

theorem modifyUps_mem {name : CString} {change : Upstype -> Upstype} {list : List Upstype} {ups' : Upstype}
    (member : ups' ∈ modifyUps name change list) : ups' ∈ list ∨ ∃ ups ∈ list, ups' = change ups := by
  induction list with
  | nil => cases member
  | cons ups rest ih =>
    unfold modifyUps at member
    split at member
    · obtain rfl | later := List.mem_cons.mp member
      · exact Or.inr ⟨ups, List.mem_cons_self, rfl⟩
      · exact Or.inl (List.mem_cons_of_mem _ later)
    · obtain rfl | later := List.mem_cons.mp member
      · exact Or.inl List.mem_cons_self
      · obtain same | ⟨other, inside, changed⟩ := ih later
        · exact Or.inl (List.mem_cons_of_mem _ same)
        · exact Or.inr ⟨other, List.mem_cons_of_mem _ inside, changed⟩

theorem modifyUps_change {name : CString} {change : Upstype -> Upstype} {list : List Upstype}
    (changed : ∀ ups, UpsChange table client ups (change ups)) {ups' : Upstype}
    (member : ups' ∈ modifyUps name change list) : ∃ ups ∈ list, UpsChange table client ups ups' := by
  obtain same | ⟨ups, inside, rfl⟩ := modifyUps_mem member
  · exact ⟨ups', same, upsChange_refl ups'⟩
  · exact ⟨ups, inside, changed ups⟩

theorem effect_ups (effect : Effect w client arglist between) (users : w.users = table) {ups' : Upstype}
    (member : ups' ∈ between.firstups) : ∃ ups ∈ w.firstups, UpsChange table client ups ups' := by
  subst users
  cases effect with
  | login ups found unset granted =>
    apply modifyUps_change (fun ups => ?_) member
    exact ⟨rfl, flag_still, fun _ => userCheckaction_grants granted⟩
  | fsd ups granted =>
    apply modifyUps_change (fun ups => ?_) member
    exact ⟨rfl, fun _ _ => userCheckaction_grants granted, fun more => absurd more (Int.lt_irrefl _)⟩
  | relayed ups line randoms trackingList isLine =>
    obtain ⟨firstups, _, _, sent, same | changed, _⟩ := sstateSendline_fst { w with randoms, trackingList } ups line
    · rw [sent, same] at member
      exact ⟨ups', member, upsChange_refl ups'⟩
    · rw [sent, changed] at member
      apply modifyUps_change (fun ups => ?_) member
      unfold sstateDisconnect
      split
      · exact ⟨rfl, flag_still, fun more => absurd more (Int.lt_irrefl _)⟩
      · exact upsChange_refl ups
  | _ => exact ⟨ups', member, upsChange_refl ups'⟩

theorem effect_lines (effect : Effect w client arglist between) (users : w.users = table) :
    ∃ added, between.lines = w.lines ++ added ∧ ∀ line ∈ added,
      (∃ var newval trackingId, line.2 = setCmd var newval trackingId) ∧
          Grants table client.username client.password (GrantsAction "SET") ∨
        ∃ cmdname, (∃ value trackingId, line.2 = instcmdCmd cmdname value trackingId) ∧
          Grants table client.username client.password (GrantsInstcmd cmdname) := by
  subst users
  obtain same | ⟨upsname, line, isLine, more⟩ := effect_line effect
  · exact ⟨[], by rw [same, List.append_nil], by simp⟩
  · refine ⟨[(upsname, line)], more, ?_⟩
    intro written member
    obtain rfl := List.mem_singleton.mp member
    cases isLine with
    | set isSet isVar granted => exact Or.inl ⟨⟨_, _, _, rfl⟩, userCheckaction_grants granted⟩
    | instcmd isInstcmd granted => exact Or.inr ⟨_, ⟨_, _, rfl⟩, userCheckinstcmd_grants granted⟩

end Commands

theorem authorised_command {table : List User} {w : Upsd} (users : w.users = table) (ids : ClientIds w)
    (id : Nat) (now : Int) (arglist : List CString) :
    Authorised table w (.command id now arglist) (serveLine now id w arglist) := by
  have attended : AllAttended id w.firstclient (serveLine now id w arglist).firstclient := serveLine_clients ids arglist
  have clients : ∀ client' ∈ (serveLine now id w arglist).firstclient, ∃ client ∈ w.firstclient,
      client.id = client'.id ∧ (client.username ≠ none -> client'.username = client.username) ∧
        (client.password ≠ none -> client'.password = client.password) := by
    intro client' member
    obtain ⟨client, inside, kept⟩ := all_mem attended member
    refine ⟨client, inside, (attended_id kept).symm, ?_⟩
    unfold Attended at kept
    split at kept
    · exact ⟨kept.2.2.2.1, kept.2.2.2.2.1⟩
    · rw [kept]
      exact ⟨fun _ => rfl, fun _ => rfl⟩
  obtain ⟨_, same⟩ | ⟨client, between, found, effect, answers⟩ := serveLine_cases now id w arglist
  · refine ⟨fun ups' member => ?_, ⟨[], by rw [same, List.append_nil], by simp⟩,
      fun client' member => Or.inl (clients client' member)⟩
    rw [same] at member
    exact Or.inl ⟨ups', member, rfl, flag_still, fun more => absurd more (Int.lt_irrefl _)⟩
  · obtain ⟨member, rfl⟩ := findClient_spec found
    have may {granted : User -> Prop}
        (grants : Grants table (client.hear now).username (client.hear now).password granted) :
        MayDo table w (.command client.id now arglist) granted := ⟨client, member, now, arglist, rfl, grants⟩
    have answered : (serveLine now client.id w arglist).firstups = between.firstups ∧
        (serveLine now client.id w arglist).lines = between.lines := by
      obtain ⟨_, _, _, _, equal, _⟩ := answers
      rw [equal]
      exact ⟨rfl, rfl⟩
    refine ⟨fun ups' inside => ?_, ?_, fun client' member => Or.inl (clients client' member)⟩
    · rw [answered.1] at inside
      obtain ⟨ups, origin, name, fsd, logins⟩ := effect_ups effect users inside
      exact Or.inl ⟨ups, origin, name.symm, fun down up => may (fsd down up), fun more => may (logins more)⟩
    · obtain ⟨added, lines, granted⟩ := effect_lines effect users
      refine ⟨added, by rw [answered.2, lines]; rfl, fun line inside => Or.inr ?_⟩
      obtain ⟨isSet, grants⟩ | ⟨cmdname, isInstcmd, grants⟩ := granted line inside
      · exact Or.inl ⟨isSet, may grants⟩
      · exact Or.inr ⟨cmdname, isInstcmd, may grants⟩

def Reload.KeepsUsers (table : List User) (r : Reload) : Prop :=
  (r.upsdUsers.emfile ≤ 10 && r.upsdUsers.found) = true -> r.users = table

def Action.KeepsUsers (table : List User) : Action -> Prop
  | .reload _ _ r => r.KeepsUsers table
  | _ => True

theorem users_foldl {ι : Type} {step : Upsd -> ι -> Upsd} (each : ∀ w item, (step w item).users = w.users)
    (items : List ι) (w : Upsd) : (items.foldl step w).users = w.users := by
  induction items generalizing w with
  | nil => rfl
  | cons item rest ih => exact (ih _).trans (each w item)

theorem users_upsconfAdd (now : Int) (up : CString -> Bool) (reloading : Bool) (upstable : List UpsEntry)
    (w : Upsd) : (upsconfAdd now up reloading upstable w).users = w.users := by
  apply users_foldl
  intro w entry
  unfold upsconfAddEntry
  split
  · dsimp only
    split
    · rfl
    · unfold upsCreate
      split
      · rfl
      · exact (quiet_connectDriver now _ w _).1.users
  · rfl

theorem users_rereadConf (now : Int) (up : CString -> Bool) (r : Reload) (w : Upsd) :
    (rereadConf now up r w).users = w.users := by
  have deleted (w : Upsd) : (dropUnretained w).users = w.users := by
    apply users_foldl
    intro w ups
    split
    · rfl
    · exact (upkeep_kickLoginClients w ups.name).users
  unfold rereadConf
  rw [deleted, (upkeep_loadUpsdconf r _).users, users_upsconfAdd, (upkeep_closeOldest _ _).users]
  rfl

theorem users_confReload {table : List User} {w : Upsd} (users : w.users = table) {r : Reload}
    (keeps : r.KeepsUsers table) (now : Int) (up : CString -> Bool) : (confReload now up r w).users = table := by
  have first : (checkFile r.upsdConf w).1.users = table := (upkeep_closeOldest _ w).users.trans users
  unfold confReload
  split
  next stopped =>
      rw [stopped] at first
      exact first
  next w' ready =>
      rw [ready] at first
      have last : (checkFile r.upsdUsers (rereadConf now up r w')).1.users = table := by
        rw [<- first, <- users_rereadConf now up r w']
        exact (upkeep_closeOldest _ _).users
      split
      next stopped =>
          rw [stopped] at last
          exact last
      next read => exact keeps (Prod.mk.inj read).2

theorem users_perform {table : List User} {w : Upsd} {act : Action} (keeps : act.KeepsUsers table)
    (users : w.users = table) : (perform w act).users = table := by
  cases act with
  | reload now up r => exact users_confReload users keeps now up
  | trackingCleanup now => exact users
  | scanDriver now up name => exact (quiet_scanDriver now up w name).users.trans users
  | scanClients now => exact (upkeep_scanClients now w).users.trans users
  | driver name event => exact (quiet_serveDriver w name event).users.trans users
  | disconnect id => exact (upkeep_clientDisconnect w id).users.trans users
  | command id now arglist => exact (serveLine_frame now id w arglist).2.trans users
  | parsed id ctx => exact users
  | connect now addr => exact users

theorem authorised_parsed (table : List User) (w : Upsd) (id : Nat) (ctx : PconfCtx) :
    Authorised table w (.parsed id ctx) (perform w (.parsed id ctx)) := by
  refine ⟨fun ups member => Or.inl ⟨ups, member, rfl, flag_still, fun more => absurd more (Int.lt_irrefl _)⟩,
    ⟨[], by simp [perform, Upsd.updateClient], by simp⟩, fun client' member => Or.inl ?_⟩
  obtain ⟨client, inside, rfl⟩ := List.mem_map.mp member
  refine ⟨client, inside, ?_⟩
  split <;> exact ⟨rfl, fun _ => rfl, fun _ => rfl⟩

theorem authorised_connect (table : List User) {w : Upsd} (ids : ClientIds w) (now : Int) (addr : CString) :
    Authorised table w (.connect now addr) (perform w (.connect now addr)) := by
  refine ⟨fun ups member => Or.inl ⟨ups, member, rfl, flag_still, fun more => absurd more (Int.lt_irrefl _)⟩,
    ⟨[], by simp [perform, clientConnect], by simp⟩, fun client' member => ?_⟩
  obtain rfl | inside := List.mem_cons.mp member
  · exact Or.inr ⟨rfl, rfl, fun client inside => Nat.ne_of_lt (ids.2 client inside)⟩
  · exact Or.inl ⟨client', inside, rfl, fun _ => rfl, fun _ => rfl⟩

theorem authorised_perform (table : List User) (w : Upsd) (act : Action) (keeps : act.KeepsUsers table)
    (inv : w.users = table ∧ ClientIds w) :
    Authorised table w act (perform w act) ∧ (perform w act).users = table ∧ ClientIds (perform w act) := by
  obtain ⟨users, ids⟩ := inv
  have internal {act : Action} (internal : act.Internal) : Authorised table w act (perform w act) :=
    authorised_maintained table act (maintained_perform internal w)
  refine ⟨?_, users_perform keeps users, clientIds_perform w act ids⟩
  cases act with
  | command id now arglist => exact authorised_command users ids id now arglist
  | parsed id ctx => exact authorised_parsed table w id ctx
  | connect now addr => exact authorised_connect table ids now addr
  | _ => exact internal trivial

-- In every run of upsd a FSD flag is set, a login counted or a line other than PING and DUMPALL written
-- to a driver only while a command is served for a client with the right to it, and credentials stay as
-- they were first given.
theorem commands_authorised (table : List User) (start : Upsd) (users : start.users = table)
    (noClients : start.firstclient = []) (passes : List Pass)
    (keeps : ∀ pass ∈ passes, ∀ r, pass.reload = some r -> r.KeepsUsers table) :
    Always perform (EachAction fun w act => Authorised table w act (perform w act)) start
      (runActions passes start) := by
  have ids : ClientIds start := by
    simp [ClientIds, noClients]
  have allowed : ∀ act ∈ runActions passes start, act.KeepsUsers table := by
    intro act member
    cases act with
    | reload now up r =>
      obtain ⟨pass, inside, same⟩ := mem_runActions member
      exact keeps pass inside r same
    | _ => trivial
  exact always_mono (fun _ _ both => both.2) (always_steps (authorised_perform table) ⟨users, ids⟩ allowed)

def sampleUser : User :=
  { username := cstr "admin", password := some (cstr "x"), firstcmd := [cstr "all"],
    firstaction := [cstr "SET", cstr "FSD", cstr "LOGIN"] }

def sampleUpsd : Upsd :=
  { build := { upsVersion := cstr "2.8.4", packageUrl := none, nutNetversion := cstr "1.3",
               hostsAccess := fun _ _ => true }
    firstups :=
      [{ name := cstr "ups", fn := cstr "dummy-ups", desc := none, connected := true, stale := false,
         dumpdone := true, dataOk := true, lastHeard := 1000, lastPing := 1000, sockCtx := pconfInit,
         inforoot := .nil, cmdlist := [cstr "test.start"], numlogins := 0, fsd := false, retain := true }]
    firstclient := [], users := [sampleUser], cmdList := [], varList := [], maxage := 15,
    trackingDelay := 3600, trackingEnabled := false, trackingList := [], nextId := 0, writes := [],
    randoms := [], replies := [], lines := [] }

def samplePasses (text : String) : List Pass :=
  let quiet : Pass :=
    { now := 1000, reload := none, up := fun _ => false, driver := fun _ => .quiet,
      client := fun _ => .quiet, accepted := [] }
  [{ quiet with accepted := [(1000, cstr "::1")] },
   { quiet with client := fun _ => .read 1000 (some (cstr text)) }]

theorem commands_authorised_sample :
    let passes := samplePasses "USERNAME admin\nPASSWORD x\nLOGIN ups\nFSD ups\nINSTCMD ups test.start\n"
    (Always perform (EachAction fun w act => Authorised [sampleUser] w act (perform w act)) sampleUpsd
        (runActions passes sampleUpsd)) ∧
      ((passes.foldl mainloop sampleUpsd).firstups.map fun ups => (ups.fsd, ups.numlogins)) = [(true, 1)] ∧
      (passes.foldl mainloop sampleUpsd).lines = [(cstr "ups", cstr "INSTCMD test.start\n")] := by
  refine ⟨?_, by decide +kernel, by decide +kernel⟩
  apply commands_authorised [sampleUser] sampleUpsd rfl rfl
  intro pass member r reload
  obtain rfl | rfl : pass = _ ∨ pass = _ := by simpa [samplePasses] using member
  all_goals cases reload

end Nut
