import Nut.Server.Quiet

set_option autoImplicit false

namespace Nut

def Tuned (ups ups' : Upstype) : Prop :=
  ups'.name = ups.name ∧ ups'.fsd = ups.fsd ∧ ups'.numlogins ≤ ups.numlogins

structure Upkeep (w w' : Upsd) : Prop where
  ups : List.Forall₂ Tuned w.firstups w'.firstups
  clients : w'.firstclient.Sublist w.firstclient
  nextId : w'.nextId = w.nextId
  users : w'.users = w.users
  lines : ∃ added, w'.lines = w.lines ++ added ∧ ∀ line ∈ added, Housekeeping line.2

theorem tuned_refl (ups : Upstype) : Tuned ups ups := ⟨rfl, rfl, Int.le_refl _⟩

theorem tuned_trans {a b c : Upstype} (first : Tuned a b) (second : Tuned b c) : Tuned a c :=
  ⟨second.1.trans first.1, second.2.1.trans first.2.1, Int.le_trans second.2.2 first.2.2⟩

theorem tuned_of_sameAccount {ups ups' : Upstype} (same : SameAccount ups ups') : Tuned ups ups' :=
  ⟨same.1, same.2.1, Int.le_of_eq same.2.2⟩

theorem upkeep_refl (w : Upsd) : Upkeep w w := ⟨all_refl tuned_refl _, .refl _, rfl, rfl, [], by simp, by simp⟩

theorem upkeep_trans {a b c : Upsd} (first : Upkeep a b) (second : Upkeep b c) : Upkeep a c :=
  ⟨all_trans Tuned tuned_trans first.ups second.ups, second.clients.trans first.clients,
    second.nextId.trans first.nextId, second.users.trans first.users, linesAdded_trans first.lines second.lines⟩

theorem Quiet.upkeep {w w' : Upsd} (quiet : Quiet w w') : Upkeep w w' :=
  { quiet with ups := quiet.ups.imp fun _ _ => tuned_of_sameAccount, clients := quiet.clients ▸ .refl _ }

theorem upkeep_foldl {ι : Type} {step : Upsd -> ι -> Upsd} (each : ∀ w item, Upkeep w (step w item))
    (items : List ι) (w : Upsd) : Upkeep w (items.foldl step w) := by
  induction items generalizing w with
  | nil => exact upkeep_refl w
  | cons item rest ih => exact upkeep_trans (each w item) (ih (step w item))

theorem upkeep_iterate {step : Upsd -> Upsd} (each : ∀ w, Upkeep w (step w)) (count : Nat) (w : Upsd) :
    Upkeep w (step^[count] w) := by
  induction count generalizing w with
  | zero => exact upkeep_refl w
  | succ count ih =>
    rw [Function.iterate_succ_apply]
    exact upkeep_trans (each w) (ih (step w))

theorem upkeep_declogins (w : Upsd) (name : CString) : Upkeep w (declogins w name) := by
  refine ⟨modifyUps_all tuned_refl name ?_ _, .refl _, rfl, rfl, [], by simp [declogins, Upsd.updateUps],
    by simp⟩
  intro ups
  exact ⟨rfl, rfl, Int.sub_le_self _ (by decide)⟩

theorem upkeep_clientDisconnect (w : Upsd) (id : Nat) : Upkeep w (clientDisconnect w id) := by
  have drop (w : Upsd) : Upkeep w { w with firstclient := w.firstclient.filter fun other => other.id ≠ id } :=
    ⟨all_refl tuned_refl _, List.filter_sublist, rfl, rfl, [], by simp, by simp⟩
  unfold clientDisconnect
  split
  · exact upkeep_refl w
  · split
    · exact upkeep_trans (upkeep_declogins w _) (drop _)
    · exact drop w

theorem upkeep_disconnects (cond : Client -> Prop) [DecidablePred cond] (clients : List Client) (w : Upsd) :
    Upkeep w (clients.foldl (fun w client => if cond client then clientDisconnect w client.id else w) w) := by
  apply upkeep_foldl
  intro w client
  split
  · exact upkeep_clientDisconnect w client.id
  · exact upkeep_refl w

theorem upkeep_kickLoginClients (w : Upsd) (upsname : CString) : Upkeep w (kickLoginClients w upsname) :=
  upkeep_disconnects (fun client => client.loginups = some upsname) w.firstclient w

theorem upkeep_closeOldest (count : Nat) (w : Upsd) : Upkeep w (closeOldest count w) := by
  apply upkeep_iterate
  intro w
  unfold closeOldestClient
  split
  · exact upkeep_refl w
  · exact upkeep_clientDisconnect w _

theorem upkeep_scanClients (now : Int) (w : Upsd) : Upkeep w (scanClients now w) :=
  upkeep_disconnects (fun client => now - client.lastHeard > 60) w.firstclient w

def UpsFrom (old new : List Upstype) : Prop :=
  ∀ ups' ∈ new, (∃ ups ∈ old, Tuned ups ups') ∨
    ups'.fsd = false ∧ ups'.numlogins ≤ 0 ∧ ∀ ups ∈ old, ups.name ≠ ups'.name

theorem upsFrom_tuned {old new : List Upstype} (tuned : List.Forall₂ Tuned old new) : UpsFrom old new :=
  fun _ member => Or.inl (all_mem tuned member)

theorem upsFrom_trans {a b c : List Upstype} (first : UpsFrom a b) (second : UpsFrom b c)
    (named : ∀ ups ∈ a, ∃ ups' ∈ b, ups'.name = ups.name) : UpsFrom a c := by
  intro ups'' member
  obtain ⟨ups', inside, tuned⟩ | ⟨fsd, numlogins, fresh⟩ := second ups'' member
  · obtain ⟨ups, origin, tuned'⟩ | ⟨fsd, numlogins, fresh⟩ := first ups' inside
    · exact Or.inl ⟨ups, origin, tuned_trans tuned' tuned⟩
    · refine Or.inr ⟨tuned.2.1.trans fsd, Int.le_trans tuned.2.2 numlogins, ?_⟩
      rw [tuned.1]
      exact fresh
  · refine Or.inr ⟨fsd, numlogins, ?_⟩
    intro ups origin same
    obtain ⟨ups', inside, name⟩ := named ups origin
    exact fresh ups' inside (name.trans same)

theorem upsFrom_sub {a b c : List Upstype} (first : UpsFrom a b) (kept : ∀ ups ∈ c, ∃ ups' ∈ b, Tuned ups' ups) :
    UpsFrom a c := by
  intro ups'' member
  obtain ⟨ups', inside, tuned⟩ := kept ups'' member
  obtain ⟨ups, origin, tuned'⟩ | ⟨fsd, numlogins, fresh⟩ := first ups' inside
  · exact Or.inl ⟨ups, origin, tuned_trans tuned' tuned⟩
  · refine Or.inr ⟨tuned.2.1.trans fsd, Int.le_trans tuned.2.2 numlogins, ?_⟩
    rw [tuned.1]
    exact fresh

structure Maintained (w w' : Upsd) : Prop where
  ups : UpsFrom w.firstups w'.firstups
  clients : w'.firstclient.Sublist w.firstclient
  nextId : w'.nextId = w.nextId
  lines : ∃ added, w'.lines = w.lines ++ added ∧ ∀ line ∈ added, Housekeeping line.2

theorem Upkeep.maintained {w w' : Upsd} (upkeep : Upkeep w w') : Maintained w w' :=
  { upkeep with ups := upsFrom_tuned upkeep.ups }

section Maintained

variable {a b c : Upsd}

theorem maintained_trans (first : Maintained a b) (second : Maintained b c)
    (named : ∀ ups ∈ a.firstups, ∃ ups' ∈ b.firstups, ups'.name = ups.name) : Maintained a c :=
  ⟨upsFrom_trans first.ups second.ups named, second.clients.trans first.clients,
    second.nextId.trans first.nextId, linesAdded_trans first.lines second.lines⟩

-- Like `Maintained`, with no UPS added.
structure Shrunk (w w' : Upsd) : Prop where
  ups : ∀ ups' ∈ w'.firstups, ∃ ups ∈ w.firstups, Tuned ups ups'
  clients : w'.firstclient.Sublist w.firstclient
  nextId : w'.nextId = w.nextId
  lines : ∃ added, w'.lines = w.lines ++ added ∧ ∀ line ∈ added, Housekeeping line.2

theorem Upkeep.shrunk (upkeep : Upkeep a b) : Shrunk a b :=
  { upkeep with ups := fun _ member => all_mem upkeep.ups member }

theorem shrunk_trans (first : Shrunk a b) (second : Shrunk b c) : Shrunk a c := by
  refine ⟨fun ups'' member => ?_, second.clients.trans first.clients, second.nextId.trans first.nextId,
    linesAdded_trans first.lines second.lines⟩
  obtain ⟨ups', inside, tuned⟩ := second.ups ups'' member
  obtain ⟨ups, origin, tuned'⟩ := first.ups ups' inside
  exact ⟨ups, origin, tuned_trans tuned' tuned⟩

theorem maintained_shrunk (first : Maintained a b) (second : Shrunk b c) : Maintained a c :=
  ⟨upsFrom_sub first.ups second.ups, second.clients.trans first.clients,
    second.nextId.trans first.nextId, linesAdded_trans first.lines second.lines⟩

end Maintained

theorem maintained_upsCreate (now : Int) (up : CString -> Bool) (w : Upsd) (fn name : CString) (desc : Option CString) :
    Maintained w (upsCreate now up w fn name desc) ∧
      ∀ ups ∈ w.firstups, ∃ ups' ∈ (upsCreate now up w fn name desc).firstups, ups'.name = ups.name := by
  unfold upsCreate
  split
  next => exact ⟨(upkeep_refl w).maintained, fun ups member => ⟨ups, member, rfl⟩⟩
  next free =>
      dsimp only
      generalize blank : ({
        name, fn, desc, connected := false, stale := true, dumpdone := false, dataOk := false,
        lastHeard := 0, lastPing := 0, sockCtx := pconfInit, inforoot := .nil, cmdlist := [],
        numlogins := 0, fsd := false, retain := true } : Upstype) = temp
      obtain ⟨wrote, account, same⟩ := quiet_connectDriver now (up name) w temp
      have unknown : ∀ ups ∈ w.firstups, strcasecmp ups.name name ≠ .eq := by
        simpa using free
      refine ⟨⟨?_, wrote.upkeep.clients, wrote.nextId, wrote.lines⟩, ?_⟩
      · intro ups' member
        simp only [List.mem_cons, same] at member
        obtain rfl | inside := member
        · subst blank
          refine Or.inr ⟨account.2.1, Int.le_of_eq account.2.2, ?_⟩
          intro ups member equal
          apply unknown ups member
          rw [equal, show (_ : Upstype).name = name from account.1]
          exact strcasecmp_self name
        · exact Or.inl ⟨ups', inside, tuned_refl ups'⟩
      · intro ups member
        exact ⟨ups, by simp [same, member], rfl⟩

theorem maintained_upsconfAdd (now : Int) (up : CString -> Bool) (reloading : Bool)
    (upstable : List UpsEntry) (w : Upsd) : Maintained w (upsconfAdd now up reloading upstable w) ∧
      ∀ ups ∈ w.firstups, ∃ ups' ∈ (upsconfAdd now up reloading upstable w).firstups, ups'.name = ups.name := by
  have entry (w : Upsd) (entry : UpsEntry) : Maintained w (upsconfAddEntry now up reloading w entry) ∧
        ∀ ups ∈ w.firstups, ∃ ups' ∈ (upsconfAddEntry now up reloading w entry).firstups, ups'.name = ups.name := by
    have stay {w' : Upsd} (upkeep : Upkeep w w') :
        Maintained w w' ∧ ∀ ups ∈ w.firstups, ∃ ups' ∈ w'.firstups, ups'.name = ups.name := by
      refine ⟨upkeep.maintained, fun ups member => ?_⟩
      obtain ⟨ups', inside, tuned⟩ := all_mem upkeep.ups.flip member
      exact ⟨ups', inside, tuned.1⟩
    unfold upsconfAddEntry
    split
    · dsimp only
      split
      · exact stay (quiet_upsUpdate w _ _ _).upkeep
      · exact maintained_upsCreate now up w _ _ _
    · exact stay (upkeep_refl w)
  unfold upsconfAdd
  induction upstable generalizing w with
  | nil => exact ⟨(upkeep_refl w).maintained, fun ups member => ⟨ups, member, rfl⟩⟩
  | cons item rest ih =>
    obtain ⟨added, named⟩ := entry w item
    obtain ⟨later, named'⟩ := ih (upsconfAddEntry now up reloading w item)
    refine ⟨maintained_trans added later named, fun ups member => ?_⟩
    obtain ⟨ups', inside, name⟩ := named ups member
    obtain ⟨ups'', inside', name'⟩ := named' ups' inside
    exact ⟨ups'', inside', name'.trans name⟩

theorem shrunk_deleteUps (w : Upsd) (name : CString) : Shrunk w (deleteUps w name) := by
  have kicked := upkeep_kickLoginClients w name
  refine { kicked with ups := fun ups' member => ?_ }
  exact all_mem kicked.ups (List.mem_filter.mp member).1

theorem shrunk_dropUnretained (w : Upsd) : Shrunk w (dropUnretained w) := by
  have each (items : List Upstype) (w : Upsd) :
      Shrunk w (items.foldl (fun w ups => if ups.retain then w else deleteUps w ups.name) w) := by
    induction items generalizing w with
    | nil => exact (upkeep_refl w).shrunk
    | cons ups rest ih =>
      rw [List.foldl_cons]
      split
      · exact ih w
      · exact shrunk_trans (shrunk_deleteUps w ups.name) (ih _)
  exact each w.firstups w

theorem upkeep_loadUpsdconf (r : Reload) (w : Upsd) : Upkeep w (loadUpsdconf r w) := by
  have closed := upkeep_closeOldest r.upsdConfAgain.emfile w
  unfold loadUpsdconf
  split
  · exact { closed with }
  · exact closed

theorem maintained_rereadConf (now : Int) (up : CString -> Bool) (r : Reload) (w : Upsd) :
    Maintained w (rereadConf now up r w) := by
  have before := upkeep_trans (quiet_clearRetain w).upkeep (upkeep_closeOldest r.upsConfEmfile.toNat _)
  have named : ∀ ups ∈ w.firstups, ∃ ups' ∈ (closeOldest r.upsConfEmfile.toNat (clearRetain w)).firstups,
      ups'.name = ups.name := by
    intro ups member
    obtain ⟨ups', inside, tuned⟩ := all_mem before.ups.flip member
    exact ⟨ups', inside, tuned.1⟩
  have added := (maintained_upsconfAdd now up true (r.settings.foldl doUpsconfArgs [])
    (closeOldest r.upsConfEmfile.toNat (clearRetain w))).1
  exact maintained_shrunk (maintained_trans before.maintained added named)
    (shrunk_trans (upkeep_loadUpsdconf r _).shrunk (shrunk_dropUnretained _))

theorem maintained_confReload (now : Int) (up : CString -> Bool) (r : Reload) (w : Upsd) :
    Maintained w (confReload now up r w) := by
  have checked (opening : Opening) (w : Upsd) : Upkeep w (checkFile opening w).1 := upkeep_closeOldest _ w
  have first := checked r.upsdConf w
  unfold confReload
  split
  next stopped => rw [stopped] at first; exact first.maintained
  next w' ready =>
      rw [ready] at first
      have named : ∀ ups ∈ w.firstups, ∃ ups' ∈ w'.firstups, ups'.name = ups.name := by
        intro ups member
        obtain ⟨ups', inside, tuned⟩ := all_mem first.ups.flip member
        exact ⟨ups', inside, tuned.1⟩
      have last := maintained_shrunk (maintained_trans first.maintained (maintained_rereadConf now up r w') named)
        (checked r.upsdUsers _).shrunk
      split
      next stopped => rw [stopped] at last; exact last
      next ready =>
          rw [ready] at last
          exact { last with }

end Nut
