import Nut.Server.Authorisation

set_option autoImplicit false

namespace Nut

def AllTrees (J : StTree -> Prop) (w : Upsd) : Prop :=
  ∀ ups ∈ w.firstups, J ups.inforoot

section Trees

variable {J : StTree -> Prop} {w w' : Upsd}

theorem allTrees_same (trees : AllTrees J w) (same : w'.firstups = w.firstups) : AllTrees J w' := by
  rw [AllTrees, same]
  exact trees

theorem allTrees_updateUps (trees : AllTrees J w) (name : CString) {change : Upstype -> Upstype}
    (keeps : ∀ ups, J ups.inforoot -> J (change ups).inforoot) : AllTrees J (w.updateUps name change) := by
  have each (list : List Upstype) (trees : ∀ ups ∈ list, J ups.inforoot) :
      ∀ ups ∈ modifyUps name change list, J ups.inforoot := by
    induction list with
    | nil => exact trees
    | cons ups rest ih =>
      have here := trees ups List.mem_cons_self
      have others := fun other member => trees other (List.mem_cons_of_mem ups member)
      rw [modifyUps]
      split
      · exact List.forall_mem_cons.mpr ⟨keeps ups here, others⟩
      · exact List.forall_mem_cons.mpr ⟨here, ih others⟩
  exact each w.firstups trees

theorem allTrees_found (trees : AllTrees J w) {name : CString} {ups : Upstype} (found : getUpsPtr w name = some ups) :
    J ups.inforoot := trees ups (List.mem_of_find?_eq_some found)

theorem allTrees_clientDisconnect (w : Upsd) (id : Nat) (trees : AllTrees J w) : AllTrees J (clientDisconnect w id) := by
  unfold clientDisconnect
  split
  · exact trees
  · dsimp only
    split
    · exact allTrees_updateUps trees _ fun _ tree => tree
    · exact trees

theorem allTrees_disconnects (cond : Client -> Prop) [DecidablePred cond] (clients : List Client)
    (trees : AllTrees J w) :
    AllTrees J (clients.foldl (fun w client => if cond client then clientDisconnect w client.id else w) w) := by
  refine invariant_foldl (fun w client trees => ?_) trees clients
  split
  · exact allTrees_clientDisconnect w client.id trees
  · exact trees

theorem allTrees_closeOldest (count : Nat) (trees : AllTrees J w) : AllTrees J (closeOldest count w) := by
  unfold closeOldest
  induction count generalizing w with
  | zero => exact trees
  | succ count ih =>
    rw [Function.iterate_succ_apply]
    apply ih
    unfold closeOldestClient
    split
    · exact trees
    · exact allTrees_clientDisconnect w _ trees

theorem tree_sstateDisconnect {ups : Upstype} (empty : J .nil) (tree : J ups.inforoot) :
    J (sstateDisconnect ups).inforoot := by
  unfold sstateDisconnect
  split
  · exact empty
  · exact tree

theorem allTrees_sstateSendline (empty : J .nil) (ups : Upstype) (line : CString) (trees : AllTrees J w) :
    AllTrees J (sstateSendline w ups line).1 := by
  obtain ⟨_, _, _, sent, same | same, _⟩ := sstateSendline_fst w ups line
  · rw [sent]
    exact allTrees_same trees same
  · rw [sent]
    exact allTrees_same (allTrees_updateUps trees ups.name fun _ => tree_sstateDisconnect empty) same

theorem allTrees_serveLine (empty : J .nil) (now : Int) (id : Nat) (arglist : List CString) (trees : AllTrees J w) :
    AllTrees J (serveLine now id w arglist) := by
  obtain ⟨_, same⟩ | ⟨client, between, _, effect, answers⟩ := serveLine_cases now id w arglist
  · rw [same]
    exact trees
  · obtain ⟨_, _, _, _, answered, _⟩ := answers
    have heard : AllTrees J (w.updateClient id (Client.hear now)) := trees
    have served : AllTrees J between := by
      cases effect with
      | none => exact heard
      | username => exact heard
      | password => exact heard
      | login => exact allTrees_updateUps heard _ fun _ tree => tree
      | fsd => exact allTrees_updateUps heard _ fun _ tree => tree
      | tracking => exact heard
      | relayed ups line randoms trackingList =>
        have drawn : AllTrees J { w.updateClient id (Client.hear now) with randoms, trackingList } := heard
        exact allTrees_sstateSendline empty ups line drawn
    rw [answered]
    exact served

end Trees

structure TreeInvariant (J : StTree -> Prop) : Prop where
  empty : J .nil
  apply : ∀ (op : StateOp) (now : Int) (t : StTree), J t -> J (op.apply now t).1

section Invariant

variable {J : StTree -> Prop} {w : Upsd} (inv : TreeInvariant J)

include inv

theorem tree_connectDriver (now : Int) (up : Bool) {ups : Upstype} (tree : J ups.inforoot) :
    J (w.connectDriver now up ups).2.inforoot := by
  unfold Upsd.connectDriver
  split
  · dsimp only
    split
    · exact inv.apply (.setinfo (cstr "ups.status") (cstr "WAIT")) now _ tree
    · exact tree
  · exact tree

theorem allTrees_sendping (now : Int) (ups : Upstype) (trees : AllTrees J w) : AllTrees J (sendping now w ups) := by
  have sent := allTrees_sstateSendline inv.empty ups (cstr "PING\n") trees
  unfold sendping
  split
  next failed =>
    rw [failed] at sent
    exact sent
  next done =>
    rw [done] at sent
    exact allTrees_updateUps sent _ fun _ tree => tree

theorem allTrees_sstateDead (now : Int) (ups : Upstype) (trees : AllTrees J w) :
    AllTrees J (sstateDead now w ups).1 := by
  unfold sstateDead
  split
  · exact trees
  · dsimp only
    split
    · exact allTrees_sendping inv now ups trees
    · exact trees

theorem allTrees_scanDriver (now : Int) (up : CString -> Bool) (name : CString) (trees : AllTrees J w) :
    AllTrees J (scanDriver now up w name) := by
  have judged {w : Upsd} (ups : Upstype) (trees : AllTrees J w) :
      AllTrees J ((sstateDead now w ups).1.updateUps name fun ups' => { ups' with stale := (sstateDead now w ups).2 }) :=
    allTrees_updateUps (allTrees_sstateDead inv now ups trees) name fun _ tree => tree
  unfold scanDriver
  split
  next => exact trees
  next ups found =>
    by_cases open_ : ups.connected = true
    · simp only [open_, if_true, Bool.not_true, Bool.false_eq_true, if_false]
      exact judged ups trees
    · have connected : AllTrees J ((w.connectDriver now (up name) ups).1.updateUps name fun _ =>
          (w.connectDriver now (up name) ups).2) :=
        allTrees_updateUps (allTrees_same trees (quiet_connectDriver now (up name) w ups).2.2) name fun _ _ =>
          tree_connectDriver inv now (up name) (allTrees_found trees found)
      simp only [open_, Bool.false_eq_true, if_false]
      split
      · exact connected
      · exact judged _ connected

theorem tree_sstateReadline (now : Int) {ups : Upstype} (tracking : TrackingList) (buf : CString)
    (tree : J ups.inforoot) : J (sstateReadline now ups tracking buf).1.inforoot := by
  have line (s : Upstype × TrackingList) (arg : List CString) (tree : J s.1.inforoot) :
      J (sstateLine now s arg).1.inforoot := by
    obtain ⟨_, _, _, effect, same⟩ := sstateLine_cases now s arg
    rw [same]
    cases effect with
    | data => exact tree
    | commands => exact tree
    | tree op => exact inv.apply op now _ tree
    | status => exact tree
  simp only [sstateReadline, readChars_eq]
  exact @invariant_foldl _ _ (sstateLine now) (fun s => J s.1.inforoot) line (ups, tracking) tree _

theorem allTrees_serveDriver (name : CString) (event : DriverEvent) (trees : AllTrees J w) :
    AllTrees J (serveDriver w name event) := by
  cases event with
  | quiet => exact trees
  | hangup => exact allTrees_updateUps trees name fun _ => tree_sstateDisconnect inv.empty
  | read now buf =>
    simp only [serveDriver]
    split
    next => exact trees
    next ups found =>
      split
      · exact trees
      · have read : AllTrees J (w.updateUps name fun _ => (sstateReadline now ups w.trackingList buf).1) :=
          allTrees_updateUps trees name fun _ _ => tree_sstateReadline inv now _ buf (allTrees_found trees found)
        exact read

theorem allTrees_upsconfAdd (now : Int) (up : CString -> Bool) (reloading : Bool) (upstable : List UpsEntry)
    (trees : AllTrees J w) : AllTrees J (upsconfAdd now up reloading upstable w) := by
  refine invariant_foldl (fun w entry trees => ?_) trees upstable
  unfold upsconfAddEntry
  split
  · dsimp only
    split
    · refine allTrees_updateUps trees _ fun ups tree => ?_
      dsimp only
      split
      · exact inv.empty
      · exact tree
    · unfold upsCreate
      split
      · exact trees
      · dsimp only
        refine List.forall_mem_cons.mpr ⟨tree_connectDriver inv now _ inv.empty, ?_⟩
        exact allTrees_same trees (quiet_connectDriver now _ w _).2.2
  · exact trees

theorem allTrees_rereadConf (now : Int) (up : CString -> Bool) (r : Reload) (trees : AllTrees J w) :
    AllTrees J (rereadConf now up r w) := by
  have cleared : AllTrees J (clearRetain w) := by
    intro ups' member
    obtain ⟨ups, inside, rfl⟩ := List.mem_map.mp member
    exact trees ups inside
  have added := allTrees_upsconfAdd inv now up true (r.settings.foldl doUpsconfArgs [])
    (allTrees_closeOldest r.upsConfEmfile.toNat cleared)
  have loaded {w : Upsd} (trees : AllTrees J w) : AllTrees J (loadUpsdconf r w) := by
    have closed := allTrees_closeOldest r.upsdConfAgain.emfile trees
    unfold loadUpsdconf
    dsimp only
    split <;> exact closed
  refine invariant_foldl (fun w ups trees => ?_) (loaded added) _
  split
  · exact trees
  · have kicked := allTrees_disconnects (fun client => client.loginups = some ups.name) w.firstclient trees
    exact fun other member => kicked other (List.mem_filter.mp member).1

theorem allTrees_confReload (now : Int) (up : CString -> Bool) (r : Reload) (trees : AllTrees J w) :
    AllTrees J (confReload now up r w) := by
  have first : AllTrees J (checkFile r.upsdConf w).1 := allTrees_closeOldest _ trees
  unfold confReload
  split
  next stopped =>
    rw [stopped] at first
    exact first
  next w' ready =>
    rw [ready] at first
    have last : AllTrees J (checkFile r.upsdUsers (rereadConf now up r w')).1 :=
      allTrees_closeOldest _ (allTrees_rereadConf inv now up r first)
    split
    next stopped =>
      rw [stopped] at last
      exact last
    next opened =>
      rw [opened] at last
      exact last

theorem allTrees_perform (w : Upsd) (act : Action) (trees : AllTrees J w) : AllTrees J (perform w act) := by
  cases act with
  | reload now up r => exact allTrees_confReload inv now up r trees
  | trackingCleanup now => exact trees
  | scanDriver now up name => exact allTrees_scanDriver inv now up name trees
  | scanClients now => exact allTrees_disconnects (fun client => now - client.lastHeard > 60) w.firstclient trees
  | driver name event => exact allTrees_serveDriver inv name event trees
  | disconnect id => exact allTrees_clientDisconnect w id trees
  | command id now arglist => exact allTrees_serveLine inv.empty now id arglist trees
  | parsed id ctx => exact trees
  | connect now addr => exact trees

end Invariant

theorem treeInvariant_ordered : TreeInvariant Ordered := ⟨trivial, fun op now _ ordered => op.ordered_apply now ordered⟩

end Nut
