import Nut.Server.Listing
import Nut.Server.Logins

set_option autoImplicit false

namespace Nut

def Listed (w : Upsd) (name : CString) : Prop :=
  ∃ ups ∈ w.firstups, ups.name = name

instance (w : Upsd) (name : CString) : Decidable (Listed w name) :=
  inferInstanceAs (Decidable (∃ ups ∈ w.firstups, ups.name = name))

def Raised (w : Upsd) (name : CString) : Prop :=
  ∃ ups ∈ w.firstups, ups.name = name ∧ ups.fsd = true

section Latch

variable {w w' : Upsd} {name : CString}

def FsdKept (old new : List Upstype) : Prop :=
  ∀ ups' ∈ new, (∃ ups ∈ old, ups.name = ups'.name ∧ (ups.fsd = true -> ups'.fsd = true)) ∨
    ∀ ups ∈ old, ups.name ≠ ups'.name

theorem fsdKept_refl (list : List Upstype) : FsdKept list list :=
  fun ups member => .inl ⟨ups, member, rfl, id⟩

theorem fsdKept_modifyUps (name : CString) {change : Upstype -> Upstype}
    (kept : ∀ ups, (change ups).name = ups.name ∧ (ups.fsd = true -> (change ups).fsd = true)) (list : List Upstype) :
    FsdKept list (modifyUps name change list) := by
  intro ups' member
  obtain same | ⟨ups, inside, rfl⟩ := modifyUps_mem member
  · exact .inl ⟨ups', same, rfl, id⟩
  · exact .inl ⟨ups, inside, (kept ups).1.symm, (kept ups).2⟩

theorem fsdKept_maintained (kept : Maintained w w') : FsdKept w.firstups w'.firstups := by
  intro ups' member
  obtain ⟨ups, inside, name, fsd, -⟩ | ⟨-, -, fresh⟩ := kept.ups ups' member
  · exact .inl ⟨ups, inside, name.symm, fun up => fsd.trans up⟩
  · exact .inr fresh

theorem fsdKept_effect {client : Client} {arglist : List CString} (effect : Effect w client arglist w') :
    FsdKept w.firstups w'.firstups := by
  cases effect with
  | login ups =>
    apply fsdKept_modifyUps
    exact fun _ => ⟨rfl, id⟩
  | fsd ups =>
    apply fsdKept_modifyUps
    exact fun _ => ⟨rfl, fun _ => rfl⟩
  | relayed ups line randoms trackingList =>
    obtain ⟨firstups, _, _, sent, same | changed, _⟩ := sstateSendline_fst { w with randoms, trackingList } ups line
    · rw [sent, same]
      exact fsdKept_refl _
    · rw [sent, changed]
      refine fsdKept_modifyUps ups.name (fun ups => ?_) _
      unfold sstateDisconnect
      split <;> exact ⟨rfl, id⟩
  | _ => exact fsdKept_refl _

theorem fsdKept_perform (w : Upsd) (act : Action) : FsdKept w.firstups (perform w act).firstups := by
  have internal {act : Action} (internal : act.Internal) : FsdKept w.firstups (perform w act).firstups :=
    fsdKept_maintained (maintained_perform internal w)
  cases act with
  | command id now arglist =>
    obtain ⟨_, same⟩ | ⟨client, between, found, effect, answers⟩ := serveLine_cases now id w arglist
    · rw [perform, same]
      exact fsdKept_refl _
    · have kept := fsdKept_effect effect
      obtain ⟨_, _, _, _, equal, _⟩ := answers
      rw [perform, equal]
      exact kept
  | parsed id ctx => exact fsdKept_refl _
  | connect now addr => exact fsdKept_refl _
  | _ => exact internal trivial

theorem raised_perform (act : Action) (names : DistinctNames w.firstups) (raised : Raised w name)
    (listed : Listed (perform w act) name) : Raised (perform w act) name := by
  obtain ⟨ups, member, rfl, up⟩ := raised
  obtain ⟨ups', member', same⟩ := listed
  obtain ⟨old, inside, oldName, kept⟩ | fresh := fsdKept_perform w act ups' member'
  · -- No other UPS has this name.
    have only : old = ups := List.inj_on_of_nodup_map names inside member (by rw [oldName, same])
    exact ⟨ups', member', same, kept (only ▸ up)⟩
  · exact absurd same.symm (fresh ups member)

theorem raised_run {actions : List Action} (accounted : Accounted w) (raised : Raised w name)
    (listed : Always perform (EachAction fun w act => Listed (perform w act) name) w actions) :
    Accounted (actions.foldl perform w) ∧ Raised (actions.foldl perform w) name := by
  induction actions generalizing w with
  | nil => exact ⟨accounted, raised⟩
  | cons act rest ih => exact ih (accounted_perform w act accounted) (raised_perform act accounted.names raised listed.1) listed.2

end Latch

section Shown

variable {w : Upsd} {name upsname : CString} {ups : Upstype}

theorem find_listed {list : List Upstype} (names : DistinctNames list) (member : ups ∈ list)
    (asked : strcasecmp ups.name upsname = .eq) : list.find? (fun tmp => strcasecmp tmp.name upsname == .eq) = some ups := by
  induction list with
  | nil => cases member
  | cons first rest ih =>
    simp only [DistinctNames, List.map_cons, List.nodup_cons] at names
    by_cases here : strcasecmp first.name upsname = .eq
    · obtain rfl | inside := List.mem_cons.mp member
      · simp [here]
      · -- The first one would have the same name.
        have same : foldCase first.name = foldCase ups.name :=
          ((strcasecmp_eq_iff _ _).mp here).trans ((strcasecmp_eq_iff _ _).mp asked).symm
        exact absurd (same ▸ List.mem_map_of_mem inside) names.1
    · obtain rfl | inside := List.mem_cons.mp member
      · exact absurd asked here
      · simpa [here] using ih names.2 inside

theorem find_modifyUps {list : List Upstype} (found : list.find? (fun tmp => strcasecmp tmp.name upsname == .eq) = some ups)
    {change : Upstype -> Upstype} (same : (change ups).name = ups.name) :
    (modifyUps upsname change list).find? (fun tmp => strcasecmp tmp.name upsname == .eq) = some (change ups) := by
  induction list with
  | nil => simp at found
  | cons first rest ih =>
    by_cases hit : strcasecmp first.name upsname = .eq
    · obtain rfl : first = ups := by simpa [hit] using found
      simp [modifyUps, hit, same]
    · simpa [modifyUps, hit] using ih (by simpa [hit] using found)

theorem getUpsPtr_updateUps (found : getUpsPtr w upsname = some ups) {change : Upstype -> Upstype}
    (same : (change ups).name = ups.name) : getUpsPtr (w.updateUps upsname change) upsname = some (change ups) :=
  find_modifyUps found same

def ShowsFsd (reply : Reply) : Prop :=
  ∀ upsname var val, reply = .value "VAR" upsname var val -> isCommand var "ups.status" = false

theorem delivered_mem {id : Nat} {writes : List Bool} {lines : List Reply} {entry : Nat × Reply × Bool}
    (member : entry ∈ delivered id writes lines) : entry.2.1 ∈ lines := by
  induction lines generalizing writes with
  | nil => cases member
  | cons reply rest ih =>
    rw [delivered] at member
    split at member
    · obtain rfl | later := List.mem_cons.mp member
      · exact List.mem_cons_self
      · exact List.mem_cons_of_mem _ (ih later)
    · obtain rfl := List.mem_singleton.mp member
      exact List.mem_cons_self

theorem shows_err (errtype : String) : ShowsFsd (.err errtype) := by
  simp [ShowsFsd]

def Sends (w : Upsd) (id : Nat) (after : Upsd) : Prop :=
  ∃ lines, after = (sendAll w id lines).1 ∧ ∀ line ∈ lines, ShowsFsd line

theorem sends_reply {id : Nat} {reply : Reply} (shows : ShowsFsd reply) : Sends w id (w.reply id reply) :=
  ⟨[reply], (sendAll_single w id reply).symm, by simpa using shows⟩

theorem sends_available {id : Nat} {after : Upsd} (sends : Sends w id after) : Sends w id (ifAvailable w id ups after) := by
  unfold ifAvailable
  split_ifs
  · exact sends_reply (shows_err _)
  · exact sends_reply (shows_err _)
  · exact sends

theorem sends_getVar (known : getUpsPtr w upsname = some ups) (up : ups.fsd = true) (client : Client) {kind : CString}
    (isVar : isCommand kind "VAR" = true) (var : CString) (rest : List CString) :
    Sends w client.id (netGet w client (kind :: upsname :: var :: rest)) := by
  have notTracking : isCommand kind "TRACKING" = false := isCommand_other isVar (by decide)
  have notNumlogins : isCommand kind "NUMLOGINS" = false := isCommand_other isVar (by decide)
  have notUpsdesc : isCommand kind "UPSDESC" = false := isCommand_other isVar (by decide)
  simp only [netGet, notTracking, notNumlogins, notUpsdesc, isVar, Bool.false_eq_true, if_false, if_true, getVar]
  split
  next server =>
    unfold getVarServer
    split_ifs <;> exact sends_reply (by simp [ShowsFsd])
  next own =>
    rw [withUps, known]
    refine sends_available ?_
    cases stateGetinfo ups.inforoot var with
    | none => exact sends_reply (shows_err _)
    | some val =>
      by_cases status : isCommand var "ups.status" = true
      · simpa [status, up] using sends_reply (by simp [ShowsFsd])
      · simpa [status] using sends_reply (show ShowsFsd (.value "VAR" upsname var val) by simpa [ShowsFsd] using status)

theorem sends_listVar (known : getUpsPtr w upsname = some ups) (up : ups.fsd = true) (client : Client) {kind : CString}
    (isVar : isCommand kind "VAR" = true) (rest : List CString) :
    Sends w client.id (netList w client (kind :: upsname :: rest)) := by
  have notUps : isCommand kind "UPS" = false := isCommand_other isVar (by decide)
  simp only [netList, notUps, isVar, Bool.false_eq_true, if_false, if_true, listVar]
  rw [withUps, known]
  refine sends_available ?_
  rw [funext (treeDump_eq client.id upsname false ups.fsd ups.inforoot), dumpNode_var]
  refine ⟨_, sendList_eq w client "VAR" [upsname] _, ?_⟩
  intro line member
  simp only [List.mem_append, List.mem_cons, List.mem_map, List.not_mem_nil, or_false] at member
  obtain (rfl | ⟨node, -, rfl⟩) | rfl := member
  · simp [ShowsFsd]
  · by_cases status : isCommand node.var "ups.status" = true <;> simp [ShowsFsd, varLine, status, up]
  · simp [ShowsFsd]

theorem replies_reply {between : Upsd} (same : between.replies = w.replies) (id : Nat) (reply : Reply) :
    (between.reply id reply).replies.drop w.replies.length = [(id, reply, between.nextWrite)] := by
  unfold Upsd.reply sendback
  cases between.nextWrite <;> simp [Upsd.updateClient, same]

theorem reply_firstups (w : Upsd) (id : Nat) (reply : Reply) : (w.reply id reply).firstups = w.firstups := by
  unfold Upsd.reply sendback
  cases w.nextWrite <;> rfl

theorem getUpsPtr_name (known : getUpsPtr w upsname = some ups) : getUpsPtr w ups.name = some ups := by
  have asked : strcasecmp ups.name upsname = .eq := by simpa using List.find?_some known
  have folded := (strcasecmp_eq_iff _ _).mp asked
  have same : (fun tmp : Upstype => strcasecmp tmp.name ups.name == .eq) = fun tmp => strcasecmp tmp.name upsname == .eq := by
    funext tmp
    rw [Bool.eq_iff_iff]
    simp [strcasecmp_eq_iff, folded]
  rw [getUpsPtr, same]
  exact known

theorem fsd_answered {client : Client} (found : w.findClient client.id = some client) {arg0 : CString}
    (fsd : isCommand arg0 "FSD" = true) {now : Int} {entry : Nat × Reply × Bool}
    (member : entry ∈ repliesTo w (.command client.id now [arg0, upsname])) (okay : entry.2.1 = .line (cstr "OK FSD-SET\n"))
    (known : getUpsPtr w upsname = some ups) : Raised (perform w (.command client.id now [arg0, upsname])) ups.name := by
  have table : (netcmds.find? fun cmd => isCommand (cstr "FSD") cmd.name) = some ⟨"FSD", fun _ => netFsd, true⟩ := rfl
  -- What the client hears is the one reply that is sent.
  have said {between : Upsd} (same : between.replies = w.replies) {reply : Reply}
      (served : serveLine now client.id w [arg0, upsname] = between.reply client.id reply) : reply = .line (cstr "OK FSD-SET\n") := by
    rw [repliesTo, perform, served, replies_reply same] at member
    obtain rfl := List.mem_singleton.mp member
    exact okay
  have served := serveLine_found now found [arg0, upsname]
  rw [parseNet_find now _ _ fsd table, checkCommand] at served
  simp only [if_true] at served
  split at served
  next => cases said (by rfl) served
  next => cases said (by rfl) served
  next =>
    split_ifs at served
    · cases said (by rfl) served
    · have heard : getUpsPtr (w.updateClient client.id (Client.hear now)) upsname = some ups := known
      simp only [netFsd, withUps, heard] at served
      split_ifs at served
      · have raised := @getUpsPtr_updateUps _ _ _ (getUpsPtr_name known) (fun ups => { ups with fsd := true }) rfl
        refine ⟨{ ups with fsd := true }, ?_, rfl, rfl⟩
        rw [perform, served, reply_firstups]
        exact List.mem_of_find?_eq_some raised
      · cases said (by rfl) served

end Shown

theorem accounted_blank {blank : Upsd} (noUpses : blank.firstups = []) (noClients : blank.firstclient = []) : Accounted blank := by
  refine ⟨by simp [ClientIds, noClients], by simp [DistinctNames, noUpses], ?_⟩
  constructor <;> simp [Upsd.tally, noUpses, noClients]

-- Once upsd has answered `OK FSD-SET`, nothing takes the forced shutdown back while the UPS is configured:
-- whoever asks for the status of the UPS is told of it, in GET VAR and in LIST VAR.
theorem fsd_stays {blank start w v : Upsd} (noUpses : blank.firstups = []) (noClients : blank.firstclient = []) {boot : Int}
    {up : CString -> Bool} {settings : List (Option CString × CString × Option CString)}
    (loaded : start = upsconfAdd boot up false (settings.foldl doUpsconfArgs []) blank) {earlier later : List Action}
    (reached : w = earlier.foldl perform start) {primary : Client} (connected : w.findClient primary.id = some primary)
    {upsname : CString} {ups : Upstype} (known : getUpsPtr w upsname = some ups) {arg0 : CString} (fsd : isCommand arg0 "FSD" = true)
    {now : Int} {entry : Nat × Reply × Bool} (answer : entry ∈ repliesTo w (.command primary.id now [arg0, upsname]))
    (okay : entry.2.1 = .line (cstr "OK FSD-SET\n"))
    (listed : Always perform (EachAction fun w act => Listed (perform w act) ups.name)
      (perform w (.command primary.id now [arg0, upsname])) later)
    (going : v = later.foldl perform (perform w (.command primary.id now [arg0, upsname]))) : Raised v ups.name ∧
      ∀ client, v.findClient client.id = some client -> ∀ asked, strcasecmp ups.name asked = .eq -> ∀ now arglist,
        (Asks arglist "LIST" "VAR" [asked] ∨ ∃ var, Asks arglist "GET" "VAR" [asked, var]) ->
          ∀ entry ∈ repliesTo v (.command client.id now arglist), ShowsFsd entry.2.1 := by
  have started : Accounted w := by
    rw [reached, loaded]
    exact invariant_foldl accounted_perform (accounted_upsconfAdd boot up false _ (accounted_blank noUpses noClients)) earlier
  have accounted := accounted_perform w (.command primary.id now [arg0, upsname]) started
  obtain ⟨accounted', raised⟩ := raised_run accounted (fsd_answered connected fsd answer okay known) listed
  rw [<- going] at accounted' raised
  refine ⟨raised, ?_⟩
  intro client found asked same now arglist asks entry member
  obtain ⟨ups', inside, name, up⟩ := raised
  have known' : getUpsPtr (v.updateClient client.id (Client.hear now)) asked = some ups' :=
    find_listed accounted'.names inside (name ▸ same)
  rcases asks with ⟨arg0, kind, rest, rfl, list, isVar⟩ | ⟨var, arg0, kind, rest, rfl, get, isVar⟩
  · obtain ⟨lines, served, shows⟩ := sends_listVar known' up (client.hear now) isVar rest
    have replies := repliesTo_list found list served
    exact shows _ (delivered_mem (replies ▸ member))
  · obtain ⟨lines, served, shows⟩ := sends_getVar known' up (client.hear now) isVar var rest
    have replies := repliesTo_get found get served
    exact shows _ (delivered_mem (replies ▸ member))

def fsdEarlier : List Action :=
  [.driver (cstr "ups") (.read 1001 (cstr "SETINFO ups.status OL\nDATAOK\n")), .connect 1002 (cstr "::1"),
    .command 0 1003 [cstr "USERNAME", cstr "admin"], .command 0 1003 [cstr "PASSWORD", cstr "x"]]

def fsdLater : List Action :=
  [.driver (cstr "ups") (.read 1005 (cstr "SETINFO ups.status OB\n")), .disconnect 0, .connect 1006 (cstr "::1")]

def fsdUpsd : Upsd :=
  fsdEarlier.foldl perform listedStart

def fsdPrimary : Client :=
  (fsdUpsd.findClient 0).get (by decide +kernel)

def fsdUps : Upstype :=
  (getUpsPtr fsdUpsd (cstr "ups")).get (by decide +kernel)

theorem fsd_stays_sample :
    let v := fsdLater.foldl perform (perform fsdUpsd (.command fsdPrimary.id 1004 [cstr "FSD", cstr "ups"]))
    (Raised v fsdUps.name ∧
      ∀ client, v.findClient client.id = some client -> ∀ asked, strcasecmp fsdUps.name asked = .eq -> ∀ now arglist,
        (Asks arglist "LIST" "VAR" [asked] ∨ ∃ var, Asks arglist "GET" "VAR" [asked, var]) ->
          ∀ entry ∈ repliesTo v (.command client.id now arglist), ShowsFsd entry.2.1) ∧
      repliesTo v (.command 1 1007 [cstr "GET", cstr "VAR", cstr "UPS", cstr "ups.status"]) =
        [(1, .valueFsd (cstr "UPS") (cstr "ups.status") (cstr "OB"), true)] := by
  have connected : fsdUpsd.findClient fsdPrimary.id = some fsdPrimary := by decide +kernel
  have known : getUpsPtr fsdUpsd (cstr "ups") = some fsdUps := (Option.some_get _).symm
  have answer : ((fsdPrimary.id, .line (cstr "OK FSD-SET\n"), true) : Nat × Reply × Bool) ∈
      repliesTo fsdUpsd (.command fsdPrimary.id 1004 [cstr "FSD", cstr "ups"]) := by decide +kernel
  have stays := @fsd_stays listedBlank listedStart fsdUpsd _ rfl rfl 1000 (fun _ => true) listedSettings rfl fsdEarlier fsdLater rfl
    fsdPrimary connected (cstr "ups") fsdUps known (cstr "FSD") (by decide) 1004 _ answer rfl (by decide +kernel) rfl
  exact ⟨stays, by decide +kernel⟩

end Nut
