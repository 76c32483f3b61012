import Nut.Server.Authorisation

set_option autoImplicit false

namespace Nut

-- What `tracking_disable` returns: it only looks whether a client still tracks.
def trackingDisable (w : Upsd) : Bool :=
  w.firstclient.any Client.tracking

def trackingIsEnabled (w : Upsd) : Bool :=
  w.trackingEnabled

structure Steady (w w' : Upsd) : Prop where
  enabled : w'.trackingEnabled = w.trackingEnabled
  list : w'.trackingList = w.trackingList
  clients : w'.firstclient.map (fun client => (client.id, client.tracking)) =
    w.firstclient.map fun client => (client.id, client.tracking)

section Steady

variable {w w' w'' : Upsd} {client : Client}

theorem steady_trans (first : Steady w w') (second : Steady w' w'') : Steady w w'' :=
  ⟨second.enabled.trans first.enabled, second.list.trans first.list, second.clients.trans first.clients⟩

theorem steady_updateClient (w : Upsd) (id : Nat) {change : Client -> Client}
    (keeps : ∀ client, (change client).id = client.id ∧ (change client).tracking = client.tracking) :
    Steady w (w.updateClient id change) := by
  refine ⟨rfl, rfl, ?_⟩
  simp only [Upsd.updateClient, List.map_map]
  apply List.map_congr_left
  intro client _
  by_cases same : client.id = id
  · simp [same, (keeps client).1, (keeps client).2]
  · simp [same]

theorem steady_answers {id : Nat} (answers : Answers id w w') : Steady w w' := by
  obtain ⟨_, _, _, clients, rfl, ⟨rfl, _⟩ | rfl⟩ := answers
  · exact ⟨rfl, rfl, rfl⟩
  · have hung : Steady w (w.updateClient id fun client => { client with lastHeard := 0 }) :=
      steady_updateClient w id fun _ => ⟨rfl, rfl⟩
    exact ⟨rfl, rfl, hung.clients⟩

theorem steady_reply (id : Nat) (reply : Reply) : Steady w (w.reply id reply) :=
  steady_answers (answers_sendback id w reply)

theorem steady_err (id : Nat) (errtype : String) : Steady w (sendErr w id errtype) := steady_reply id _

theorem steady_withUps {upsname : CString} {serve : Upstype -> Upsd} (known : ∀ ups, Steady w (serve ups)) :
    Steady w (withUps w client.id upsname serve) := withUps_rule (steady_err _ _) fun ups _ => known ups

theorem steady_netLogin (arg : List CString) : Steady w (netLogin w client arg) := by
  unfold netLogin
  split
  next upsname =>
    split
    next => exact steady_err _ _
    next =>
      refine steady_withUps fun ups => ?_
      split
      · refine steady_trans ?_ (steady_reply _ _)
        exact steady_trans (⟨rfl, rfl, rfl⟩ : Steady w (w.updateUps ups.name _))
          (steady_updateClient _ _ fun _ => ⟨rfl, rfl⟩)
      · exact steady_err _ _
  next => exact steady_err _ _

theorem steady_netUsername (arg : List CString) : Steady w (netUsername w client arg) := by
  unfold netUsername
  split
  · split
    · exact steady_err _ _
    · refine steady_trans ?_ (steady_reply _ _)
      exact steady_updateClient _ _ fun _ => ⟨rfl, rfl⟩
  · exact steady_err _ _

theorem steady_netPassword (arg : List CString) : Steady w (netPassword w client arg) := by
  unfold netPassword
  split
  · split
    · exact steady_err _ _
    · refine steady_trans ?_ (steady_reply _ _)
      exact steady_updateClient _ _ fun _ => ⟨rfl, rfl⟩
  · exact steady_err _ _

theorem steady_netFsd (arg : List CString) : Steady w (netFsd w client arg) := by
  unfold netFsd
  split
  · refine steady_withUps fun ups => ?_
    split
    · exact steady_trans (⟨rfl, rfl, rfl⟩ : Steady w (w.updateUps ups.name _)) (steady_reply _ _)
    · exact steady_err _ _
  · exact steady_err _ _

theorem steady_parseNet (now : Int) (w : Upsd) (client : Client) {arg0 : CString} (arg : List CString)
    (set_ : isCommand arg0 "SET" = false) (instcmd : isCommand arg0 "INSTCMD" = false) :
    Steady w (parseNet now w client (arg0 :: arg)) := by
  simp only [parseNet]
  split
  next cmd found =>
    refine checkCommand_rule (steady_err _) ?_
    have listed := List.mem_of_find?_eq_some found
    have named := List.find?_some found
    simp only [netcmds, List.mem_cons, List.not_mem_nil, or_false] at listed
    obtain rfl | rfl | rfl | rfl | rfl | rfl | rfl | rfl | rfl | rfl | rfl | rfl | rfl | rfl | rfl | rfl := listed
    · exact steady_answers (answers_netLine arg _)
    · exact steady_answers (answers_netLine arg _)
    · exact steady_answers (answers_netLine arg _)
    · exact steady_answers (answers_netLine arg _)
    · exact steady_err _ _
    · exact steady_answers (answers_netGet arg)
    · exact steady_answers (answers_netList arg)
    · exact steady_netUsername arg
    · exact steady_netPassword arg
    · exact steady_netLogin arg
    · exact steady_answers (answers_netLogout arg)
    · exact steady_answers (answers_doNetPrimary arg _)
    · exact steady_answers (answers_doNetPrimary arg _)
    · exact steady_netFsd arg
    · rw [set_] at named
      cases named
    · rw [instcmd] at named
      cases named
  next => exact steady_err _ _

theorem steady_heard (now : Int) (id : Nat) (w : Upsd) : Steady w (w.updateClient id (Client.hear now)) :=
  steady_updateClient w id fun _ => ⟨rfl, rfl⟩

end Steady

def Unmoved (w w' : Upsd) : Prop :=
  w'.trackingEnabled = w.trackingEnabled ∧ w'.trackingList = w.trackingList

section Unmoved

variable {a b c : Upsd}

theorem unmoved_refl (w : Upsd) : Unmoved w w := ⟨rfl, rfl⟩

theorem unmoved_trans (first : Unmoved a b) (second : Unmoved b c) : Unmoved a c :=
  ⟨second.1.trans first.1, second.2.trans first.2⟩

theorem unmoved_foldl {ι : Type} {step : Upsd -> ι -> Upsd} (each : ∀ w item, Unmoved w (step w item))
    (items : List ι) (w : Upsd) : Unmoved w (items.foldl step w) := by
  induction items generalizing w with
  | nil => exact unmoved_refl w
  | cons item rest ih => exact unmoved_trans (each w item) (ih (step w item))

theorem unmoved_sstateSendline (w : Upsd) (ups : Upstype) (line : CString) :
    Unmoved w (sstateSendline w ups line).1 := by
  obtain ⟨_, _, _, sent, _⟩ := sstateSendline_fst w ups line
  rw [sent]
  exact ⟨rfl, rfl⟩

theorem unmoved_connectDriver (now : Int) (up : Bool) (w : Upsd) (ups : Upstype) :
    Unmoved w (w.connectDriver now up ups).1 := by
  unfold Upsd.connectDriver
  split
  · dsimp only
    split <;> exact ⟨rfl, rfl⟩
  · exact unmoved_refl w

theorem unmoved_sendping (now : Int) (w : Upsd) (ups : Upstype) : Unmoved w (sendping now w ups) := by
  have sent := unmoved_sstateSendline w ups (cstr "PING\n")
  unfold sendping
  split
  next same =>
    rw [same] at sent
    exact sent
  next same =>
    rw [same] at sent
    exact sent

theorem unmoved_sstateDead (now : Int) (w : Upsd) (ups : Upstype) : Unmoved w (sstateDead now w ups).1 := by
  unfold sstateDead
  split
  · exact unmoved_refl w
  · dsimp only
    split
    · exact unmoved_sendping now w ups
    · exact unmoved_refl w

theorem unmoved_scanDriver (now : Int) (up : CString -> Bool) (w : Upsd) (name : CString) :
    Unmoved w (scanDriver now up w name) := by
  unfold scanDriver
  split
  next => exact unmoved_refl w
  next ups _ =>
    by_cases open_ : ups.connected = true
    · simp only [open_, if_true, Bool.not_true, Bool.false_eq_true, if_false]
      exact unmoved_sstateDead now w ups
    · have connected : Unmoved w ((w.connectDriver now (up name) ups).1.updateUps name fun _ =>
          (w.connectDriver now (up name) ups).2) := unmoved_connectDriver now (up name) w ups
      simp only [open_, Bool.false_eq_true, if_false]
      split
      · exact connected
      · exact unmoved_trans connected (unmoved_sstateDead now _ _)

theorem unmoved_clientDisconnect (w : Upsd) (id : Nat) : Unmoved w (clientDisconnect w id) := by
  unfold clientDisconnect
  split
  · exact unmoved_refl w
  · dsimp only
    split <;> exact ⟨rfl, rfl⟩

theorem unmoved_disconnects (cond : Client -> Prop) [DecidablePred cond] (clients : List Client) (w : Upsd) :
    Unmoved w (clients.foldl (fun w client => if cond client then clientDisconnect w client.id else w) w) := by
  refine unmoved_foldl (fun w client => ?_) clients w
  split
  · exact unmoved_clientDisconnect w client.id
  · exact unmoved_refl w

theorem unmoved_closeOldest (count : Nat) (w : Upsd) : Unmoved w (closeOldest count w) := by
  unfold closeOldest
  induction count generalizing w with
  | zero => exact unmoved_refl w
  | succ count ih =>
    rw [Function.iterate_succ_apply]
    refine unmoved_trans ?_ (ih _)
    unfold closeOldestClient
    split
    · exact unmoved_refl w
    · exact unmoved_clientDisconnect w _

theorem unmoved_upsconfAdd (now : Int) (up : CString -> Bool) (reloading : Bool) (upstable : List UpsEntry)
    (w : Upsd) : Unmoved w (upsconfAdd now up reloading upstable w) := by
  refine unmoved_foldl (fun w entry => ?_) upstable w
  unfold upsconfAddEntry
  split
  · dsimp only
    split
    · exact ⟨rfl, rfl⟩
    · unfold upsCreate
      split
      · exact unmoved_refl w
      · exact unmoved_connectDriver now _ w _
  · exact unmoved_refl w

theorem unmoved_dropUnretained (w : Upsd) : Unmoved w (dropUnretained w) := by
  refine unmoved_foldl (fun w ups => ?_) w.firstups w
  split
  · exact unmoved_refl w
  · exact unmoved_disconnects (fun client => client.loginups = some ups.name) w.firstclient w

theorem unmoved_loadUpsdconf (r : Reload) (w : Upsd) : Unmoved w (loadUpsdconf r w) := by
  have closed := unmoved_closeOldest r.upsdConfAgain.emfile w
  unfold loadUpsdconf
  dsimp only
  split
  · exact closed
  · exact closed

theorem unmoved_rereadConf (now : Int) (up : CString -> Bool) (r : Reload) (w : Upsd) :
    Unmoved w (rereadConf now up r w) := by
  have cleared : Unmoved w (clearRetain w) := ⟨rfl, rfl⟩
  exact unmoved_trans cleared <| unmoved_trans (unmoved_closeOldest _ _) <|
    unmoved_trans (unmoved_upsconfAdd now up true _ _) <| unmoved_trans (unmoved_loadUpsdconf r _)
      (unmoved_dropUnretained _)

theorem unmoved_confReload (now : Int) (up : CString -> Bool) (r : Reload) (w : Upsd) :
    Unmoved w (confReload now up r w) := by
  have first : Unmoved w (checkFile r.upsdConf w).1 := unmoved_closeOldest _ w
  unfold confReload
  split
  next stopped =>
    rw [stopped] at first
    exact first
  next w' ready =>
    rw [ready] at first
    have read := unmoved_rereadConf now up r w'
    have last : Unmoved w' (checkFile r.upsdUsers (rereadConf now up r w')).1 :=
      unmoved_trans read (unmoved_closeOldest _ _)
    split
    next stopped =>
      rw [stopped] at last
      exact unmoved_trans first last
    next opened =>
      rw [opened] at last
      exact unmoved_trans first last

end Unmoved

def FlagCovers (w : Upsd) : Prop :=
  ∀ client ∈ w.firstclient, client.tracking = true -> w.trackingEnabled = true

section FlagCovers

variable {w w' : Upsd} {client : Client}

theorem flagCovers_sub (covers : FlagCovers w) (enabled : w'.trackingEnabled = w.trackingEnabled)
    (clients : ∀ client' ∈ w'.firstclient, ∃ client ∈ w.firstclient, client.tracking = client'.tracking) :
    FlagCovers w' := by
  intro client' member tracking
  obtain ⟨client, inside, same⟩ := clients client' member
  rw [enabled]
  exact covers client inside (same.trans tracking)

theorem tracking_mem (same : w'.firstclient.map (fun client => (client.id, client.tracking)) =
      w.firstclient.map fun client => (client.id, client.tracking)) {client' : Client}
    (member : client' ∈ w'.firstclient) :
    ∃ client ∈ w.firstclient, client.id = client'.id ∧ client.tracking = client'.tracking := by
  have inside := List.mem_map_of_mem (f := fun client : Client => (client.id, client.tracking)) member
  rw [same] at inside
  obtain ⟨client, inside, pair⟩ := List.mem_map.mp inside
  exact ⟨client, inside, congrArg Prod.fst pair, congrArg Prod.snd pair⟩

def SameFlags (w w' : Upsd) : Prop :=
  w'.trackingEnabled = w.trackingEnabled ∧
    w'.firstclient.map (fun client => (client.id, client.tracking)) =
      w.firstclient.map fun client => (client.id, client.tracking)

theorem sameFlags_trans {a b c : Upsd} (first : SameFlags a b) (second : SameFlags b c) : SameFlags a c :=
  ⟨second.1.trans first.1, second.2.trans first.2⟩

theorem Steady.sameFlags (steady : Steady w w') : SameFlags w w' := ⟨steady.enabled, steady.clients⟩

theorem flagCovers_same (covers : FlagCovers w) (same : SameFlags w w') : FlagCovers w' :=
  flagCovers_sub covers same.1 fun _ member =>
    have ⟨client, inside, _, tracking⟩ := tracking_mem same.2 member
    ⟨client, inside, tracking⟩

theorem sameFlags_relay (now : Int) (ups : Upstype) (cmd : CString) (trackingId : Option CString) (failed : String) :
    SameFlags w (relay now w client ups cmd trackingId failed) := by
  obtain ⟨trackingList, tracked⟩ := track_eq now w trackingId
  obtain ⟨_, _, _, sent, _⟩ := sstateSendline_fst (track now w trackingId) ups cmd
  have before : SameFlags w (sstateSendline (track now w trackingId) ups cmd).1 := by
    rw [sent, tracked]
    exact ⟨rfl, rfl⟩
  unfold relay
  split
  next same =>
    rw [same] at before
    exact sameFlags_trans before (steady_err _ _).sameFlags
  next same =>
    rw [same] at before
    split
    · exact sameFlags_trans before (steady_reply _ _).sameFlags
    · exact sameFlags_trans before (steady_reply _ _).sameFlags

theorem sameFlags_setVar (now : Int) (upsname var newval : CString) (trackingId : Option CString) :
    SameFlags w (setVar now w client upsname var newval trackingId) := by
  have err (errtype : String) : SameFlags w (sendErr w client.id errtype) := (steady_err _ _).sameFlags
  refine withUps_rule (err _) fun ups _ => ifAvailable_rule err fun _ => ?_
  dsimp only
  split_ifs
  all_goals first
    | exact err _
    | exact sameFlags_relay _ _ _ _ _

theorem sameFlags_sendInstcmd (now : Int) (upsname cmdname : CString) (value trackingId : Option CString) :
    SameFlags w (sendInstcmd now w client upsname cmdname value trackingId) := by
  have err (errtype : String) : SameFlags w (sendErr w client.id errtype) := (steady_err _ _).sameFlags
  refine withUps_rule (err _) fun ups _ => ifAvailable_rule err fun _ => ?_
  split_ifs
  · exact err _
  · exact err _
  · exact sameFlags_relay _ _ _ _ _

theorem sameFlags_newTrackingId (w : Upsd) (client : Client) : SameFlags w (newTrackingId w client).2 := by
  obtain ⟨randoms, drawn⟩ := newTrackingId_eq w client
  rw [drawn]
  exact ⟨rfl, rfl⟩

theorem sameFlags_netInstcmd (now : Int) (arg : List CString) : SameFlags w (netInstcmd now w client arg) := by
  unfold netInstcmd
  split
  · exact sameFlags_trans (sameFlags_newTrackingId w client) (sameFlags_sendInstcmd now _ _ _ _)
  · exact (steady_err _ _).sameFlags

theorem flagCovers_reply (covers : FlagCovers w) (id : Nat) (reply : Reply) : FlagCovers (w.reply id reply) :=
  flagCovers_same covers (steady_reply id reply).sameFlags

theorem flagCovers_setTracking (covers : FlagCovers w) {value : Bool} (up : value = true -> w.trackingEnabled = true) :
    FlagCovers (setTracking client w value) := by
  intro client' member tracking
  obtain ⟨other, inside, rfl⟩ := List.mem_map.mp member
  split at tracking
  · exact up tracking
  · exact covers other inside tracking

theorem flagCovers_netSet (now : Int) (covers : FlagCovers w) (arg : List CString) :
    FlagCovers (netSet now w client arg) := by
  have err (errtype : String) : FlagCovers (sendErr w client.id errtype) := flagCovers_reply covers _ _
  unfold netSet
  split
  next arg0 arg1 args =>
    split_ifs
    · split
      · exact flagCovers_same covers (sameFlags_trans (sameFlags_newTrackingId w client) (sameFlags_setVar now _ _ _ _))
      · exact err _
    · have up : FlagCovers (trackingEnable w) := fun _ _ _ => rfl
      exact flagCovers_reply (flagCovers_setTracking up fun _ => rfl) _ _
    · exact flagCovers_reply (flagCovers_setTracking covers fun down => by cases down) _ _
    · exact err _
    · exact err _
  next => exact err _

theorem parseNet_set (now : Int) (w : Upsd) (client : Client) {arg0 : CString} (hit : isCommand arg0 "SET" = true)
    (arg : List CString) :
    parseNet now w client (arg0 :: arg) = checkCommand now ⟨"SET", netSet, true⟩ w client arg := by
  have entry : (netcmds.find? fun cmd => isCommand (cstr "SET") cmd.name) = some ⟨"SET", netSet, true⟩ := rfl
  exact parseNet_find now w client hit entry arg

theorem parseNet_instcmd (now : Int) (w : Upsd) (client : Client) {arg0 : CString}
    (hit : isCommand arg0 "INSTCMD" = true) (arg : List CString) :
    parseNet now w client (arg0 :: arg) = checkCommand now ⟨"INSTCMD", netInstcmd, true⟩ w client arg := by
  have entry : (netcmds.find? fun cmd => isCommand (cstr "INSTCMD") cmd.name) =
      some ⟨"INSTCMD", netInstcmd, true⟩ := rfl
  exact parseNet_find now w client hit entry arg

theorem flagCovers_parseNet (now : Int) (covers : FlagCovers w) (arglist : List CString) :
    FlagCovers (parseNet now w client arglist) := by
  have err (errtype : String) : FlagCovers (sendErr w client.id errtype) := flagCovers_reply covers _ _
  cases arglist with
  | nil => exact err _
  | cons arg0 arg =>
    cases set_ : isCommand arg0 "SET" with
    | true =>
      rw [parseNet_set now w client set_]
      exact checkCommand_rule err (flagCovers_netSet now covers arg)
    | false =>
      cases instcmd : isCommand arg0 "INSTCMD" with
      | true =>
        rw [parseNet_instcmd now w client instcmd]
        exact checkCommand_rule err (flagCovers_same covers (sameFlags_netInstcmd now arg))
      | false => exact flagCovers_same covers (steady_parseNet now w client arg set_ instcmd).sameFlags

theorem flagCovers_perform (w : Upsd) (act : Action) (covers : FlagCovers w) : FlagCovers (perform w act) := by
  have internal {act : Action} (internal : act.Internal) (unmoved : Unmoved w (perform w act)) :
      FlagCovers (perform w act) := flagCovers_sub covers unmoved.1 fun client member =>
      ⟨client, (maintained_perform internal w).clients.subset member, rfl⟩
  have heard (now : Int) (id : Nat) : FlagCovers (w.updateClient id (Client.hear now)) :=
    flagCovers_same covers (steady_heard now id w).sameFlags
  cases act with
  | reload now up r => exact internal trivial (unmoved_confReload now up r w)
  | scanDriver now up name => exact internal trivial (unmoved_scanDriver now up w name)
  | scanClients now => exact internal trivial (unmoved_disconnects _ w.firstclient w)
  | disconnect id => exact internal trivial (unmoved_clientDisconnect w id)
  | trackingCleanup now => exact covers
  | driver name event =>
    have quiet := quiet_serveDriver w name event
    refine flagCovers_sub covers ?_ fun client member => ⟨client, quiet.clients ▸ member, rfl⟩
    cases event with
    | quiet => rfl
    | hangup => rfl
    | read now buf =>
      simp only [perform, serveDriver]
      split
      · rfl
      · split <;> rfl
  | command id now arglist =>
    simp only [perform, serveLine]
    split
    · exact flagCovers_parseNet now (heard now id) arglist
    · exact heard now id
  | parsed id ctx =>
    have same : Steady w (perform w (.parsed id ctx)) := steady_updateClient w id fun _ => ⟨rfl, rfl⟩
    exact flagCovers_same covers same.sameFlags
  | connect now addr =>
    intro client member tracking
    obtain rfl | inside := List.mem_cons.mp member
    · cases tracking
    · exact covers client inside tracking

theorem flagCovers_foldl (covers : FlagCovers w) (actions : List Action) : FlagCovers (actions.foldl perform w) :=
  invariant_foldl flagCovers_perform covers actions

end FlagCovers

def MayUse (w : Upsd) (client : Client) : Prop :=
  ∃ username password, client.username = some username ∧ client.password = some password ∧
    w.build.hostsAccess client.addr username = true

def IsTrackingOff (arglist : List CString) : Prop :=
  ∃ cmd kind value rest, arglist = cmd :: kind :: value :: rest ∧ isCommand cmd "SET" = true ∧
    isCommand kind "TRACKING" = true ∧ isCommand value "OFF" = true

def OthersTrack (w : Upsd) (id : Nat) : Prop :=
  ∃ other ∈ w.firstclient, other.id ≠ id ∧ other.tracking = true

-- What the flag should be after SET TRACKING OFF, with the value that `tracking_disable` returned.
def FlagExact (w' : Upsd) (id : Nat) (returned : Bool) : Prop :=
  (trackingIsEnabled w' = true ↔ OthersTrack w' id) ∧ trackingIsEnabled w' = returned

section Off

variable {w : Upsd} {client : Client} {arglist : List CString}

theorem checkCommand_admitted {now : Int} {cmd : NetCmd} {arg : List CString} (admitted : MayUse w client) :
    checkCommand now cmd w client arg = cmd.func now w client arg := by
  obtain ⟨username, password, name, word, access⟩ := admitted
  unfold checkCommand
  rw [name, word]
  simp only [access, Bool.not_true, Bool.false_eq_true, if_false, ite_self]

theorem serveLine_trackingOff (now : Int) {id : Nat} (found : w.findClient id = some client)
    (admitted : MayUse w client) (off : IsTrackingOff arglist) : serveLine now id w arglist =
      (setTracking (client.hear now) (w.updateClient id (Client.hear now)) false).reply id ok := by
  obtain ⟨cmd, kind, value, rest, rfl, set_, tracking, off⟩ := off
  have id_ : (client.hear now).id = id := (findClient_spec found).2
  have var : isCommand kind "VAR" = false := isCommand_other tracking (by decide)
  have on : isCommand value "ON" = false := isCommand_other off (by decide)
  have allowed : MayUse (w.updateClient id (Client.hear now)) (client.hear now) := admitted
  rw [serveLine_found now found, parseNet_set now _ _ set_, checkCommand_admitted allowed]
  simp only [netSet, var, on, off, tracking, Bool.false_eq_true, if_false, if_true, id_]

theorem othersTrack_same {w' : Upsd} {id : Nat}
    (same : w'.firstclient.map (fun client => (client.id, client.tracking)) =
      w.firstclient.map fun client => (client.id, client.tracking)) : OthersTrack w' id ↔ OthersTrack w id := by
  have keeps {a b : Upsd} (same : b.firstclient.map (fun client => (client.id, client.tracking)) =
      a.firstclient.map fun client => (client.id, client.tracking)) : OthersTrack b id -> OthersTrack a id := by
    rintro ⟨other, member, different, tracking⟩
    obtain ⟨before, inside, sameId, sameFlag⟩ := tracking_mem same member
    exact ⟨before, inside, sameId ▸ different, sameFlag.trans tracking⟩
  exact ⟨keeps same, keeps same.symm⟩

theorem othersTrack_setTracking (value : Bool) :
    OthersTrack (setTracking client w value) client.id ↔ OthersTrack w client.id := by
  constructor
  · rintro ⟨_, member, different, tracking⟩
    obtain ⟨other, inside, rfl⟩ := List.mem_map.mp member
    split at different
    next same => exact absurd same different
    next apart =>
      rw [if_neg apart] at tracking
      exact ⟨other, inside, apart, tracking⟩
  · rintro ⟨other, member, different, tracking⟩
    exact ⟨other, List.mem_map.mpr ⟨other, member, if_neg different⟩, different, tracking⟩

theorem trackingDisable_iff : trackingDisable (setTracking client w false) = true ↔ OthersTrack w client.id := by
  rw [<- othersTrack_setTracking false, trackingDisable, List.any_eq_true]
  constructor
  · rintro ⟨_, member, tracking⟩
    refine ⟨_, member, ?_, tracking⟩
    obtain ⟨other, _, rfl⟩ := List.mem_map.mp member
    split at tracking
    · cases tracking
    next apart => rwa [if_neg apart]
  · rintro ⟨other, member, _, tracking⟩
    exact ⟨other, member, tracking⟩

end Off

-- After any run of upsd: a client switches its tracking off. The flag is then as it should be exactly
-- if it was down before, or another client still tracks: it never goes down again.
theorem trackingOff_iff (start : Upsd) (noClients : start.firstclient = []) (actions : List Action) (now : Int)
    {client : Client} (member : (actions.foldl perform start).findClient client.id = some client)
    (admitted : MayUse (actions.foldl perform start) client) {arglist : List CString} (off : IsTrackingOff arglist) :
    let w := actions.foldl perform start
    FlagExact (perform w (.command client.id now arglist)) client.id (trackingDisable (setTracking client w false)) ↔
      trackingIsEnabled w = false ∨ OthersTrack w client.id := by
  have start_ : FlagCovers start := by
    intro other inside
    rw [noClients] at inside
    cases inside
  have covers := flagCovers_foldl start_ actions
  revert covers member admitted
  generalize actions.foldl perform start = w
  intro found admitted covers
  have up : OthersTrack w client.id -> w.trackingEnabled = true := by
    rintro ⟨other, inside, _, tracking⟩
    exact covers other inside tracking
  have answered : Steady _ ((setTracking (client.hear now) (w.updateClient client.id (Client.hear now)) false).reply
      client.id ok) := steady_reply _ _
  have others : OthersTrack (serveLine now client.id w arglist) client.id ↔ OthersTrack w client.id := by
    rw [serveLine_trackingOff now found admitted off, othersTrack_same answered.clients]
    exact (@othersTrack_setTracking _ (client.hear now) false).trans
      (othersTrack_same (steady_heard now client.id w).clients)
  have enabled : trackingIsEnabled (serveLine now client.id w arglist) = w.trackingEnabled := by
    rw [serveLine_trackingOff now found admitted off]
    exact answered.enabled
  have returned : trackingDisable (setTracking client w false) = true ↔ OthersTrack w client.id := trackingDisable_iff
  change FlagExact (serveLine now client.id w arglist) _ _ ↔ _
  rw [FlagExact, others, enabled, trackingIsEnabled]
  by_cases track : OthersTrack w client.id
  · have both := returned.mpr track
    simp [track, up track, both]
  · have none_ : trackingDisable (setTracking client w false) = false := by
      rw [<- Bool.not_eq_true, returned]
      exact track
    simp [track, none_]

def trackingActions : List Action :=
  [.connect 1000 (cstr "::1"), .command 0 1000 [cstr "USERNAME", cstr "admin"],
    .command 0 1000 [cstr "PASSWORD", cstr "x"], .command 0 1000 [cstr "SET", cstr "TRACKING", cstr "ON"]]

def trackingOffLine : List CString :=
  [cstr "SET", cstr "TRACKING", cstr "OFF"]

def trackingClient : Client :=
  { id := 0, addr := cstr "::1", lastHeard := 1000, loginups := none, password := some (cstr "x"),
    username := some (cstr "admin"), tracking := true, ctx := pconfInit }

theorem trackingOff_sample :
    FlagExact (perform (trackingActions.foldl perform sampleUpsd) (.command 0 1000 trackingOffLine)) 0
        (trackingDisable (setTracking trackingClient (trackingActions.foldl perform sampleUpsd) false)) ↔
      trackingIsEnabled (trackingActions.foldl perform sampleUpsd) = false ∨
        OthersTrack (trackingActions.foldl perform sampleUpsd) 0 :=
  trackingOff_iff sampleUpsd rfl trackingActions 1000 (by decide +kernel : _ = some trackingClient)
    ⟨_, _, rfl, rfl, rfl⟩ ⟨_, _, _, [], rfl, by decide, by decide, by decide⟩

-- The only client that tracked does not track any more, and the flag stays up.
theorem trackingOff_not_exact :
    ¬ FlagExact (perform (trackingActions.foldl perform sampleUpsd) (.command 0 1000 trackingOffLine)) 0
      (trackingDisable (setTracking trackingClient (trackingActions.foldl perform sampleUpsd) false)) := by
  intro exact_
  have same := exact_.2
  revert same
  decide +kernel

end Nut
