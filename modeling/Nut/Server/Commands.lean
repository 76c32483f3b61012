import Nut.Server.Actions

set_option autoImplicit false

namespace Nut

def hangUp (id : Nat) (clients : List Client) : List Client :=
  clients.map fun client => if client.id = id then { client with lastHeard := 0 } else client

-- From `w` to `w'` there were replies to one client, which is marked if one of them failed, and
-- perhaps random bytes drawn; nothing else.
def Answers (id : Nat) (w w' : Upsd) : Prop :=
  ∃ writes randoms added clients,
    w' = { w with writes, randoms, replies := w.replies ++ added, firstclient := clients } ∧
      (clients = w.firstclient ∧ (∀ reply ∈ added, reply.2.2 = true) ∨ clients = hangUp id w.firstclient)

theorem hangUp_hangUp (id : Nat) (clients : List Client) : hangUp id (hangUp id clients) = hangUp id clients := by
  simp only [hangUp, List.map_map]
  apply List.map_congr_left
  intro client _
  by_cases same : client.id = id <;> simp [same]

section Answers

variable {id : Nat} {w w' w'' : Upsd}

theorem answers_refl (id : Nat) (w : Upsd) : Answers id w w :=
  ⟨w.writes, w.randoms, [], w.firstclient, by simp, Or.inl ⟨rfl, by simp⟩⟩

theorem answers_randoms (id : Nat) (w : Upsd) (randoms : List UInt8) : Answers id w { w with randoms } :=
  ⟨w.writes, randoms, [], w.firstclient, by simp, Or.inl ⟨rfl, by simp⟩⟩

theorem answers_trans (first : Answers id w w') (second : Answers id w' w'') : Answers id w w'' := by
  obtain ⟨_, _, added, clients, rfl, marked⟩ := first
  obtain ⟨writes, randoms, added', clients', rfl, marked'⟩ := second
  refine ⟨writes, randoms, added ++ added', clients', by simp [List.append_assoc], ?_⟩
  obtain ⟨rfl, sent⟩ | rfl := marked <;> obtain ⟨rfl, sent'⟩ | rfl := marked'
  · refine Or.inl ⟨rfl, fun reply member => ?_⟩
    obtain inFirst | inSecond := List.mem_append.mp member
    · exact sent reply inFirst
    · exact sent' reply inSecond
  · exact Or.inr rfl
  · exact Or.inr rfl
  · exact Or.inr (hangUp_hangUp id w.firstclient)

theorem answers_hangUp (id : Nat) (w : Upsd) :
    Answers id w (w.updateClient id fun client => { client with lastHeard := 0 }) :=
  ⟨w.writes, w.randoms, [], _, by simp [Upsd.updateClient, hangUp], Or.inr rfl⟩

theorem answers_sendback (id : Nat) (w : Upsd) (reply : Reply) : Answers id w (sendback w id reply).1 := by
  cases written : w.nextWrite with
  | true =>
    simp only [sendback, written, if_true]
    exact ⟨w.writes.tail, w.randoms, _, w.firstclient, rfl, Or.inl ⟨rfl, by simp⟩⟩
  | false =>
    simp only [sendback, written, Bool.false_eq_true, if_false]
    exact ⟨w.writes.tail, w.randoms, _, _, rfl, Or.inr rfl⟩

theorem answers_sendAll (id : Nat) (w : Upsd) (replies : List Reply) : Answers id w (sendAll w id replies).1 := by
  induction replies generalizing w with
  | nil => exact answers_refl id w
  | cons reply rest ih =>
    have first := answers_sendback id w reply
    unfold sendAll
    split
    next sent => exact answers_trans (by rw [sent] at first; exact first) (ih _)
    next sent => rw [sent] at first; exact first

theorem answers_treeDump (id : Nat) (upsname : CString) (rw_ fsd : Bool) (t : StTree) (w : Upsd) :
    Answers id w (treeDump id upsname rw_ fsd t w).1 := by
  induction t generalizing w with
  | nil => exact answers_refl id w
  | node left node right left_ih right_ih =>
    have before := left_ih w
    unfold treeDump
    split
    next dumped => rw [dumped] at before; exact before
    next w' dumped =>
        rw [dumped] at before
        have here := answers_sendAll id w' (dumpNode upsname rw_ fsd node)
        split
        next sent => rw [sent] at here; exact answers_trans before here
        next sent =>
            rw [sent] at here
            exact answers_trans before (answers_trans here (right_ih _))

theorem answers_sendList {client : Client} (what : String) (names : List CString)
    {items : Upsd -> Upsd × Bool} (itemsAnswer : ∀ w, Answers client.id w (items w).1) (w : Upsd) :
    Answers client.id w (sendList w client what names items) := by
  have first := answers_sendback client.id w (.beginList what names)
  unfold sendList
  split
  next sent => rw [sent] at first; exact first
  next w' sent =>
      rw [sent] at first
      have middle := itemsAnswer w'
      split
      next done => rw [done] at middle; exact answers_trans first middle
      next done =>
          rw [done] at middle
          exact answers_trans first (answers_trans middle (answers_sendback client.id _ _))

end Answers

theorem withUps_rule {P : Upsd -> Prop} {w : Upsd} {id : Nat} {upsname : CString} {serve : Upstype -> Upsd}
    (unknown : P (sendErr w id "UNKNOWN-UPS"))
    (known : ∀ ups, getUpsPtr w upsname = some ups -> P (serve ups)) : P (withUps w id upsname serve) := by
  unfold withUps
  split
  next => exact unknown
  next ups found => exact known ups found

theorem ifAvailable_rule {P : Upsd -> Prop} {w : Upsd} {id : Nat} {ups : Upstype} {serve : Upsd}
    (err : ∀ errtype, P (sendErr w id errtype)) (available : ups.connected = true -> P serve) :
    P (ifAvailable w id ups serve) := by
  unfold ifAvailable
  split_ifs with closed stale
  · exact err _
  · exact err _
  · exact available (by simpa using closed)

theorem checkCommand_rule {w : Upsd} {client : Client} {P : Upsd -> Prop} {now : Int} {cmd : NetCmd} {arg : List CString}
    (err : ∀ errtype, P (sendErr w client.id errtype)) (func : P (cmd.func now w client arg)) :
    P (checkCommand now cmd w client arg) := by
  unfold checkCommand
  repeat' split
  all_goals first
    | exact err _
    | exact func

section Answered

variable {w : Upsd} {client : Client}

theorem answers_reply (reply : Reply) : Answers client.id w (w.reply client.id reply) :=
  answers_sendback client.id w reply

theorem answers_err (errtype : String) : Answers client.id w (sendErr w client.id errtype) := answers_reply _

theorem answers_known {upsname : CString} {serve : Upstype -> Upsd} (known : ∀ ups, Answers client.id w (serve ups)) :
    Answers client.id w (withUps w client.id upsname serve) := withUps_rule (answers_err _) fun ups _ => known ups

theorem answers_available {upsname : CString} {serve : Upstype -> Upsd} (known : ∀ ups, Answers client.id w (serve ups)) :
    Answers client.id w (withUps w client.id upsname fun ups => ifAvailable w client.id ups (serve ups)) :=
  answers_known fun ups => ifAvailable_rule answers_err fun _ => known ups

theorem answers_netLine (arg : List CString) (text : CString) : Answers client.id w (netLine w client arg text) := by
  unfold netLine
  split
  · exact answers_reply _
  · exact answers_err _

theorem answers_netLogout (arg : List CString) : Answers client.id w (netLogout w client arg) := by
  unfold netLogout
  split
  · exact answers_trans (answers_reply _) (answers_hangUp client.id _)
  · exact answers_err _

theorem answers_doNetPrimary (arg : List CString) (granted : String) :
    Answers client.id w (doNetPrimary w client arg granted) := by
  unfold doNetPrimary
  split
  · exact answers_known fun _ => iteInduction (fun _ => answers_err _) fun _ => answers_reply _
  · exact answers_err _

theorem answers_getVar (upsname var : CString) : Answers client.id w (getVar w client upsname var) := by
  refine iteInduction (fun _ => ?_) fun _ => ?_
  · refine iteInduction (fun _ => answers_reply _) fun _ => ?_
    exact iteInduction (fun _ => answers_reply _) fun _ => answers_err _
  · refine answers_available fun ups => ?_
    split
    · exact answers_err _
    · exact iteInduction (fun _ => answers_reply _) fun _ => answers_reply _

theorem answers_getType (upsname var : CString) : Answers client.id w (getType w client upsname var) := by
  refine answers_available fun ups => ?_
  split
  · exact answers_err _
  · exact answers_reply _

theorem answers_netGet (arg : List CString) : Answers client.id w (netGet w client arg) := by
  obtain _ | ⟨arg0, args⟩ := arg
  · exact answers_err _
  refine iteInduction (fun _ => ?_) fun _ => ?_
  · obtain _ | ⟨id, _⟩ := args
    · exact answers_reply _
    · exact iteInduction (fun _ => answers_reply _) fun _ => answers_err _
  obtain _ | ⟨arg1, args⟩ := args
  · exact answers_err _
  refine iteInduction (fun _ => answers_available fun _ => answers_reply _) fun _ => ?_
  refine iteInduction (fun _ => answers_known fun _ => answers_reply _) fun _ => ?_
  obtain _ | ⟨arg2, _⟩ := args
  · exact answers_err _
  refine iteInduction (fun _ => answers_getVar _ _) fun _ => ?_
  refine iteInduction (fun _ => answers_getType _ _) fun _ => ?_
  refine iteInduction (fun _ => answers_available fun _ => answers_reply _) fun _ => ?_
  exact iteInduction (fun _ => answers_available fun _ => answers_reply _) fun _ => answers_err _

theorem answers_listOf (upsname var : CString) (what : String) (items : StNode -> List Reply) : Answers client.id w
      (withUps w client.id upsname fun ups => ifAvailable w client.id ups <|
        match stateTreeFind ups.inforoot var with
        | none => sendErr w client.id "VAR-NOT-SUPPORTED"
        | some node => sendList w client what [upsname, var] fun w => sendAll w client.id (items node)) := by
  refine answers_available fun ups => ?_
  split
  · exact answers_err _
  · exact answers_sendList _ _ (fun _ => answers_sendAll _ _ _) w

theorem answers_netList (arg : List CString) : Answers client.id w (netList w client arg) := by
  have sent (what : String) (names : List CString) (items : Upsd -> List Reply) :
      Answers client.id w (sendList w client what names fun w => sendAll w client.id (items w)) :=
    answers_sendList what names (fun _ => answers_sendAll _ _ _) w
  have dumped (names : List CString) (what : String) (upsname : CString) (rw_ fsd : Bool) (tree : StTree) :
      Answers client.id w (sendList w client what names (treeDump client.id upsname rw_ fsd tree)) :=
    answers_sendList what names (fun _ => answers_treeDump _ _ _ _ _ _) w
  obtain _ | ⟨arg0, args⟩ := arg
  · exact answers_err _
  refine iteInduction (fun _ => sent _ _ _) fun _ => ?_
  obtain _ | ⟨arg1, args⟩ := args
  · exact answers_err _
  refine iteInduction (fun _ => answers_available fun _ => dumped _ _ _ _ _ _) fun _ => ?_
  refine iteInduction (fun _ => answers_available fun _ => dumped _ _ _ _ _ _) fun _ => ?_
  refine iteInduction (fun _ => answers_available fun _ => sent _ _ _) fun _ => ?_
  refine iteInduction (fun _ => answers_known fun _ => sent _ _ _) fun _ => ?_
  obtain _ | ⟨arg2, _⟩ := args
  · exact answers_err _
  refine iteInduction (fun _ => answers_listOf _ _ _ _) fun _ => ?_
  exact iteInduction (fun _ => answers_listOf _ _ _ _) fun _ => answers_err _

end Answered

inductive Line (w : Upsd) (client : Client) : List CString -> CString -> Prop where
  | set {cmd kind upsname var newval : CString} {rest : List CString} (isSet : isCommand cmd "SET" = true)
      (isVar : isCommand kind "VAR" = true)
      (granted : userCheckaction w.users client.username client.password "SET" = true) :
      Line w client (cmd :: kind :: upsname :: var :: newval :: rest)
        (setCmd var newval (newTrackingId w client).1)
  | instcmd {cmd upsname cmdname : CString} {rest : List CString} (isInstcmd : isCommand cmd "INSTCMD" = true)
      (granted : userCheckinstcmd w.users client.username client.password cmdname = true) :
      Line w client (cmd :: upsname :: cmdname :: rest)
        (instcmdCmd cmdname (cmdparam rest) (newTrackingId w client).1)

-- Everything that the commands can do, apart from their replies.
inductive Effect (w : Upsd) (client : Client) (arglist : List CString) : Upsd -> Prop where
  | none : Effect w client arglist w
  | username (username : CString) (unset : client.username = none) :
      Effect w client arglist
        (w.updateClient client.id fun client => { client with username := some username })
  | password (password : CString) (unset : client.password = none) :
      Effect w client arglist
        (w.updateClient client.id fun client => { client with password := some password })
  | login (ups : Upstype) {upsname : CString} (found : getUpsPtr w upsname = some ups)
      (unset : client.loginups = none)
      (granted : userCheckaction w.users client.username client.password "LOGIN" = true) :
      Effect w client arglist
        ((w.updateUps ups.name fun ups => { ups with numlogins := ups.numlogins + 1 }).updateClient client.id
          fun client => { client with loginups := some ups.name })
  | fsd (ups : Upstype)
      (granted : userCheckaction w.users client.username client.password "FSD" = true) :
      Effect w client arglist (w.updateUps ups.name fun ups => { ups with fsd := true })
  | tracking (value enabled : Bool) :
      Effect w client arglist (setTracking client { w with trackingEnabled := enabled } value)
  | relayed (ups : Upstype) (line : CString) (randoms : List UInt8) (trackingList : TrackingList)
      (isLine : Line w client arglist line) :
      Effect w client arglist (sstateSendline { w with randoms, trackingList } ups line).1

def Served (w : Upsd) (client : Client) (arglist : List CString) (w' : Upsd) : Prop :=
  ∃ between, Effect w client arglist between ∧ Answers client.id between w'

section Served

variable {w : Upsd} {client : Client} {arglist : List CString}

theorem served_answers {w' : Upsd} (answers : Answers client.id w w') : Served w client arglist w' :=
  ⟨w, .none, answers⟩

theorem served_reply (reply : Reply) : Served w client arglist (w.reply client.id reply) :=
  served_answers (answers_sendback client.id w reply)

theorem served_err (errtype : String) : Served w client arglist (sendErr w client.id errtype) := served_reply _

theorem served_effect {between : Upsd} (effect : Effect w client arglist between) (reply : Reply) :
    Served w client arglist (between.reply client.id reply) :=
  ⟨between, effect, answers_sendback client.id between reply⟩

theorem served_withUps {upsname : CString} {serve : Upstype -> Upsd}
    (known : ∀ ups, getUpsPtr w upsname = some ups -> Served w client arglist (serve ups)) :
    Served w client arglist (withUps w client.id upsname serve) := withUps_rule (served_err _) known

theorem served_netLogin (arg : List CString) : Served w client arglist (netLogin w client arg) := by
  unfold netLogin
  split
  next upsname =>
      split
      next => exact served_err _
      next once =>
          apply served_withUps
          intro ups found
          split
          next granted => exact served_effect (.login ups found (by simpa using once) granted) _
          next => exact served_err _
  next => exact served_err _

theorem served_netUsername (arg : List CString) : Served w client arglist (netUsername w client arg) := by
  unfold netUsername
  split
  next username =>
      split_ifs with twice
      · exact served_err _
      · exact served_effect (.username username (by simpa using twice)) _
  next => exact served_err _

theorem served_netPassword (arg : List CString) : Served w client arglist (netPassword w client arg) := by
  unfold netPassword
  split
  next password =>
      split_ifs with twice
      · exact served_err _
      · exact served_effect (.password password (by simpa using twice)) _
  next => exact served_err _

theorem served_netFsd (arg : List CString) : Served w client arglist (netFsd w client arg) := by
  unfold netFsd
  split
  next upsname =>
      apply served_withUps
      intro ups found
      split_ifs with granted
      · exact served_effect (.fsd ups granted) _
      · exact served_err _
  next => exact served_err _

theorem newTrackingId_eq (w : Upsd) (client : Client) : ∃ randoms, (newTrackingId w client).2 = { w with randoms } := by
  unfold newTrackingId
  split
  · exact ⟨_, rfl⟩
  · exact ⟨w.randoms, rfl⟩

theorem track_eq (now : Int) (w : Upsd) (trackingId : Option CString) :
    ∃ trackingList, track now w trackingId = { w with trackingList } := by
  cases trackingId with
  | none => exact ⟨w.trackingList, rfl⟩
  | some id =>
    simp only [track, trackingAdd]
    split
    · exact ⟨_, rfl⟩
    · exact ⟨w.trackingList, rfl⟩

theorem served_relay (now : Int) (randoms : List UInt8) (ups : Upstype) {line : CString}
    (trackingId : Option CString) (failed : String) (isLine : Line w client arglist line) :
    Served w client arglist (relay now { w with randoms } client ups line trackingId failed) := by
  obtain ⟨trackingList, tracked⟩ := track_eq now { w with randoms } trackingId
  have effect : Effect w client arglist _ := .relayed ups line randoms trackingList isLine
  unfold relay
  rw [tracked]
  split
  next sent => rw [sent] at effect; exact served_effect effect _
  next sent =>
      rw [sent] at effect
      split
      · exact served_effect effect _
      · exact served_effect effect _

theorem served_setVar (now : Int) (randoms : List UInt8) (upsname var newval : CString) (trackingId : Option CString)
    (isLine : userCheckaction w.users client.username client.password "SET" = true ->
      Line w client arglist (setCmd var newval trackingId)) :
    Served w client arglist (setVar now { w with randoms } client upsname var newval trackingId) := by
  have err (errtype : String) : Served w client arglist (sendErr { w with randoms } client.id errtype) :=
    served_answers (answers_trans (answers_randoms _ _ _) (answers_sendback _ _ _))
  apply withUps_rule (err _)
  intro ups _
  apply ifAvailable_rule err
  intro _
  by_cases granted : userCheckaction w.users client.username client.password "SET" = true
  · simp only [granted, Bool.not_true, Bool.false_eq_true, if_false]
    split_ifs
    all_goals first
      | exact err _
      | exact served_relay now randoms ups trackingId _ (isLine granted)
  · simp only [granted, Bool.not_false, if_true]
    exact err _

theorem served_netSet (now : Int) {cmd : CString} (isSet : isCommand cmd "SET" = true) (arg : List CString) :
    Served w client (cmd :: arg) (netSet now w client arg) := by
  obtain ⟨randoms, drawn⟩ := newTrackingId_eq w client
  unfold netSet
  simp only [drawn]
  split
  next kind upsname args =>
      split_ifs with isVar
      · split
        next var newval rest => exact served_setVar now randoms upsname var newval _ (.set isSet isVar)
        next => exact served_err _
      · exact served_effect (.tracking _ _) _
      · exact served_effect (.tracking _ _) _
      · exact served_err _
      · exact served_err _
  next => exact served_err _

theorem served_sendInstcmd (now : Int) (randoms : List UInt8) (upsname cmdname : CString)
    (value trackingId : Option CString)
    (isLine : userCheckinstcmd w.users client.username client.password cmdname = true ->
      Line w client arglist (instcmdCmd cmdname value trackingId)) :
    Served w client arglist (sendInstcmd now { w with randoms } client upsname cmdname value trackingId) := by
  have err (errtype : String) : Served w client arglist (sendErr { w with randoms } client.id errtype) :=
    served_answers (answers_trans (answers_randoms _ _ _) (answers_sendback _ _ _))
  apply withUps_rule (err _)
  intro ups _
  apply ifAvailable_rule err
  intro _
  by_cases granted : userCheckinstcmd w.users client.username client.password cmdname = true
  · simp only [granted, Bool.not_true, Bool.false_eq_true, if_false]
    split_ifs
    · exact err _
    · exact served_relay now randoms ups trackingId _ (isLine granted)
  · simp only [granted, Bool.not_false, if_true]
    split_ifs <;> exact err _

theorem served_netInstcmd (now : Int) {cmd : CString} (isInstcmd : isCommand cmd "INSTCMD" = true)
    (arg : List CString) : Served w client (cmd :: arg) (netInstcmd now w client arg) := by
  obtain ⟨randoms, drawn⟩ := newTrackingId_eq w client
  unfold netInstcmd
  simp only [drawn]
  split
  next upsname cmdname args => exact served_sendInstcmd now randoms upsname cmdname _ _ (.instcmd isInstcmd)
  next => exact served_err _

theorem netcmds_find {arg0 : CString} {word : String} (hit : isCommand arg0 word = true) :
    (netcmds.find? fun cmd => isCommand arg0 cmd.name) = netcmds.find? fun cmd => isCommand (cstr word) cmd.name := by
  have folded : foldCase arg0 = foldCase (cstr word) := by
    simpa [isCommand, strcasecmp_eq_iff] using hit
  congr
  funext cmd
  simp only [isCommand, strcasecmp_eq_compare, folded]

theorem parseNet_find (now : Int) (w : Upsd) (client : Client) {arg0 : CString} {word : String}
    (hit : isCommand arg0 word = true) {cmd : NetCmd}
    (entry : (netcmds.find? fun cmd => isCommand (cstr word) cmd.name) = some cmd) (arg : List CString) :
    parseNet now w client (arg0 :: arg) = checkCommand now cmd w client arg := by
  simp only [parseNet, netcmds_find hit, entry]

theorem served_parseNet (now : Int) (w : Upsd) (client : Client) (arglist : List CString) :
    Served w client arglist (parseNet now w client arglist) := by
  cases arglist with
  | nil => exact served_err _
  | cons arg0 arg =>
    simp only [parseNet]
    split
    next cmd found =>
        refine checkCommand_rule served_err ?_
        have listed := List.mem_of_find?_eq_some found
        have named := List.find?_some found
        simp only [netcmds, List.mem_cons, List.not_mem_nil, or_false] at listed
        obtain rfl | rfl | rfl | rfl | rfl | rfl | rfl | rfl | rfl | rfl | rfl | rfl | rfl | rfl | rfl |
          rfl := listed
        · exact served_answers (answers_netLine arg _)
        · exact served_answers (answers_netLine arg _)
        · exact served_answers (answers_netLine arg _)
        · exact served_answers (answers_netLine arg _)
        · exact served_err _
        · exact served_answers (answers_netGet arg)
        · exact served_answers (answers_netList arg)
        · exact served_netUsername arg
        · exact served_netPassword arg
        · exact served_netLogin arg
        · exact served_answers (answers_netLogout arg)
        · exact served_answers (answers_doNetPrimary arg _)
        · exact served_answers (answers_doNetPrimary arg _)
        · exact served_netFsd arg
        · exact served_netSet now named arg
        · exact served_netInstcmd now named arg
    next => exact served_err _

end Served

end Nut
