import Mathlib.Data.List.Forall2
import Nut.Common.StateMap
import Nut.Server.Actions

set_option autoImplicit false

namespace Nut

def SameAccount (ups ups' : Upstype) : Prop :=
  ups'.name = ups.name ∧ ups'.fsd = ups.fsd ∧ ups'.numlogins = ups.numlogins

def Housekeeping (line : CString) : Prop :=
  line = cstr "PING\n" ∨ line = cstr "DUMPALL\n"

structure Quiet (w w' : Upsd) : Prop where
  ups : List.Forall₂ SameAccount w.firstups w'.firstups
  clients : w'.firstclient = w.firstclient
  nextId : w'.nextId = w.nextId
  users : w'.users = w.users
  lines : ∃ added, w'.lines = w.lines ++ added ∧ ∀ line ∈ added, Housekeeping line.2

section Lists

variable {R : Upstype -> Upstype -> Prop}

theorem all_refl (refl : ∀ ups, R ups ups) (list : List Upstype) : List.Forall₂ R list list :=
  List.forall₂_same.mpr fun ups _ => refl ups

theorem all_trans {α : Type} (R : α -> α -> Prop) (trans : ∀ {a b c}, R a b -> R b c -> R a c) {x y z : List α}
    (first : List.Forall₂ R x y) (second : List.Forall₂ R y z) : List.Forall₂ R x z := by
  induction first generalizing z with
  | nil => exact second
  | cons head _ ih =>
    cases second with
    | cons head' tail' => exact .cons (trans head head') (ih tail')

theorem all_mem {α β : Type} {R : α -> β -> Prop} {x : List α} {y : List β} (all : List.Forall₂ R x y) {b : β}
    (member : b ∈ y) : ∃ a ∈ x, R a b := by
  induction all with
  | nil => cases member
  | cons head _ ih =>
    obtain rfl | later := List.mem_cons.mp member
    · exact ⟨_, List.mem_cons_self, head⟩
    · obtain ⟨a, inside, same⟩ := ih later
      exact ⟨a, List.mem_cons_of_mem _ inside, same⟩

theorem modifyUps_all (refl : ∀ ups, R ups ups) (name : CString) {change : Upstype -> Upstype}
    (changed : ∀ ups, R ups (change ups)) (list : List Upstype) : List.Forall₂ R list (modifyUps name change list) := by
  induction list with
  | nil => exact .nil
  | cons ups rest ih =>
    unfold modifyUps
    split
    · exact .cons (changed ups) (all_refl refl rest)
    · exact .cons (refl ups) ih

theorem modifyUps_const (refl : ∀ ups, R ups ups) {name : CString} {list : List Upstype}
    {ups ups' : Upstype} (found : (list.find? fun tmp => strcasecmp tmp.name name == .eq) = some ups)
    (changed : R ups ups') : List.Forall₂ R list (modifyUps name (fun _ => ups') list) := by
  induction list with
  | nil => exact .nil
  | cons tmp rest ih =>
    unfold modifyUps
    by_cases here : strcasecmp tmp.name name = .eq
    · simp only [List.find?_cons, here, beq_self_eq_true, Option.some.injEq] at found
      subst found
      simp only [here, if_true]
      exact .cons changed (all_refl refl rest)
    · simp only [List.find?_cons, beq_eq_false_iff_ne.mpr here] at found
      simp only [here, if_false]
      exact .cons (refl tmp) (ih found)

end Lists

theorem linesAdded_trans {x y z : List (CString × CString)}
    (first : ∃ added, y = x ++ added ∧ ∀ line ∈ added, Housekeeping line.2)
    (second : ∃ added, z = y ++ added ∧ ∀ line ∈ added, Housekeeping line.2) :
    ∃ added, z = x ++ added ∧ ∀ line ∈ added, Housekeeping line.2 := by
  obtain ⟨added, rfl, house⟩ := first
  obtain ⟨added', rfl, house'⟩ := second
  refine ⟨added ++ added', by rw [List.append_assoc], ?_⟩
  intro line member
  obtain inFirst | inSecond := List.mem_append.mp member
  · exact house line inFirst
  · exact house' line inSecond

theorem sameAccount_refl (ups : Upstype) : SameAccount ups ups := ⟨rfl, rfl, rfl⟩

theorem sameAccount_trans {a b c : Upstype} (first : SameAccount a b) (second : SameAccount b c) :
    SameAccount a c :=
  ⟨second.1.trans first.1, second.2.1.trans first.2.1, second.2.2.trans first.2.2⟩

theorem quiet_refl (w : Upsd) : Quiet w w := ⟨all_refl sameAccount_refl _, rfl, rfl, rfl, [], by simp, by simp⟩

theorem quiet_trans {a b c : Upsd} (first : Quiet a b) (second : Quiet b c) : Quiet a c :=
  ⟨all_trans SameAccount sameAccount_trans first.ups second.ups, second.clients.trans first.clients,
    second.nextId.trans first.nextId, second.users.trans first.users, linesAdded_trans first.lines second.lines⟩

theorem quiet_updateUps (w : Upsd) (name : CString) {change : Upstype -> Upstype}
    (changed : ∀ ups, SameAccount ups (change ups)) : Quiet w (w.updateUps name change) :=
  ⟨modifyUps_all sameAccount_refl name changed _, rfl, rfl, rfl, [], by simp [Upsd.updateUps], by simp⟩

theorem quiet_writeLine (w : Upsd) (ups : Upstype) {line : CString} (house : Housekeeping line) :
    Quiet w (w.writeLine ups line) :=
  ⟨all_refl sameAccount_refl _, rfl, rfl, rfl, [(ups.name, line)], rfl, by simpa using house⟩

theorem sameAccount_sstateDisconnect (ups : Upstype) : SameAccount ups (sstateDisconnect ups) := by
  unfold sstateDisconnect
  split <;> exact ⟨rfl, rfl, rfl⟩

theorem quiet_trackingCleanup (now : Int) (w : Upsd) : Quiet w (trackingCleanup now w) :=
  ⟨all_refl sameAccount_refl _, rfl, rfl, rfl, [], by simp [trackingCleanup], by simp⟩

theorem quiet_connectDriver (now : Int) (up : Bool) (w : Upsd) (ups : Upstype) :
    Quiet w (w.connectDriver now up ups).1 ∧ SameAccount ups (w.connectDriver now up ups).2 ∧
      (w.connectDriver now up ups).1.firstups = w.firstups := by
  have wrote := quiet_writeLine w ups (Or.inr rfl : Housekeeping (cstr "DUMPALL\n"))
  unfold Upsd.connectDriver
  split
  · by_cases done : w.nextWrite = true
    · simp only [done, if_true]
      exact ⟨wrote, ⟨rfl, rfl, rfl⟩, rfl⟩
    · simp only [done, Bool.false_eq_true, if_false]
      exact ⟨wrote, sameAccount_refl ups, rfl⟩
  · exact ⟨quiet_refl w, sameAccount_refl ups, rfl⟩

theorem quiet_sendping (now : Int) (w : Upsd) (ups : Upstype) : Quiet w (sendping now w ups) := by
  have wrote := quiet_writeLine w ups (Or.inl rfl : Housekeeping (cstr "PING\n"))
  have stamp (w : Upsd) : Quiet w (w.updateUps ups.name fun ups => { ups with lastPing := now }) :=
    quiet_updateUps w ups.name fun ups => ⟨rfl, rfl, rfl⟩
  unfold sendping sstateSendline
  by_cases closed : ups.connected = true
  · by_cases done : w.nextWrite = true
    · simp only [closed, done, Bool.not_true, Bool.false_eq_true, if_false, if_true]
      exact quiet_trans wrote (stamp _)
    · simp only [closed, done, Bool.not_true, Bool.false_eq_true, if_false]
      exact quiet_trans wrote (quiet_updateUps _ ups.name sameAccount_sstateDisconnect)
  · simp only [closed, Bool.not_false, if_true]
    exact quiet_refl w

theorem quiet_sstateDead (now : Int) (w : Upsd) (ups : Upstype) : Quiet w (sstateDead now w ups).1 := by
  unfold sstateDead
  split
  · exact quiet_refl w
  · dsimp only
    split
    · exact quiet_sendping now w ups
    · exact quiet_refl w

theorem quiet_scanDriver (now : Int) (up : CString -> Bool) (w : Upsd) (name : CString) :
    Quiet w (scanDriver now up w name) := by
  have judged (w : Upsd) (ups : Upstype) : Quiet w ((sstateDead now w ups).1.updateUps name fun ups' =>
        { ups' with stale := (sstateDead now w ups).2 }) :=
    quiet_trans (quiet_sstateDead now w ups) (quiet_updateUps _ name fun ups => ⟨rfl, rfl, rfl⟩)
  unfold scanDriver
  split
  next => exact quiet_refl w
  next ups found =>
      by_cases open_ : ups.connected = true
      · simp only [open_, if_true, Bool.not_true, Bool.false_eq_true, if_false]
        exact judged w ups
      · obtain ⟨wrote, account, same⟩ := quiet_connectDriver now (up name) w ups
        have connected : Quiet w ((w.connectDriver now (up name) ups).1.updateUps name fun _ =>
            (w.connectDriver now (up name) ups).2) := by
          refine { wrote with ups := ?_ }
          simp only [Upsd.updateUps, same]
          exact modifyUps_const sameAccount_refl found account
        simp only [open_, Bool.false_eq_true, if_false]
        split
        · exact connected
        · exact quiet_trans connected (judged _ _)

theorem isCommand_other {arg : CString} {word other : String} (hit : isCommand arg word = true)
    (apart : foldCase (cstr word) ≠ foldCase (cstr other)) : isCommand arg other = false := by
  have folded : foldCase arg = foldCase (cstr word) := by
    simpa [isCommand, strcasecmp_eq_iff] using hit
  simp [isCommand, strcasecmp_eq_iff, folded, apart]

def statusOf : List CString -> Option (CString × CString)
  | arg0 :: id :: value :: _ => if isCommand arg0 "TRACKING" then some (id, value) else none
  | _ => none

inductive LineEffect (now : Int) (ups : Upstype) (list : TrackingList) (arg : List CString) :
    Upstype -> TrackingList -> Prop where
  | data (dumpdone dataOk : Bool) (other : statusOf arg = none) :
      LineEffect now ups list arg { ups with dumpdone, dataOk } list
  | commands (cmdlist : CmdList) (other : statusOf arg = none) :
      LineEffect now ups list arg { ups with cmdlist } list
  | tree (op : StateOp) (other : statusOf arg = none) :
      LineEffect now ups list arg { ups with inforoot := (op.apply now ups.inforoot).1 } list
  | status {id value : CString} (sent : statusOf arg = some (id, value)) :
      LineEffect now ups list arg ups (trackingSet id value list)

theorem lineEffect_ite {now : Int} {ups : Upstype} {list : TrackingList} {arg : List CString} {cond : Prop}
    [Decidable cond] {a b : Upstype × TrackingList × Int} (yes : cond -> LineEffect now ups list arg a.1 a.2.1)
    (no : LineEffect now ups list arg b.1 b.2.1) :
    LineEffect now ups list arg (if cond then a else b).1 (if cond then a else b).2.1 := by
  split
  next hit => exact yes hit
  next => exact no

theorem parseArgs_effect (now : Int) (ups : Upstype) (list : TrackingList) (arg : List CString) :
    LineEffect now ups list arg (parseArgs now ups list arg).1 (parseArgs now ups list arg).2.1 := by
  cases sent : statusOf arg with
  | some status =>
    obtain _ | ⟨arg0, _ | ⟨arg1, _ | ⟨arg2, rest⟩⟩⟩ := arg
    · cases sent
    · cases sent
    · cases sent
    · have hit : isCommand arg0 "TRACKING" = true := by
        by_contra other
        rw [statusOf, if_neg other] at sent
        cases sent
      have other {word : String} (apart : foldCase (cstr "TRACKING") ≠ foldCase (cstr word)) :
          isCommand arg0 word = false := isCommand_other hit apart
      simp only [parseArgs, hit, if_true, other (show _ ≠ foldCase (cstr "PONG") by decide),
        other (show _ ≠ foldCase (cstr "DUMPDONE") by decide), other (show _ ≠ foldCase (cstr "DATASTALE") by decide),
        other (show _ ≠ foldCase (cstr "DATAOK") by decide), other (show _ ≠ foldCase (cstr "ADDCMD") by decide),
        other (show _ ≠ foldCase (cstr "DELCMD") by decide), other (show _ ≠ foldCase (cstr "DELINFO") by decide),
        other (show _ ≠ foldCase (cstr "SETFLAGS") by decide), other (show _ ≠ foldCase (cstr "SETINFO") by decide),
        other (show _ ≠ foldCase (cstr "ADDENUM") by decide), other (show _ ≠ foldCase (cstr "DELENUM") by decide),
        other (show _ ≠ foldCase (cstr "SETAUX") by decide), Bool.false_eq_true, if_false]
      exact .status (if_pos hit)
  | none =>
    have stays : LineEffect now ups list arg ups list := .data ups.dumpdone ups.dataOk sent
    have tree (op : StateOp) : LineEffect now ups list arg { ups with inforoot := (op.apply now ups.inforoot).1 } list :=
      .tree op sent
    cases arg with
    | nil => exact stays
    | cons arg0 args =>
      simp only [parseArgs]
      refine lineEffect_ite (fun _ => stays) ?_
      refine lineEffect_ite (fun _ => .data true _ sent) ?_
      refine lineEffect_ite (fun _ => .data _ false sent) ?_
      refine lineEffect_ite (fun _ => .data _ true sent) ?_
      cases args with
      | nil => exact stays
      | cons arg1 args =>
        refine lineEffect_ite (fun _ => .commands _ sent) ?_
        refine lineEffect_ite (fun _ => .commands _ sent) ?_
        refine lineEffect_ite (fun _ => tree (.delinfo arg1)) ?_
        cases args with
        | nil => exact stays
        | cons arg2 args =>
          refine lineEffect_ite (fun _ => tree (.setflags arg1 (arg2 :: args))) ?_
          refine lineEffect_ite (fun _ => tree (.setinfo arg1 arg2)) ?_
          refine lineEffect_ite (fun _ => tree (.addenum arg1 arg2)) ?_
          refine lineEffect_ite (fun _ => tree (.delenum arg1 arg2)) ?_
          refine lineEffect_ite (fun _ => tree (.setaux arg1 arg2)) ?_
          refine lineEffect_ite (fun hit => .status (if_pos hit)) ?_
          cases args with
          | nil => exact stays
          | cons arg3 rest =>
            refine lineEffect_ite (fun _ => tree (.addrange arg1 _ _)) ?_
            exact lineEffect_ite (fun _ => tree (.delrange arg1 _ _)) stays

theorem sstateLine_cases (now : Int) (s : Upstype × TrackingList) (arg : List CString) :
    ∃ ups list lastHeard, LineEffect now s.1 s.2 arg ups list ∧ sstateLine now s arg = ({ ups with lastHeard }, list) := by
  refine ⟨_, _, if (parseArgs now s.1 s.2 arg).2.2 ≠ 0 then now else (parseArgs now s.1 s.2 arg).1.lastHeard,
    parseArgs_effect now s.1 s.2 arg, ?_⟩
  simp only [sstateLine]
  split <;> rfl

theorem sstateReadline_account (now : Int) (ups : Upstype) (tracking : TrackingList) (buf : CString) :
    SameAccount ups (sstateReadline now ups tracking buf).1 := by
  have lines (words : List (List CString)) (s : Upstype × TrackingList) :
      SameAccount s.1 (words.foldl (sstateLine now) s).1 := by
    induction words generalizing s with
    | nil => exact sameAccount_refl s.1
    | cons arg rest ih =>
      have stamped : SameAccount s.1 (sstateLine now s arg).1 := by
        obtain ⟨_, _, _, effect, same⟩ := sstateLine_cases now s arg
        rw [same]
        cases effect <;> exact ⟨rfl, rfl, rfl⟩
      exact sameAccount_trans stamped (ih (sstateLine now s arg))
  simp only [sstateReadline, readChars_eq]
  exact lines _ (ups, tracking)

theorem quiet_serveDriver (w : Upsd) (name : CString) (event : DriverEvent) : Quiet w (serveDriver w name event) := by
  cases event with
  | quiet => exact quiet_refl w
  | hangup => exact quiet_updateUps w name sameAccount_sstateDisconnect
  | read now buf =>
    simp only [serveDriver]
    split
    next => exact quiet_refl w
    next ups found =>
        split
        · exact quiet_refl w
        · exact ⟨modifyUps_const sameAccount_refl found (sstateReadline_account now ups w.trackingList buf),
            rfl, rfl, rfl, [], by simp [Upsd.updateUps], by simp⟩

theorem quiet_clearRetain (w : Upsd) : Quiet w (clearRetain w) := by
  refine ⟨?_, rfl, rfl, rfl, [], by simp [clearRetain], by simp⟩
  exact List.forall₂_map_right_iff.mpr (List.forall₂_same.mpr fun ups _ => ⟨rfl, rfl, rfl⟩)

theorem quiet_upsUpdate (w : Upsd) (fn name : CString) (desc : Option CString) :
    Quiet w (upsUpdate w fn name desc) := by
  apply quiet_updateUps
  intro ups
  dsimp only
  split <;> exact ⟨rfl, rfl, rfl⟩

end Nut
