import Nut.Server.Relay
import Nut.Server.TrackingTable

set_option autoImplicit false

namespace Nut

def deviceOf : List CString -> CString
  | cmd :: arg0 :: arg1 :: _ => if isCommand cmd "INSTCMD" then arg0 else arg1
  | _ => []

def accepting : Option CString -> Reply
  | some id => .okTracking id
  | none => ok

inductive Disposed (w after : Upsd) (id : Nat) (device line : CString) (trackingId : Option CString) : Prop
  | refused (errtype : String) (sent : Bool) (replies : after.replies = w.replies ++ [(id, .err errtype, sent)])
      (lines : after.lines = w.lines)
  -- The write fails, and the driver is disconnected.
  | lost (ups : Upstype) (errtype : String) (sent : Bool) (found : getUpsPtr w device = some ups)
      (replies : after.replies = w.replies ++ [(id, .err errtype, sent)])
      (lines : after.lines = w.lines ++ [(ups.name, line)])
      (firstups : after.firstups = modifyUps ups.name sstateDisconnect w.firstups)
  | passed (ups : Upstype) (sent : Bool) (found : getUpsPtr w device = some ups)
      (replies : after.replies = w.replies ++ [(id, accepting trackingId, sent)])
      (lines : after.lines = w.lines ++ [(ups.name, line)])

section Disposed

variable {w : Upsd} {id : Nat} {client : Client} {device line : CString} {trackingId : Option CString}

theorem reply_logs (w : Upsd) (id : Nat) (reply : Reply) :
    (w.reply id reply).replies = w.replies ++ [(id, reply, w.nextWrite)] ∧ (w.reply id reply).lines = w.lines ∧
      (w.reply id reply).firstups = w.firstups := by
  unfold Upsd.reply sendback
  cases w.nextWrite <;> exact ⟨rfl, rfl, rfl⟩

theorem disposed_err (errtype : String) : Disposed w (sendErr w id errtype) id device line trackingId :=
  have logs := reply_logs w id (.err errtype)
  .refused errtype w.nextWrite logs.1 logs.2.1

theorem disposed_relay (now : Int) {ups : Upstype} (found : getUpsPtr w device = some ups) (connected : ups.connected = true)
    (failed : String) : Disposed w (relay now w client ups line trackingId failed) client.id device line trackingId := by
  have tracked : (track now w trackingId).replies = w.replies ∧ (track now w trackingId).lines = w.lines ∧
      (track now w trackingId).firstups = w.firstups := by
    cases trackingId with
    | none => exact ⟨rfl, rfl, rfl⟩
    | some tracked => by_cases enabled : w.trackingEnabled = true <;> simp [track, trackingAdd, enabled]
  obtain ⟨replies, lines, firstups⟩ := tracked
  unfold relay sstateSendline
  generalize track now w trackingId = tracked at replies lines firstups
  by_cases written : tracked.nextWrite = true
  · have logs := reply_logs (tracked.writeLine ups line) client.id (accepting trackingId)
    simp only [connected, written, Bool.not_true, Bool.false_eq_true, if_false, if_true]
    cases trackingId <;>
      exact .passed ups _ found (logs.1.trans (congrArg (fun replies => replies ++ _) replies))
        (logs.2.1.trans (congrArg (fun lines => lines ++ _) lines))
  · have logs := reply_logs ((tracked.writeLine ups line).updateUps ups.name sstateDisconnect) client.id (.err failed)
    simp only [connected, written, Bool.not_true, Bool.false_eq_true, if_false]
    exact .lost ups failed _ found (logs.1.trans (congrArg (fun replies => replies ++ _) replies))
      (logs.2.1.trans (congrArg (fun lines => lines ++ _) lines)) (logs.2.2.trans (congrArg (modifyUps ups.name sstateDisconnect) firstups))

theorem disposed_from {v after : Upsd} (replies : v.replies = w.replies) (lines : v.lines = w.lines) (firstups : v.firstups = w.firstups)
    (disposed : Disposed v after id device line trackingId) : Disposed w after id device line trackingId := by
  have known (ups : Upstype) (found : getUpsPtr v device = some ups) : getUpsPtr w device = some ups := by
    rwa [getUpsPtr, <- firstups]
  cases disposed with
  | refused errtype sent replied written => exact .refused errtype sent (replies ▸ replied) (lines ▸ written)
  | lost ups errtype sent found replied written left =>
    exact .lost ups errtype sent (known ups found) (replies ▸ replied) (lines ▸ written) (firstups ▸ left)
  | passed ups sent found replied written => exact .passed ups sent (known ups found) (replies ▸ replied) (lines ▸ written)

theorem disposed_available (serve : Upstype -> Upsd)
    (served : ∀ ups, getUpsPtr w device = some ups -> ups.connected = true -> Disposed w (serve ups) id device line trackingId) :
    Disposed w (withUps w id device fun ups => ifAvailable w id ups (serve ups)) id device line trackingId := by
  unfold withUps ifAvailable
  split
  next => exact disposed_err _
  next ups found =>
    dsimp only
    split
    next => exact disposed_err _
    next open_ =>
      split
      next => exact disposed_err _
      next => exact served ups found (by simpa using open_)

theorem disposed_ite {refusal : Prop} [Decidable refusal] {errtype : String} {after : Upsd}
    (served : Disposed w after id device line trackingId) :
    Disposed w (if refusal then sendErr w id errtype else after) id device line trackingId := by
  split
  · exact disposed_err errtype
  · exact served

theorem disposed_setVar (now : Int) (var newval : CString) :
    Disposed w (setVar now w client device var newval trackingId) client.id device (setCmd var newval trackingId) trackingId := by
  refine disposed_available _ fun ups found connected => ?_
  repeat refine disposed_ite ?_
  exact disposed_relay now found connected _

theorem disposed_sendInstcmd (now : Int) (cmdname : CString) (value : Option CString) :
    Disposed w (sendInstcmd now w client device cmdname value trackingId) client.id device (instcmdCmd cmdname value trackingId)
      trackingId := by
  refine disposed_available _ fun ups found connected => ?_
  repeat refine disposed_ite ?_
  exact disposed_relay now found connected _

theorem disposed_checkCommand (now : Int) (cmd : NetCmd) (arg : List CString)
    (served : Disposed w (cmd.func now w client arg) client.id device line trackingId) :
    Disposed w (checkCommand now cmd w client arg) client.id device line trackingId := by
  unfold checkCommand
  split
  · split
    next => exact disposed_err _
    next => exact disposed_err _
    next => exact disposed_ite served
  · exact served

theorem disposed_parseNet (now : Int) {arglist : List CString} {request : Request} (asked : Request.of arglist = some request) :
    Disposed w (parseNet now w client arglist) client.id (deviceOf arglist) (request.line (newTrackingId w client).1)
      (newTrackingId w client).1 := by
  have started : (newTrackingId w client).2.replies = w.replies ∧ (newTrackingId w client).2.lines = w.lines ∧
      (newTrackingId w client).2.firstups = w.firstups := by
    unfold newTrackingId
    split <;> exact ⟨rfl, rfl, rfl⟩
  obtain ⟨replies, lines, firstups⟩ := started
  unfold Request.of at asked
  split at asked
  next cmd arg0 arg1 args =>
    split at asked
    next isInstcmd =>
      obtain rfl := Option.some.inj asked
      simp only [parseNet_instcmd now w client isInstcmd, deviceOf, isInstcmd, if_true]
      exact disposed_checkCommand now _ _ (disposed_from replies lines firstups (disposed_sendInstcmd now arg1 (cmdparam args)))
    next other =>
      split at asked
      next var newval rest =>
        split at asked
        next isSet =>
          obtain rfl := Option.some.inj asked
          obtain ⟨isSet, isVar⟩ := Bool.and_eq_true_iff.mp isSet
          simp only [parseNet_set now w client isSet, deviceOf, other]
          refine disposed_checkCommand now _ _ ?_
          simp only [netSet, isVar, if_true]
          exact disposed_from replies lines firstups (disposed_setVar now var newval)
        next => cases asked
      next => cases asked
  next => cases asked

theorem answers_request (now : Int) (found : w.findClient id = some client) {arglist : List CString} {request : Request}
    (asked : Request.of arglist = some request) :
    Disposed w (serveLine now id w arglist) id (deviceOf arglist) (request.line (newTrackingId w client).1)
      (newTrackingId w client).1 := by
  obtain ⟨-, rfl⟩ := findClient_spec found
  have heard : (newTrackingId (w.updateClient client.id (Client.hear now)) (client.hear now)).1 = (newTrackingId w client).1 := by
    by_cases tracking : client.tracking = true <;> simp [newTrackingId, Client.hear, Upsd.updateClient, tracking]
  have disposed := @disposed_parseNet (w.updateClient client.id (Client.hear now)) (client.hear now) now arglist request asked
  rw [serveLine_found now found]
  rw [heard] at disposed
  refine disposed_from ?_ ?_ ?_ disposed <;> rfl

end Disposed

def acceptedAs (reply : Reply) : Option (Option CString) :=
  match reply with
  | .okTracking id => some (some id)
  | reply => if reply = ok then some none else none

theorem acceptedAs_accepting (trackingId : Option CString) : acceptedAs (accepting trackingId) = some trackingId := by
  cases trackingId <;> simp [acceptedAs, accepting, ok]

def Action.accepts (w : Upsd) (upsname : CString) : Action -> Option (Request × Option CString)
  | .command id now arglist =>
    if strcasecmp (deviceOf arglist) upsname = .eq then
      (Request.of arglist).bind fun request =>
        ((replyTo w (.command id now arglist)).bind acceptedAs).map fun trackingId => (request, trackingId)
    else none
  | _ => none

def Upsd.linesTo (w after : Upsd) (upsname : CString) : List CString :=
  ((after.lines.drop w.lines.length).filter fun line => strcasecmp line.1 upsname = .eq).map Prod.snd

end Nut
