import Nut.Server.Tracking
import Nut.Server.Trees

set_option autoImplicit false

namespace Nut

def Asks (arglist : List CString) (cmd kind : String) (args : List CString) : Prop :=
  ∃ arg0 arg1 rest, arglist = arg0 :: arg1 :: (args ++ rest) ∧ isCommand arg0 cmd = true ∧ isCommand arg1 kind = true

def repliesTo (w : Upsd) (act : Action) : List (Nat × Reply × Bool) :=
  (perform w act).replies.drop w.replies.length

def delivered (id : Nat) : List Bool -> List Reply -> List (Nat × Reply × Bool)
  | _, [] => []
  | writes, reply :: rest =>
    if writes.headD true then (id, reply, true) :: delivered id writes.tail rest else [(id, reply, false)]

def varLine (upsname : CString) (fsd : Bool) (node : StNode) : Reply :=
  if fsd ∧ isCommand node.var "ups.status" then .valueFsd upsname node.var node.val
  else .value "VAR" upsname node.var node.val

def rwLine (upsname : CString) (node : StNode) : Reply :=
  .value "RW" upsname node.var node.val

def listing (what : String) (upsname : CString) (lines : List Reply) : List Reply :=
  .beginList what [upsname] :: lines ++ [.endList what [upsname]]

section Sending

variable {w : Upsd} {id : Nat}

theorem sendAll_append (w : Upsd) (id : Nat) (first second : List Reply) : sendAll w id (first ++ second) =
      if (sendAll w id first).2 then sendAll (sendAll w id first).1 id second else sendAll w id first := by
  induction first generalizing w with
  | nil => rfl
  | cons reply rest ih =>
    rw [List.cons_append, sendAll, sendAll]
    cases sendback w id reply with
    | mk w' sent =>
      cases sent with
      | true => exact ih w'
      | false => rfl

theorem treeDump_eq (id : Nat) (upsname : CString) (rw_ fsd : Bool) (t : StTree) (w : Upsd) :
    treeDump id upsname rw_ fsd t w = sendAll w id (t.toList.flatMap (dumpNode upsname rw_ fsd)) := by
  induction t generalizing w with
  | nil => rfl
  | node left node right left_ih right_ih =>
    rw [SearchTree.toList_node, List.flatMap_append, List.flatMap_cons, sendAll_append, sendAll_append, treeDump,
      left_ih]
    cases sendAll w id (left.toList.flatMap (dumpNode upsname rw_ fsd)) with
    | mk w' sent =>
      cases sent with
      | false => rfl
      | true =>
        simp only [if_true]
        cases sendAll w' id (dumpNode upsname rw_ fsd node) with
        | mk w'' sent =>
          cases sent with
          | false => rfl
          | true => exact right_ih w''

theorem sendList_eq (w : Upsd) (client : Client) (what : String) (names : List CString) (lines : List Reply) :
    sendList w client what names (fun w => sendAll w client.id lines) =
      (sendAll w client.id (.beginList what names :: lines ++ [.endList what names])).1 := by
  rw [sendList, List.cons_append, sendAll]
  cases sendback w client.id (.beginList what names) with
  | mk w' sent =>
    cases sent with
    | false => rfl
    | true =>
      dsimp only
      rw [sendAll_append]
      cases sendAll w' client.id lines with
      | mk w'' sent =>
        cases sent with
        | false => rfl
        | true =>
          simp only [if_true, Upsd.reply, sendAll]
          cases sendback w'' client.id (.endList what names) with
          | mk w''' sent => cases sent <;> rfl

theorem sendAll_single (w : Upsd) (id : Nat) (reply : Reply) : (sendAll w id [reply]).1 = w.reply id reply := by
  rw [sendAll, Upsd.reply]
  cases sendback w id reply with
  | mk w' sent => cases sent <;> rfl

theorem sendAll_replies (w : Upsd) (id : Nat) (lines : List Reply) :
    (sendAll w id lines).1.replies = w.replies ++ delivered id w.writes lines := by
  induction lines generalizing w with
  | nil => exact (List.append_nil _).symm
  | cons reply rest ih =>
    cases written : w.nextWrite with
    | true =>
      have head : w.writes.headD true = true := written
      rw [sendAll, sendback, written, delivered, head]
      simp only [if_true, ih, List.append_assoc, List.singleton_append]
    | false =>
      have head : w.writes.headD true = false := written
      rw [sendAll, sendback, written, delivered, head]
      rfl

theorem delivered_all {writes : List Bool} (written : ∀ ok ∈ writes, ok = true) (lines : List Reply) :
    delivered id writes lines = lines.map fun reply => (id, reply, true) := by
  induction lines generalizing writes with
  | nil => rfl
  | cons reply rest ih =>
    have head : writes.headD true = true := by
      cases writes with
      | nil => rfl
      | cons ok rest => exact written ok List.mem_cons_self
    rw [delivered, if_pos head, ih fun ok member => written ok (List.mem_of_mem_tail member), List.map_cons]

end Sending

section Commands

variable {w : Upsd} {client : Client} {id : Nat} {now : Int} {upsname : CString} {ups : Upstype} {arglist : List CString}

theorem repliesTo_eq {lines : List Reply}
    (served : serveLine now id w arglist = (sendAll (w.updateClient id (Client.hear now)) id lines).1) :
    repliesTo w (.command id now arglist) = delivered id w.writes lines := by
  rw [repliesTo, perform, served, sendAll_replies]
  exact List.drop_left

theorem dumpNode_var (upsname : CString) (fsd : Bool) (nodes : List StNode) :
    nodes.flatMap (dumpNode upsname false fsd) = nodes.map (varLine upsname fsd) := by
  induction nodes with
  | nil => rfl
  | cons node rest ih =>
    rw [List.flatMap_cons, ih, List.map_cons, dumpNode, varLine]
    simp only [Bool.false_eq_true, if_false]
    split <;> rfl

theorem dumpNode_rw (upsname : CString) (fsd : Bool) (nodes : List StNode) : nodes.flatMap (dumpNode upsname true fsd) =
      (nodes.filter fun node => node.flags &&& stFlagRw ≠ 0).map (rwLine upsname) := by
  induction nodes with
  | nil => rfl
  | cons node rest ih =>
    rw [List.flatMap_cons, ih, List.filter_cons, dumpNode, if_pos rfl]
    by_cases writable : node.flags &&& stFlagRw ≠ 0
    · rw [if_pos writable, if_pos (decide_eq_true writable)]
      rfl
    · rw [if_neg writable, if_neg (by simpa using writable)]
      rfl

theorem netList_listVar (known : getUpsPtr w upsname = some ups) (connected : ups.connected = true)
    (fresh : ups.stale = false) {kind : CString} (isVar : isCommand kind "VAR" = true) (rest : List CString) :
    netList w client (kind :: upsname :: rest) =
      (sendAll w client.id (listing "VAR" upsname (ups.inforoot.toList.map (varLine upsname ups.fsd)))).1 := by
  have notUps : isCommand kind "UPS" = false := isCommand_other isVar (by decide)
  simp only [netList, notUps, isVar, listVar, withUps, known, ifAvailable, connected, fresh, Bool.not_true,
    Bool.false_eq_true, if_false, if_true]
  rw [funext (treeDump_eq client.id upsname false ups.fsd ups.inforoot), dumpNode_var]
  exact sendList_eq w client "VAR" [upsname] _

theorem netList_listRw (known : getUpsPtr w upsname = some ups) (connected : ups.connected = true)
    (fresh : ups.stale = false) {kind : CString} (isRw : isCommand kind "RW" = true) (rest : List CString) :
    netList w client (kind :: upsname :: rest) = (sendAll w client.id (listing "RW" upsname
        ((ups.inforoot.toList.filter fun node => node.flags &&& stFlagRw ≠ 0).map (rwLine upsname)))).1 := by
  have notUps : isCommand kind "UPS" = false := isCommand_other isRw (by decide)
  have notVar : isCommand kind "VAR" = false := isCommand_other isRw (by decide)
  simp only [netList, notUps, notVar, isRw, listRw, withUps, known, ifAvailable, connected, fresh, Bool.not_true,
    Bool.false_eq_true, if_false, if_true]
  rw [funext (treeDump_eq client.id upsname true ups.fsd ups.inforoot), dumpNode_rw]
  exact sendList_eq w client "RW" [upsname] _

theorem netGet_getVar (known : getUpsPtr w upsname = some ups) (connected : ups.connected = true)
    (fresh : ups.stale = false) {kind : CString} (isVar : isCommand kind "VAR" = true) {node : StNode}
    (value : stateTreeFind ups.inforoot node.var = some node) (plain : isCommand (node.var.take 7) "server." = false)
    (rest : List CString) : netGet w client (kind :: upsname :: node.var :: rest) =
      (sendAll w client.id [varLine upsname ups.fsd node]).1 := by
  have notTracking : isCommand kind "TRACKING" = false := isCommand_other isVar (by decide)
  have notNumlogins : isCommand kind "NUMLOGINS" = false := isCommand_other isVar (by decide)
  have notUpsdesc : isCommand kind "UPSDESC" = false := isCommand_other isVar (by decide)
  have info : stateGetinfo ups.inforoot node.var = some node.val := by
    rw [stateGetinfo, value]
    rfl
  simp only [netGet, notTracking, notNumlogins, notUpsdesc, isVar, getVar, plain, withUps, known, ifAvailable, connected,
    fresh, info, Bool.not_true, Bool.false_eq_true, if_false, if_true, sendAll_single, varLine]
  simp only [and_comm]
  split <;> rfl

theorem repliesTo_list (found : w.findClient client.id = some client) {arg0 : CString}
    (list : isCommand arg0 "LIST" = true) {arg : List CString} {lines : List Reply}
    (served : netList (w.updateClient client.id (Client.hear now)) (client.hear now) arg =
      (sendAll (w.updateClient client.id (Client.hear now)) client.id lines).1) :
    repliesTo w (.command client.id now (arg0 :: arg)) = delivered client.id w.writes lines := by
  have entry : (netcmds.find? fun cmd => isCommand (cstr "LIST") cmd.name) = some ⟨"LIST", fun _ => netList, false⟩ := rfl
  apply repliesTo_eq
  rw [serveLine_found now found, parseNet_find now _ _ list entry]
  exact served

theorem repliesTo_get (found : w.findClient client.id = some client) {arg0 : CString}
    (get : isCommand arg0 "GET" = true) {arg : List CString} {lines : List Reply}
    (served : netGet (w.updateClient client.id (Client.hear now)) (client.hear now) arg =
      (sendAll (w.updateClient client.id (Client.hear now)) client.id lines).1) :
    repliesTo w (.command client.id now (arg0 :: arg)) = delivered client.id w.writes lines := by
  have entry : (netcmds.find? fun cmd => isCommand (cstr "GET") cmd.name) = some ⟨"GET", fun _ => netGet, false⟩ := rfl
  apply repliesTo_eq
  rw [serveLine_found now found, parseNet_find now _ _ get entry]
  exact served

end Commands

def listedBlank : Upsd :=
  { sampleUpsd with firstups := [] }

def listedSettings : List (Option CString × CString × Option CString) :=
  [(some (cstr "ups"), cstr "driver", some (cstr "dummy-ups")), (some (cstr "ups"), cstr "port", some (cstr "auto"))]

def listedStart : Upsd :=
  upsconfAdd 1000 (fun _ => true) false (listedSettings.foldl doUpsconfArgs []) listedBlank

def listedActions : List Action :=
  [.driver (cstr "ups") (.read 1001 (cstr "SETINFO ups.model x\nSETINFO Server.x 1\n")), .connect 1002 (cstr "::1")]

def listedUpsd : Upsd :=
  listedActions.foldl perform listedStart

def listedUps : Upstype :=
  (getUpsPtr listedUpsd (cstr "ups")).get (by decide +kernel)

def listedClient : Client :=
  { id := 0, addr := cstr "::1", lastHeard := 1002, loginups := none, password := none, username := none,
    tracking := false, ctx := pconfInit }

end Nut
