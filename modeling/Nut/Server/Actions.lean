import Nut.Server.Mainloop

set_option autoImplicit false

namespace Nut

-- The steps that a pass of `mainloop` is made of. The commands of one read are one action each.
inductive Action where
  | reload (now : Int) (up : CString -> Bool) (r : Reload)
  | trackingCleanup (now : Int)
  | scanDriver (now : Int) (up : CString -> Bool) (name : CString)
  | scanClients (now : Int)
  | driver (name : CString) (event : DriverEvent)
  | disconnect (id : Nat)
  | command (id : Nat) (now : Int) (arglist : List CString)
  | parsed (id : Nat) (ctx : PconfCtx)
  | connect (now : Int) (addr : CString)

def perform (w : Upsd) : Action -> Upsd
  | .reload now up r => confReload now up r w
  | .trackingCleanup now => trackingCleanup now w
  | .scanDriver now up name => scanDriver now up w name
  | .scanClients now => scanClients now w
  | .driver name event => serveDriver w name event
  | .disconnect id => clientDisconnect w id
  | .command id now arglist => serveLine now id w arglist
  | .parsed id ctx => w.updateClient id fun client => { client with ctx }
  | .connect now addr => clientConnect now addr w

def clientScript (event : Nat -> ClientEvent) (id : Nat) (w : Upsd) : List Action :=
  match event id with
  | .quiet => []
  | .hangup => [.disconnect id]
  | .read now ret =>
    match ret, w.findClient id with
    | none, _ | some [], _ => [.disconnect id]
    | some _, none => []
    | some buf, some client =>
      (readLines client.ctx buf).map (.command id now) ++ [.parsed id (readCtx client.ctx buf)]

def scanScript (pass : Pass) : Upsd -> List Action :=
  thenScript perform
    (fun _ => (match pass.reload with
      | some r => [.reload pass.now pass.up r]
      | none => []) ++ [.trackingCleanup pass.now])
    (thenScript perform (fun w => w.firstups.map fun ups => .scanDriver pass.now pass.up ups.name)
      (fun _ => [.scanClients pass.now]))

def serveScript (pass : Pass) : Upsd -> List Action :=
  thenScript perform (fun w => w.firstups.map fun ups => .driver ups.name (pass.driver ups.name))
    (thenScript perform
      (fun w => eachScript perform (clientScript pass.client) (w.firstclient.map Client.id) w)
      (fun _ => pass.accepted.map fun connection => .connect connection.1 connection.2))

def passScript (pass : Pass) : Upsd -> List Action :=
  thenScript perform (scanScript pass) (serveScript pass)

def runActions (passes : List Pass) (start : Upsd) : List Action :=
  eachScript perform passScript passes start

def Action.Of (pass : Pass) : Action -> Prop
  | .reload _ _ r => pass.reload = some r
  | .scanClients now => pass.now = now
  | _ => True

theorem of_scanScript {pass : Pass} {w : Upsd} {act : Action} (member : act ∈ scanScript pass w) :
    act.Of pass := by
  simp only [scanScript, thenScript, List.mem_append, List.mem_map, List.mem_singleton] at member
  obtain (reload | rfl) | ⟨ups, _, rfl⟩ | rfl := member
  · cases found : pass.reload with
    | none => simp [found] at reload
    | some r =>
      obtain rfl : act = _ := by simpa [found] using reload
      exact found
  · trivial
  · trivial
  · rfl

theorem of_clientScript {pass : Pass} {event : Nat -> ClientEvent} {id : Nat} {w : Upsd} {act : Action}
    (member : act ∈ clientScript event id w) : act.Of pass := by
  unfold clientScript at member
  repeat' split at member
  all_goals
    simp only [List.mem_append, List.mem_map, List.mem_singleton, List.not_mem_nil] at member
  · obtain rfl := member
    trivial
  · obtain rfl := member
    trivial
  · obtain rfl := member
    trivial
  · obtain ⟨_, _, rfl⟩ | rfl := member <;> trivial

theorem mem_runActions {passes : List Pass} {start : Upsd} {act : Action}
    (member : act ∈ runActions passes start) : ∃ pass ∈ passes, act.Of pass := by
  have always (w : Upsd) (act : Action) (_ : True) : True := trivial
  obtain ⟨pass, inside, w, _, here⟩ := mem_eachScript always trivial member
  refine ⟨pass, inside, ?_⟩
  simp only [passScript, serveScript, thenScript, List.mem_append, List.mem_map] at here
  obtain scanned | ⟨ups, _, rfl⟩ | served | ⟨connection, _, rfl⟩ := here
  · exact of_scanScript scanned
  · trivial
  · obtain ⟨id, _, w, _, served⟩ := mem_eachScript always trivial served
    exact of_clientScript served
  · trivial

end Nut
