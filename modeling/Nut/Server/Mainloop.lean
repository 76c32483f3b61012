import Nut.Library.Runs
import Nut.Server.Conf
import Nut.Server.NetSet

set_option autoImplicit false

namespace Nut

def clientReadline (now : Int) (w : Upsd) (id : Nat) (ret : Option CString) : Upsd :=
  match ret, w.findClient id with
  | none, _ | some [], _ => clientDisconnect w id
  | some _, none => w
  | some buf, some client =>
    let (ctx, w) := readChars (serveLine now id) (client.ctx, w) buf
    w.updateClient id fun client => { client with ctx }

-- The scan of the client sockets sheds clients after a minute of inactivity.
def scanClients (now : Int) (w : Upsd) : Upsd :=
  w.firstclient.foldl (fun w client =>
    if now - client.lastHeard > 60 then clientDisconnect w client.id else w) w

def sendping (now : Int) (w : Upsd) (ups : Upstype) : Upsd :=
  match sstateSendline w ups (cstr "PING\n") with
  | (w, false) => w
  | (w, true) => w.updateUps ups.name fun ups => { ups with lastPing := now }

-- The pause before a ping is a third of `maxage`, in whole seconds.
def sstateDead (now : Int) (w : Upsd) (ups : Upstype) : Upsd × Bool :=
  if !ups.connected then (w, true)
  else
    let elapsed := now - ups.lastHeard
    let w :=
      if elapsed > w.maxage.tdiv 3 ∧ now - ups.lastPing > w.maxage.tdiv 3 then sendping now w ups else w
    (w, if elapsed > w.maxage + 1 then true
        else if elapsed > w.maxage then false
        else ups.dumpdone && !ups.dataOk)

def scanDriver (now : Int) (up : CString -> Bool) (w : Upsd) (name : CString) : Upsd :=
  match getUpsPtr w name with
  | none => w
  | some ups =>
    let (w, ups) :=
      if ups.connected then (w, ups)
      else
        let (w, ups) := w.connectDriver now (up name) ups
        (w.updateUps name fun _ => ups, ups)
    if !ups.connected then w
    else
      let (w, dead) := sstateDead now w ups
      w.updateUps name fun ups => { ups with stale := dead }

inductive DriverEvent where
  | quiet
  | hangup
  | read (now : Int) (buf : CString)

inductive ClientEvent where
  | quiet
  | hangup
  | read (now : Int) (ret : Option CString)

-- What one pass of `mainloop` meets outside.
structure Pass where
  now : Int
  reload : Option Reload
  up : CString -> Bool
  driver : CString -> DriverEvent
  client : Nat -> ClientEvent
  accepted : List (Int × CString)

def serveDriver (w : Upsd) (name : CString) : DriverEvent -> Upsd
  | .quiet => w
  | .hangup => w.updateUps name sstateDisconnect
  | .read now buf =>
    match getUpsPtr w name with
    | none => w
    | some ups =>
      if !ups.connected then w
      else
        let (ups, trackingList) := sstateReadline now ups w.trackingList buf
        { w.updateUps name fun _ => ups with trackingList }

def serveClient (w : Upsd) (id : Nat) : ClientEvent -> Upsd
  | .quiet => w
  | .hangup => clientDisconnect w id
  | .read now ret => clientReadline now w id ret

def mainloop (w : Upsd) (pass : Pass) : Upsd :=
  let w := match pass.reload with
    | some r => confReload pass.now pass.up r w
    | none => w
  let w := trackingCleanup pass.now w
  let w := (w.firstups.map Upstype.name).foldl (scanDriver pass.now pass.up) w
  let w := scanClients pass.now w
  -- Each socket that was polled is served once: drivers, then clients, then new connections.
  let w := (w.firstups.map Upstype.name).foldl (fun w name => serveDriver w name (pass.driver name)) w
  let w := (w.firstclient.map Client.id).foldl (fun w id => serveClient w id (pass.client id)) w
  pass.accepted.foldl (fun w connection => clientConnect connection.1 connection.2 w) w

end Nut
