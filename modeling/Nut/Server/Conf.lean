import Mathlib.Logic.Function.Iterate
import Nut.Server.Upsd

set_option autoImplicit false

namespace Nut

structure UpsEntry where
  upsname : CString
  driver : Option CString
  port : Option CString
  desc : Option CString
  deriving DecidableEq, Repr

def setEntry (var : CString) (val : Option CString) (entry : UpsEntry) : UpsEntry :=
  if var = cstr "driver" then { entry with driver := val }
  else if var = cstr "port" then { entry with port := val }
  else if var = cstr "desc" then { entry with desc := val }
  else entry

-- One setting of ups.conf; `none` for the section stands for what comes before the first header.
def doUpsconfArgs (upstable : List UpsEntry) (setting : Option CString × CString × Option CString) :
    List UpsEntry :=
  match setting with
  | (none, _, _) => upstable
  | (some upsname, var, val) =>
    if upstable.any fun entry => entry.upsname == upsname then
      upstable.map fun entry => if entry.upsname = upsname then setEntry var val entry else entry
    else
      setEntry var val { upsname := upsname, driver := none, port := none, desc := none } :: upstable

def Upsd.connectDriver (now : Int) (up : Bool) (w : Upsd) (ups : Upstype) : Upsd × Upstype :=
  if up then
    let w' := w.writeLine ups (cstr "DUMPALL\n")
    if w.nextWrite then (w', sstateConnect now ups) else (w', ups)
  else (w, ups)

section Reading

variable (now : Int) (up : CString -> Bool)

def upsCreate (w : Upsd) (fn name : CString) (desc : Option CString) : Upsd :=
  if w.firstups.any fun temp => strcasecmp temp.name name == .eq then w
  else
    let temp : Upstype :=
      { name, fn, desc, connected := false, stale := true, dumpdone := false, dataOk := false,
        lastHeard := 0, lastPing := 0, sockCtx := pconfInit, inforoot := .nil, cmdlist := [],
        numlogins := 0, fsd := false, retain := true }
    let (w, temp) := w.connectDriver now (up name) temp
    { w with firstups := { temp with lastHeard := now } :: w.firstups }

def upsUpdate (w : Upsd) (fn name : CString) (desc : Option CString) : Upsd :=
  w.updateUps name fun temp =>
    -- Another file name forces a reconnect.
    let temp :=
      if temp.fn ≠ fn then
        { temp with inforoot := .nil, cmdlist := [], connected := false, dumpdone := false, fn }
      else temp
    { temp with desc, retain := true }

def upsconfAddEntry (reloading : Bool) (w : Upsd) (entry : UpsEntry) : Upsd :=
  match entry.driver, entry.port with
  | some driver, some _ =>
    let statefn := driver ++ cstr "-" ++ entry.upsname
    if reloading && (getUpsPtr w entry.upsname).isSome then
      upsUpdate w statefn entry.upsname entry.desc
    else upsCreate now up w statefn entry.upsname entry.desc
  | _, _ => w

def upsconfAdd (reloading : Bool) (upstable : List UpsEntry) (w : Upsd) : Upsd :=
  upstable.foldl (upsconfAddEntry now up reloading) w

end Reading

def deleteUps (w : Upsd) (name : CString) : Upsd :=
  let w := kickLoginClients w name
  { w with firstups := w.firstups.filter fun ups => ups.name ≠ name }

-- How `fopen` fares: how often it fails with EMFILE, and whether it succeeds after that.
structure Opening where
  emfile : Nat
  found : Bool
  deriving DecidableEq, Repr

def closeOldest (count : Nat) (w : Upsd) : Upsd :=
  closeOldestClient^[count] w

-- Ten times a client makes room, then EMFILE is as bad as any other error.
def checkFile (opening : Opening) (w : Upsd) : Upsd × Bool :=
  (closeOldest (min opening.emfile 10) w, opening.emfile ≤ 10 && opening.found)

structure Reload where
  upsdConf : Opening
  -- A second failure to open ups.conf ends upsd.
  upsConfEmfile : Bool
  settings : List (Option CString × CString × Option CString)
  upsdConfAgain : Opening
  maxage : Int
  trackingDelay : Int
  upsdUsers : Opening
  users : List User

def loadUpsdconf (r : Reload) (w : Upsd) : Upsd :=
  let w := closeOldest r.upsdConfAgain.emfile w
  if r.upsdConfAgain.found then { w with maxage := r.maxage, trackingDelay := r.trackingDelay } else w

def dropUnretained (w : Upsd) : Upsd :=
  w.firstups.foldl (fun w ups => if ups.retain then w else deleteUps w ups.name) w

def clearRetain (w : Upsd) : Upsd :=
  { w with firstups := w.firstups.map fun ups => { ups with retain := false } }

def rereadConf (now : Int) (up : CString -> Bool) (r : Reload) (w : Upsd) : Upsd :=
  let w := closeOldest r.upsConfEmfile.toNat (clearRetain w)
  let w := upsconfAdd now up true (r.settings.foldl doUpsconfArgs []) w
  dropUnretained (loadUpsdconf r w)

def confReload (now : Int) (up : CString -> Bool) (r : Reload) (w : Upsd) : Upsd :=
  match checkFile r.upsdConf w with
  | (w, false) => w
  | (w, true) =>
    match checkFile r.upsdUsers (rereadConf now up r w) with
    | (w, false) => w
    | (w, true) => { w with users := r.users }

end Nut
