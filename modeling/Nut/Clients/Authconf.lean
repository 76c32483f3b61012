import Nut.Common.ParseConfFile

set_option autoImplicit false

namespace Nut.Nutauth

def nutPort : CString := cstr "3493"

def nutPathMax : Nat := smallbuf

@[ext] structure AuthconfItem where
  section_ : Option CString
  user : Option CString
  pass : Option CString
  certpath : Option CString
  certfile : Option CString
  certident : Option CString
  certpasswd : Option CString
  sslBackend : Option CString
  certhost : Option CString
  certverify : Int
  forcessl : Int
  deriving DecidableEq

def createAuthconfItem (section_ : Option CString) : AuthconfItem :=
  { section_, user := none, pass := none, certpath := none, certfile := none, certident := none, certpasswd := none,
    sslBackend := none, certhost := none, certverify := -1, forcessl := -1 }

def titleUser (title : CString) : Option CString :=
  match title.idxOf? 64 with
  | some (at_ + 1) => some (title.take (at_ + 1))
  | _ => none

def cloneAuthconfItem (source : AuthconfItem) (title : CString) : AuthconfItem :=
  { source with section_ := some title, user := (titleUser title).or source.user }

def mergeInt (source target : Int) : Int :=
  if target < 0 ∧ 0 ≤ source then source else target

def mergeAuthconfItem (source : Option AuthconfItem) (target : AuthconfItem) (title : CString) : AuthconfItem :=
  match source with
  | none => target
  | some source =>
    { section_ := some title
      user := (titleUser title).or (target.user.or source.user)
      pass := target.pass.or source.pass
      certpath := target.certpath.or source.certpath
      certfile := target.certfile.or source.certfile
      certident := target.certident.or source.certident
      certpasswd := target.certpasswd.or source.certpasswd
      sslBackend := target.sslBackend.or source.sslBackend
      certhost := target.certhost.or source.certhost
      certverify := mergeInt source.certverify target.certverify
      forcessl := mergeInt source.forcessl target.forcessl }

abbrev Services := CString -> Option UInt16

structure Parts where
  title : CString
  fixedUser : Bool
  host : CString
  port : CString

def normalizeAuthconfSectionParts (services : Services) (user host port : Option CString) : Parts :=
  let host := match host with
    | none | some [] => cstr "localhost"
    | some host => host
  let port := match port with
    | none | some [] => nutPort
    | some port =>
      if port.all isdigit then port
      else match services port with
        | some number => printInt number.toNat
        | none => port
  { title := snprintf largebuf (user.getD [] ++ 64 :: host ++ 58 :: port)
    fixedUser := user.getD [] ≠ []
    host, port }

def before : Option Nat -> Option Nat -> Bool
  | some i, some j => i < j
  | _, _ => false

def strchrFrom (title : CString) (b : UInt8) (i : Nat) : Option Nat :=
  ((title.drop i).idxOf? b).map (· + i)

def portColon (title : CString) : Option (Option Nat) :=
  let at_ := title.idxOf? 64
  let colon := title.idxOf? 58
  let bracketOpen := title.idxOf? 91
  let bracketClose := title.idxOf? 93
  let second := colon.bind fun colon => strchrFrom title 58 (colon + 1)
  if title = [] || before colon at_ || before colon bracketOpen || bracketOpen.isSome != bracketClose.isSome ||
      before bracketClose colon || (bracketClose.isSome && colon.isNone) ||
      (before bracketOpen colon && before colon bracketClose && (second.isNone || before bracketClose second)) then none
  else
    let colon := match bracketClose with
      | some close => strchrFrom title 58 (close + 1)
      | none => colon
    let again (b : UInt8) (i : Option Nat) := (i.bind fun i => strchrFrom title b (i + 1)).isSome
    if again 58 colon || again 91 bracketOpen || again 93 bracketClose then none else some colon

def splitAuthconfSection (services : Services) (sectName : CString) : Option (Parts × Option CString) :=
  match portColon sectName with
  | none => none
  | some colon =>
    let user := titleUser sectName
    let beforeColon := match colon with
      | some colon => sectName.take colon
      | none => sectName
    let host := match sectName.idxOf? 64 with
      | some at_ => if some (at_ + 1) ≠ colon then some (beforeColon.drop (at_ + 1)) else none
      -- without an `@` too the colon is looked for behind the first character
      | none => if some 1 ≠ colon then some beforeColon else none
    let port := colon.bind fun colon => if sectName.length = colon + 1 then none else some (sectName.drop (colon + 1))
    some (normalizeAuthconfSectionParts services user host port, user)

structure HostCert where
  host : CString
  port : UInt16
  certhost : CString
  certverify : Int
  forcessl : Int
  deriving DecidableEq

structure Authconf where
  list : List AuthconfItem
  currentSection : Option Nat
  globalDefaults : Option Nat
  currentSectionWithFixedUsername : Bool
  currentSectionIgnored : Bool
  hostCerts : List HostCert
  deriving DecidableEq

def setSwitch (val : CString) (before : Int) : Int :=
  if strcasecmp val (cstr "on") = .eq ∨ strcasecmp val (cstr "yes") = .eq ∨ val = cstr "1" then 1
  else if strcasecmp val (cstr "off") = .eq ∨ strcasecmp val (cstr "no") = .eq ∨ val = cstr "0" then 0
  else before

def isUser (var : CString) : Bool :=
  strcasecmp var (cstr "user") = .eq ∨ strcasecmp var (cstr "username") = .eq

def setAuthconfVal (fixedUsername : Bool) (var : CString) (val : Option CString) (conf : AuthconfItem) : AuthconfItem :=
  if isUser var then
    if fixedUsername ∧ conf.user ≠ none ∧ conf.user ≠ val then conf else { conf with user := val }
  else if strcasecmp var (cstr "pass") = .eq ∨ strcasecmp var (cstr "password") = .eq then { conf with pass := val }
  else if var = cstr "CERTPATH" then { conf with certpath := val }
  else if var = cstr "CERTFILE" then { conf with certfile := val }
  else if var = cstr "CERTIDENT_NAME" then { conf with certident := val }
  else if var = cstr "CERTIDENT_PASS" then { conf with certpasswd := val }
  else if var = cstr "SSLBACKEND" then { conf with sslBackend := val }
  else if var = cstr "CERTHOST" then { conf with certhost := val }
  else if var = cstr "CERTVERIFY" then
    match val with
    | some val => { conf with certverify := setSwitch val conf.certverify }
    | none => conf
  else if var = cstr "FORCESSL" then
    match val with
    | some val => { conf with forcessl := setSwitch val conf.forcessl }
    | none => conf
  else conf

inductive Stop where
  -- `fatalx` or `exit`
  | exit
  | tooDeep
  deriving DecidableEq

variable (services : Services)

def Authconf.item (st : Authconf) (place : Option Nat) : Option AuthconfItem :=
  place.bind (st.list[·]?)

def Authconf.editDefaults (st : Authconf) : Authconf × Nat :=
  match st.globalDefaults with
  | some i => (st, i)
  | none =>
    ({ st with list := st.list ++ [createAuthconfItem none], globalDefaults := some st.list.length }, st.list.length)

def Authconf.setVal (var : CString) (val : Option CString) (st : Authconf) : Authconf :=
  let edited := match st.currentSection with
    | some i => (st, i)
    | none => st.editDefaults
  { edited.1 with
    list := edited.1.list.modify edited.2 (setAuthconfVal st.currentSectionWithFixedUsername var val) }

def finishSection (st : Authconf) : Authconf :=
  match st.item st.currentSection with
  | none => st
  | some current =>
    match current.section_, current.certhost with
    | some title, some (b :: certhost) =>
      match splitAuthconfSection services title with
      | none => st
      | some (parts, _) =>
        let st := { st with currentSectionWithFixedUsername := parts.fixedUser }
        if parts.host ≠ [] ∧ parts.port ≠ [] then
          let cert : HostCert :=
            { host := parts.host
              port := (strtol parts.port).toUInt64.toUInt16
              certhost := b :: certhost
              certverify := current.certverify
              forcessl := current.forcessl }
          { st with hostCerts := st.hostCerts ++ [cert] }
        else st
    | _, _ => st

def enterSection (globalScope : Bool) (sectName : CString) (st : Authconf) : Except Stop Authconf :=
  match splitAuthconfSection services sectName with
  | none => .error .exit
  | some (parts, user) =>
    let st := { st with currentSectionWithFixedUsername := parts.fixedUser }
    if !globalScope && (st.item st.currentSection).any (·.section_ ≠ some parts.title) then .ok { st with currentSectionIgnored := true }
    else
      match st.list.findIdx? fun item => item.section_ = some parts.title with
      | some i => .ok { st with currentSection := some i }
      | none =>
        .ok { st with
          list := st.list ++ [{ createAuthconfItem (some parts.title) with user := if parts.fixedUser then user else none }]
          currentSection := some st.list.length }

def handleAuthconfArgs (parseInclude : CString -> Bool -> Bool -> Authconf -> Except Stop Authconf) (globalScope : Bool)
    (st : Authconf) (arg : List CString) : Except Stop Authconf :=
  match arg with
  | [] => .ok st
  | var :: rest =>
    if var.head? = some 91 ∧ var.getLast? = some 93 then
      let st := { finishSection services st with currentSectionIgnored := false }
      -- the bracket is still there
      if var.tail = cstr "_global_defaults" then
        .ok (if globalScope then { st with currentSection := none } else { st with currentSectionIgnored := true })
      else enterSection services globalScope var.tail.dropLast st
    else if st.currentSectionIgnored then .ok st
    else if strcasecmp var (cstr "INCLUDE_REQUIRED") = .eq then
      match rest with
      | [] => .error .exit
      | filename :: _ => parseInclude filename true st.currentSection.isNone st
    else if strcasecmp var (cstr "INCLUDE") = .eq then
      match rest with
      | [] => .ok st
      | filename :: _ => parseInclude filename false st.currentSection.isNone st
    else
      let val := match rest with
        | [] => some (cstr "1")
        | [_] => none
        | equals :: val :: _ => if equals = cstr "=" then some val else none
      .ok (st.setVal var val)

inductive AuthFile where
  -- `stat` fails
  | missing
  | unreadable
  | opened (text : CString)
  deriving DecidableEq, Repr

def AuthFile.text? : AuthFile -> Option CString
  | .opened text => some text
  | _ => none

abbrev Files := CString -> AuthFile

def resolvePath (confpath filename : CString) : Option CString :=
  if filename.head? = some 47 then some filename
  else
    let path := confpath ++ 47 :: filename
    if path.length < nutPathMax + 1 then some path else none

variable (files : Files) (confpath : CString)

def parseAuthconfFile : Nat -> CString -> Bool -> Bool -> Authconf -> Except Stop Authconf
  | 0, _, _, _, _ => .error .tooDeep
  | depth + 1, filename, fatalErrors, globalScope, st =>
    match resolvePath confpath filename with
    | none => .ok st
    | some path =>
      match files path with
      -- `check_perms` does not know of `fatal_errors`
      | .missing => .error .exit
      | .unreadable => if fatalErrors then .error .exit else .ok st
      | .opened file => do
        let lines := fileLines (startLine pconfInit) file
        let st <- lines.foldlM (handleAuthconfArgs services (parseAuthconfFile depth) globalScope) st
        pure { st with currentSectionIgnored := false }

-- What `upscli_free_authconf_list` leaves; the flag may still be set from a file that was read before.
def freed (fixedUsername : Bool) : Authconf :=
  { list := [], currentSection := none, globalDefaults := none, currentSectionWithFixedUsername := fixedUsername,
    currentSectionIgnored := false, hostCerts := [] }

def readAuthconfFile (depth : Nat) (filename : CString) (fatalErrors fixedUsername : Bool) : Except Stop Authconf :=
  parseAuthconfFile services files confpath depth filename fatalErrors true (freed fixedUsername)

structure Request where
  user : Option CString
  host : Option CString
  port : Option CString
  addToList : Bool

structure Hits where
  user : Option Nat
  host : Option Nat

def findHits (title : CString) (hostTitle : Option CString) : Nat -> List AuthconfItem -> Hits -> Hits
  | _, [], hits => hits
  | i, tmp :: rest, hits =>
    match hostTitle with
    | none =>
      if tmp.section_ = some title then { hits with host := some i } else findHits title hostTitle (i + 1) rest hits
    | some hostTitle_ =>
      if tmp.section_ = some title then
        let hits := { hits with user := some i }
        if hits.host.isSome then hits else findHits title hostTitle (i + 1) rest hits
      else if tmp.section_ = some hostTitle_ then findHits title hostTitle (i + 1) rest { hits with host := some i }
      else findHits title hostTitle (i + 1) rest hits

def bestHits (request : Request) (parts : Parts) (st : Authconf) : Hits :=
  if request.host = none ∧ request.port = none ∧ request.user = none then { user := none, host := none }
  else
    -- a title that is cut off before its `@` would be compared with NULL
    let hostTitle := if parts.fixedUser then (parts.title.idxOf? 64).map parts.title.drop else none
    findHits parts.title hostTitle 0 st.list { user := none, host := none }

def startItem (request : Request) (parts : Parts) (hits : Hits) (st : Authconf) : Option Nat × AuthconfItem :=
  match st.item (hits.user.or hits.host) with
  | some found =>
    if !request.addToList || (hits.user.isNone && parts.fixedUser) then (none, cloneAuthconfItem found parts.title)
    else (hits.user.or hits.host, found)
  | none =>
    match st.item st.globalDefaults with
    | some globalDefaults => (none, cloneAuthconfItem globalDefaults parts.title)
    | none => (none, createAuthconfItem (some parts.title))

def mergeHits (request : Request) (parts : Parts) (hits : Hits) (st : Authconf) (retval : AuthconfItem) : AuthconfItem :=
  let retval := if parts.fixedUser then { retval with user := request.user } else retval
  let retval :=
    if hits.user.isSome && hits.host.isSome then mergeAuthconfItem (st.item hits.host) retval parts.title else retval
  if (hits.user.isSome || hits.host.isSome) && (st.item st.globalDefaults).isSome then
    mergeAuthconfItem (st.item st.globalDefaults) retval parts.title
  else retval

def getAuthconfItem (request : Request) (st : Authconf) : AuthconfItem × Authconf :=
  let parts := normalizeAuthconfSectionParts services request.user request.host request.port
  let hits := bestHits request parts st
  let start := startItem request parts hits st
  let retval := mergeHits request parts hits st start.2
  if request.addToList then
    match start.1 with
    | some i => (retval, { st with list := st.list.set i retval })
    | none => (retval, { st with list := st.list ++ [retval] })
  else (retval, st)

end Nut.Nutauth
