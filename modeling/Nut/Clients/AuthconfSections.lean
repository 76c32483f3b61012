import Nut.Clients.AuthconfTitles

set_option autoImplicit false

namespace Nut.Nutauth

inductive Entry where
  | header (title : CString)
  | directive (target : Option CString) (var : CString) (val : Option CString)
  deriving DecidableEq

structure Reading where
  current : Option CString
  ignored : Bool
  entries : List Entry
  deriving DecidableEq

def isHeader (var : CString) : Bool :=
  var.head? = some 91 ∧ var.getLast? = some 93

def assigned : List CString -> Option CString
  | [] => some (cstr "1")
  | [_] => none
  | equals :: val :: _ => if equals = cstr "=" then some val else none

def Reading.header (globalScope : Bool) (title : CString) (reading : Reading) : Reading :=
  if !globalScope && reading.current.any (· ≠ title) then { reading with ignored := true }
  else { current := some title, ignored := false, entries := reading.entries ++ [.header title] }

def Reading.defaults (globalScope : Bool) (reading : Reading) : Reading :=
  if globalScope then { reading with current := none, ignored := false } else { reading with ignored := true }

section Lines

variable (services : Services)

def Reading.line (readInclude : CString -> Bool -> Bool -> Reading -> Except Stop Reading) (globalScope : Bool)
    (reading : Reading) (arg : List CString) : Except Stop Reading :=
  match arg with
  | [] => .ok reading
  | var :: rest =>
    if isHeader var then
      if var = cstr "[_global_defaults]" then .ok (reading.defaults globalScope)
      else match namedSection services var.tail.dropLast with
        | none => .error .exit
        | some parts => .ok (reading.header globalScope parts.title)
    else if reading.ignored then .ok reading
    else if strcasecmp var (cstr "INCLUDE_REQUIRED") = .eq then
      match rest with
      | [] => .error .exit
      | filename :: _ => readInclude filename true reading.current.isNone reading
    else if strcasecmp var (cstr "INCLUDE") = .eq then
      match rest with
      | [] => .ok reading
      | filename :: _ => readInclude filename false reading.current.isNone reading
    else .ok { reading with entries := reading.entries ++ [.directive reading.current var (assigned rest)] }

variable (files : Files) (confpath : CString)

def readingOf : Nat -> CString -> Bool -> Bool -> Reading -> Except Stop Reading
  | 0, _, _, _, _ => .error .tooDeep
  | depth + 1, filename, fatalErrors, globalScope, reading =>
    match resolvePath confpath filename with
    | none => .ok reading
    | some path =>
      match (files path).text? with
      | none => if fatalErrors then .error .exit else .ok reading
      | some file => do
        let lines := fileLines (startLine pconfInit) file
        let reading <- lines.foldlM (Reading.line services (readingOf depth) globalScope) reading
        pure { reading with ignored := false }

end Lines

def AuthconfItem.assign (var : CString) (val : Option CString) (item : AuthconfItem) : AuthconfItem :=
  if isUser var ∧ (item.section_.bind titleUser).isSome then item else setAuthconfVal false var val item

def withTarget (target : Option CString) (list : List AuthconfItem) : List AuthconfItem :=
  if target = none ∧ list.all (·.section_ ≠ none) then list ++ [createAuthconfItem none] else list

def Entry.apply (list : List AuthconfItem) : Entry -> List AuthconfItem
  | .header title =>
    if list.any (·.section_ = some title) then list
    else list ++ [{ createAuthconfItem (some title) with user := titleUser title }]
  | .directive target var val =>
    (withTarget target list).map fun item => if item.section_ = target then item.assign var val else item

def build (entries : List Entry) : List AuthconfItem :=
  entries.foldl Entry.apply []

section Attribution

variable (services : Services)

def certOf (parts : Parts) (certhost : CString) (item : AuthconfItem) : HostCert :=
  { host := parts.host
    port := (strtol parts.port).toUInt64.toUInt16
    certhost
    certverify := item.certverify
    forcessl := item.forcessl }

def PassedOn (hostCerts : List HostCert) (item : AuthconfItem) : Prop :=
  ∀ title certhost, item.section_ = some title -> item.certhost = some certhost -> certhost ≠ [] ->
    ∃ parts, namedSection services title = some parts ∧ certOf parts certhost item ∈ hostCerts

variable (files : Files) (confpath : CString)

def Authconf.target (st : Authconf) : Option AuthconfItem :=
  st.item (st.currentSection.or st.globalDefaults)

def OrderlyLine (globalScope : Bool) (st : Authconf) (arg : List CString) : Prop :=
  match arg with
  | [] => True
  | var :: rest =>
    if isHeader var then
      ¬ oneCharacterHost var.tail.dropLast ∧
        (var = cstr "[_global_defaults]" -> globalScope = false ∧
          ∃ item ∈ st.item st.currentSection, item.section_ ≠ some (cstr "@_global_defaults:3493"))
    else st.currentSectionIgnored = false -> isUser var = true -> ∀ item ∈ st.target,
      st.currentSectionWithFixedUsername = (item.section_.bind titleUser).isSome ∨ item.user = assigned rest ∨
        (item.section_.bind titleUser).isSome = false ∧ item.user = none

def isInclude (var : CString) : Bool :=
  strcasecmp var (cstr "INCLUDE_REQUIRED") = .eq ∨ strcasecmp var (cstr "INCLUDE") = .eq

-- The file, and whether it is required.
def includedBy (st : Authconf) : List CString -> Option (CString × Bool)
  | var :: filename :: _ =>
    if !isHeader var && !st.currentSectionIgnored && isInclude var then
      some (filename, strcasecmp var (cstr "INCLUDE_REQUIRED") = .eq)
    else none
  | _ => none

-- A file that is not required is there, and its lines are in order in the states that they are read in.
def OrderlyFile : Nat -> CString -> Bool -> Bool -> Authconf -> Prop
  | 0, _, _, _, _ => True
  | depth + 1, filename, fatalErrors, globalScope, st =>
    (fatalErrors = true ∨ (resolvePath confpath filename).map files ≠ some .missing) ∧
      ∀ file ∈ ((resolvePath confpath filename).map files).bind AuthFile.text?,
        FoldsWithin (handleAuthconfArgs services (parseAuthconfFile services files confpath depth) globalScope)
          (fun st arg => OrderlyLine globalScope st arg ∧
            ∀ include_ ∈ includedBy st arg, OrderlyFile depth include_.1 include_.2 st.currentSection.isNone st)
          (fileLines (startLine pconfInit) file) st

end Attribution

theorem modify_apart {Key Value : Type} [DecidableEq Key] {key : Value -> Key} {list : List Value}
    (apart : (list.map key).Nodup) {i : Nat} {value : Value} (place : list[i]? = some value) (edit : Value -> Value) :
    list.modify i edit = list.map fun other => if key other = key value then edit other else other := by
  apply List.ext_getElem?
  intro j
  rw [List.getElem?_modify, List.getElem?_map]
  cases there : list[j]? with
  | none => simp
  | some other =>
    have iff : i = j ↔ key other = key value := by
      constructor
      · intro same
        rw [<- same, place] at there
        cases there
        rfl
      · intro same
        have keys : (list.map key)[i]? = (list.map key)[j]? := by
          rw [List.getElem?_map, List.getElem?_map, place, there, Option.map_some, Option.map_some, same]
        have inside : i < (list.map key).length := by
          rw [List.length_map]
          exact (List.getElem?_eq_some_iff.mp place).1
        exact (List.getElem?_inj inside apart).mp keys
    simp [iff]

section Following

variable {services : Services} {files : Files} {confpath : CString} {st after : Authconf} {reading : Reading}

structure Titled (services : Services) (title : CString) (item : AuthconfItem) : Prop where
  named : ∃ parts, namedSection services title = some parts ∧
    splitAuthconfSection services title = some (parts, titleUser title) ∧ parts.host ≠ [] ∧ parts.port ≠ []
  user : ∀ user, titleUser title = some user -> item.user = some user

structure Stands (services : Services) (st : Authconf) (items : List AuthconfItem) (title : Option CString) (ignored : Bool) :
    Prop where
  list : st.list = items
  apart : (st.list.map (·.section_)).Nodup
  current : ∀ i, st.currentSection = some i -> ∃ item title, st.list[i]? = some item ∧ item.section_ = some title
  currentTitle : title = (st.item st.currentSection).bind (·.section_)
  defaults : st.globalDefaults = st.list.findIdx? (·.section_ = none)
  ignored : st.currentSectionIgnored = ignored
  titled : ∀ item ∈ st.list, ∀ title, item.section_ = some title -> Titled services title item
  certs : ∀ i item, st.list[i]? = some item -> st.currentSection ≠ some i -> PassedOn services st.hostCerts item

abbrev Agrees (services : Services) (st : Authconf) (reading : Reading) : Prop :=
  Stands services st (build reading.entries) reading.current reading.ignored

theorem Agrees.item (agrees : Agrees services st reading) {i : Nat} (place : st.currentSection = some i) :
    ∃ item title, st.list[i]? = some item ∧ st.item st.currentSection = some item ∧ item.section_ = some title ∧
      reading.current = some title := by
  obtain ⟨item, title, there, named⟩ := agrees.current i place
  have found : st.item st.currentSection = some item := by
    rw [place]
    exact there
  refine ⟨item, title, there, found, named, ?_⟩
  rw [agrees.currentTitle, found]
  exact named

theorem Agrees.finish (agrees : Agrees services st reading) :
    ∃ flag certs, finishSection services st = { st with currentSectionWithFixedUsername := flag, hostCerts := certs } ∧
      ∀ item ∈ st.list, PassedOn services certs item := by
  have others {certs : List HostCert} (kept : ∀ cert ∈ st.hostCerts, cert ∈ certs) {i : Nat} {item : AuthconfItem}
      (there : st.list[i]? = some item) (apart : st.currentSection ≠ some i) : PassedOn services certs item := by
    intro title certhost named cert nonempty
    obtain ⟨parts, parts_, member⟩ := agrees.certs i item there apart title certhost named cert nonempty
    exact ⟨parts, parts_, kept _ member⟩
  unfold finishSection
  rcases Option.eq_none_or_eq_some st.currentSection with place | ⟨i, place⟩
  · have found : st.item st.currentSection = none := by rw [place, Authconf.item, Option.bind_none]
    rw [found]
    refine ⟨st.currentSectionWithFixedUsername, st.hostCerts, rfl, ?_⟩
    intro item member
    obtain ⟨i, there⟩ := List.mem_iff_getElem?.mp member
    exact others (fun _ => id) there (by simp [place])
  · obtain ⟨current, title, there, found, named, _⟩ := agrees.item place
    have all {certs : List HostCert} (kept : ∀ cert ∈ st.hostCerts, cert ∈ certs) (own : PassedOn services certs current) :
        ∀ item ∈ st.list, PassedOn services certs item := by
      intro item member
      obtain ⟨j, thereJ⟩ := List.mem_iff_getElem?.mp member
      by_cases same : i = j
      · rw [<- same, there] at thereJ
        cases thereJ
        exact own
      · exact others kept thereJ (by simp [place, same])
    rw [found]
    dsimp only
    rw [named]
    cases cert : current.certhost with
    | none =>
      refine ⟨st.currentSectionWithFixedUsername, st.hostCerts, rfl, all (fun _ => id) ?_⟩
      intro _ certhost _ same
      rw [cert] at same
      cases same
    | some certhost =>
      cases certhost with
      | nil =>
        refine ⟨st.currentSectionWithFixedUsername, st.hostCerts, rfl, all (fun _ => id) ?_⟩
        intro _ certhost _ same nonempty
        rw [cert] at same
        cases same
        exact absurd rfl nonempty
      | cons b certhost =>
        obtain ⟨parts, parts_, split_, host, port⟩ := (agrees.titled current (List.mem_of_getElem? there) title named).named
        dsimp only
        rw [split_]
        dsimp only
        rw [if_pos ⟨host, port⟩]
        refine ⟨parts.fixedUser, st.hostCerts ++ [certOf parts (b :: certhost) current], rfl, all ?_ ?_⟩
        · intro cert member
          exact List.mem_append_left _ member
        · intro title_ certhost_ named_ cert_ _
          rw [named] at named_
          rw [cert] at cert_
          cases named_
          cases cert_
          exact ⟨parts, parts_, by simp⟩

theorem build_snoc (entries : List Entry) (entry : Entry) : build (entries ++ [entry]) = entry.apply (build entries) := by
  rw [build, List.foldl_append]
  rfl

theorem Agrees.outOfScope (agrees : Agrees services st reading) (title : CString) :
    (st.item st.currentSection).any (·.section_ ≠ some title) = reading.current.any (· ≠ title) := by
  rcases Option.eq_none_or_eq_some st.currentSection with place | ⟨i, place⟩
  · rw [agrees.currentTitle, place]
    rfl
  · obtain ⟨current, title_, _, found, named, reads⟩ := agrees.item place
    rw [found, reads]
    simp [named]

theorem titled_new {sectName : CString} {parts : Parts} (short : sectName.length ≤ 512)
    (named : namedSection services sectName = some parts) :
    Titled services parts.title { createAuthconfItem (some parts.title) with user := titleUser parts.title } ∧
      titleUser parts.title = titleUser sectName ∧
      (if parts.fixedUser then titleUser sectName else none) = titleUser sectName := by
  obtain ⟨user, start, normal, user_⟩ := named_normal services short named
  have again := normal.named
  have names : titleUser parts.title = if user = [] then none else some user := by
    rw [normal.title, List.append_assoc, List.cons_append, titleUser_eq normal.user_]
  have longer : ¬ oneCharacterHost parts.title := by
    rintro ⟨absent, _⟩
    rw [normal.title] at absent
    simp at absent
  refine ⟨⟨⟨parts, again, ?_, normal.host, normal.port.1⟩, fun _ => id⟩, names.trans user_.symm, ?_⟩
  · rw [split_named services longer, again]
    rfl
  · rw [user_, normal.fixedUser]
    by_cases empty : user = [] <;> simp [empty]

theorem Agrees.enter (agrees : Agrees services st reading) (flag : Bool) {certs : List HostCert}
    (passedOn : ∀ item ∈ st.list, PassedOn services certs item) {sectName : CString} {parts : Parts}
    (short : sectName.length ≤ 512) (longer : ¬ oneCharacterHost sectName) (named : namedSection services sectName = some parts)
    (globalScope : Bool) : ∃ after, enterSection services globalScope sectName
        { st with currentSectionWithFixedUsername := flag, hostCerts := certs, currentSectionIgnored := false } = .ok after ∧
      Agrees services after (reading.header globalScope parts.title) := by
  obtain ⟨titled, names, fixed⟩ := titled_new short named
  have scope : (!globalScope && (st.item st.currentSection).any (·.section_ ≠ some parts.title)) =
      (!globalScope && reading.current.any (· ≠ parts.title)) := by rw [agrees.outOfScope]
  unfold enterSection Reading.header
  rw [split_named services longer, named, Option.map_some]
  dsimp only
  split
  · next outside =>
    rw [if_pos (scope.symm.trans outside)]
    refine ⟨_, rfl, { agrees with ignored := rfl, certs := ?_ }⟩
    intro i item there _
    exact passedOn item (List.mem_of_getElem? there)
  · next inside =>
    rw [if_neg fun outside => inside (scope.trans outside)]
    cases place : st.list.findIdx? fun item => decide (item.section_ = some parts.title) with
    | some i =>
      obtain ⟨less, found, _⟩ := List.findIdx?_eq_some_iff_getElem.mp place
      have there : st.list[i]? = some st.list[i] := List.getElem?_eq_getElem less
      have section_ : st.list[i].section_ = some parts.title := by simpa using found
      have same : build (reading.entries ++ [.header parts.title]) = st.list := by
        rw [build_snoc, <- agrees.list, Entry.apply, if_pos]
        rw [List.any_eq_true]
        exact ⟨st.list[i], List.getElem_mem less, by simpa using section_⟩
      refine ⟨_, rfl, ⟨same.symm, agrees.apart, ?_, ?_, agrees.defaults, rfl, agrees.titled, ?_⟩⟩
      · intro j at_
        cases at_
        exact ⟨_, _, there, section_⟩
      · dsimp only [Authconf.item, Option.bind_some]
        rw [there]
        exact section_.symm
      · intro j item there _
        exact passedOn item (List.mem_of_getElem? there)
    | none =>
      rw [List.findIdx?_eq_none_iff] at place
      have absent : ∀ item ∈ st.list, item.section_ ≠ some parts.title := by
        intro item member
        simpa using place item member
      rw [fixed, <- names]
      generalize made : ({ createAuthconfItem (some parts.title) with user := titleUser parts.title } : AuthconfItem) = new at titled
      have section_ : new.section_ = some parts.title := by
        rw [<- made]
        rfl
      have same : build (reading.entries ++ [.header parts.title]) = st.list ++ [new] := by
        rw [build_snoc, <- agrees.list, Entry.apply, if_neg, made]
        simpa using absent
      refine ⟨_, rfl, ⟨same.symm, ?_, ?_, ?_, ?_, rfl, ?_, ?_⟩⟩
      · rw [List.map_append, List.nodup_append]
        refine ⟨agrees.apart, by simp, ?_⟩
        intro key inside key_ last same
        obtain ⟨item, member, rfl⟩ := List.mem_map.mp inside
        rw [List.map_singleton, List.mem_singleton, section_] at last
        exact absent item member (same.trans last)
      · intro i at_
        cases at_
        exact ⟨new, parts.title, by simp, section_⟩
      · simp [Authconf.item, section_]
      · dsimp only
        rw [List.findIdx?_append, <- agrees.defaults]
        simp [section_]
      · intro item member title titled_
        rcases List.mem_append.mp member with before | last
        · exact agrees.titled item before title titled_
        · rw [List.mem_singleton.mp last] at titled_ ⊢
          rw [section_] at titled_
          cases titled_
          exact titled
      · intro i item there apart
        have apart : st.list.length ≠ i := fun same => apart (same ▸ rfl)
        obtain ⟨less, _⟩ := List.getElem?_eq_some_iff.mp there
        rw [List.length_append, List.length_singleton] at less
        rw [List.getElem?_append_left (by omega)] at there
        exact passedOn item (List.mem_of_getElem? there)

theorem modify_same {Value : Type} {list : List Value} {i : Nat} {value : Value} (place : list[i]? = some value)
    {edit edit_ : Value -> Value} (same : edit value = edit_ value) : list.modify i edit = list.modify i edit_ := by
  apply List.ext_getElem?
  intro j
  rw [List.getElem?_modify, List.getElem?_modify]
  by_cases here : i = j
  · rw [<- here, place]
    simp [same]
  · simp [here]

@[simp] theorem assign_section (var : CString) (val : Option CString) (item : AuthconfItem) :
    (item.assign var val).section_ = item.section_ := by
  unfold AuthconfItem.assign
  split
  · rfl
  · exact setAuthconfVal_section _ _ _ _

theorem setAuthconfVal_other {var : CString} (other : isUser var = false) (flag : Bool) (val : Option CString)
    (item : AuthconfItem) : setAuthconfVal flag var val item = setAuthconfVal false var val item ∧
      (setAuthconfVal false var val item).user = item.user := by
  constructor
  · simp only [setAuthconfVal, other, Bool.false_eq_true, if_false]
  · cases val <;> simp only [setAuthconfVal, other, Bool.false_eq_true, if_false, apply_ite AuthconfItem.user, ite_self]

theorem assign_inOrder {item : AuthconfItem} (user : ∀ title user, item.section_ = some title -> titleUser title = some user ->
      item.user = some user) {flag : Bool} {var : CString} {val : Option CString}
    (inOrder : isUser var = true -> flag = (item.section_.bind titleUser).isSome ∨ item.user = val ∨
      (item.section_.bind titleUser).isSome = false ∧ item.user = none) :
    setAuthconfVal flag var val item = item.assign var val ∧
      ∀ title user, item.section_ = some title -> titleUser title = some user -> (item.assign var val).user = some user := by
  cases isUser_ : isUser var with
  | false =>
    obtain ⟨same, user_⟩ := setAuthconfVal_other isUser_ flag val item
    have plain : item.assign var val = setAuthconfVal false var val item := by simp [AuthconfItem.assign, isUser_]
    rw [plain, user_]
    exact ⟨same, user⟩
  | true =>
    have set_ : ∀ flag_, setAuthconfVal flag_ var val item =
        if flag_ ∧ item.user ≠ none ∧ item.user ≠ val then item else { item with user := val } := by
      intro flag_
      unfold setAuthconfVal
      rw [if_pos isUser_]
    have orders := inOrder isUser_
    cases names : item.section_.bind titleUser with
    | none =>
      have plain : item.assign var val = { item with user := val } := by simp [AuthconfItem.assign, names, set_]
      rw [plain, set_]
      constructor
      · rw [names] at orders
        rcases orders with right | same | ⟨_, empty⟩
        · rw [right, if_neg (by simp)]
        · rw [if_neg (by simp [same])]
        · rw [if_neg (by simp [empty])]
      · intro title user_ titled named
        rw [titled, Option.bind_some, named] at names
        cases names
    | some own =>
      have kept : item.assign var val = item := by simp [AuthconfItem.assign, isUser_, names]
      obtain ⟨title, titled, named⟩ := Option.bind_eq_some_iff.mp names
      have own_ := user title own titled named
      rw [kept, set_]
      refine ⟨?_, user⟩
      rw [names] at orders
      by_cases same : item.user = val
      · rw [if_neg (by simp [same]), <- same]
      · have right : flag = true := by simpa [same] using orders
        rw [if_pos ⟨right, by simp [own_], same⟩]

variable {items : List AuthconfItem} {title : Option CString} {ignored : Bool}

theorem Stands.edit (stands : Stands services st items title ignored) {i : Nat} {item : AuthconfItem}
    (place : st.list[i]? = some item) (target : item.section_ = title) (here : st.currentSection = some i ∨ title = none)
    {edit : AuthconfItem -> AuthconfItem} {var : CString} {val : Option CString} (same : edit item = item.assign var val)
    (user : ∀ title user, item.section_ = some title -> titleUser title = some user -> (item.assign var val).user = some user) :
    Stands services { st with list := st.list.modify i edit }
      (items.map fun item => if item.section_ = title then item.assign var val else item) title ignored := by
  have list : st.list.modify i edit = st.list.map fun item => if item.section_ = title then item.assign var val else item := by
    rw [modify_same place same, modify_apart stands.apart place, target]
  have titles : (st.list.modify i edit).map (·.section_) = st.list.map (·.section_) := by
    rw [list, List.map_map]
    apply List.map_congr_left
    intro other _
    dsimp only [Function.comp_apply]
    split
    · exact assign_section _ _ _
    · rfl
  have lookup : ∀ j : Nat, ((st.list.modify i edit)[j]?).map AuthconfItem.section_ = (st.list[j]?).map AuthconfItem.section_ := by
    intro j
    rw [<- List.getElem?_map, titles, List.getElem?_map]
  have parts {j : Nat} {after : AuthconfItem} (there : (st.list.modify i edit)[j]? = some after) :
      (i = j ∧ after = item.assign var val) ∨ (i ≠ j ∧ st.list[j]? = some after) := by
    rw [List.getElem?_modify] at there
    by_cases here : i = j
    · rw [<- here, place] at there
      simp only [if_true, Option.map_eq_map, Option.map_some, Option.some.injEq] at there
      exact .inl ⟨here, there.symm.trans same⟩
    · exact .inr ⟨here, by simpa [here] using there⟩
  refine ⟨stands.list ▸ list, ?_, ?_, ?_, ?_, stands.ignored, ?_, ?_⟩
  · rw [titles]
    exact stands.apart
  · intro j at_
    obtain ⟨current, title_, there, named⟩ := stands.current j at_
    have found := lookup j
    rw [there, Option.map_some, named] at found
    obtain ⟨after, after_, section_⟩ := Option.map_eq_some_iff.mp found
    exact ⟨after, title_, after_, section_⟩
  · rw [stands.currentTitle]
    dsimp only [Authconf.item]
    cases st.currentSection with
    | none => rfl
    | some j =>
      have found := congrArg (Option.bind · id) (lookup j)
      simpa [Option.bind_map, Function.comp_def] using found.symm
  · have byTitle : ∀ list : List AuthconfItem, list.findIdx? (·.section_ = none) = (list.map (·.section_)).findIdx? (· = none) := by
      intro list
      rw [List.findIdx?_map]
      rfl
    rw [stands.defaults, byTitle, byTitle, titles]
  · intro after member title_ named
    obtain ⟨j, there⟩ := List.mem_iff_getElem?.mp member
    rcases parts there with ⟨rfl, rfl⟩ | ⟨_, other⟩
    · rw [assign_section] at named
      exact ⟨(stands.titled item (List.mem_of_getElem? place) title_ named).named, fun user_ => user title_ user_ named⟩
    · exact stands.titled after (List.mem_of_getElem? other) title_ named
  · intro j after there apart
    rcases parts there with ⟨rfl, rfl⟩ | ⟨_, other⟩
    · have untitled : title = none := here.resolve_left apart
      intro title_ certhost named
      rw [assign_section, target, untitled] at named
      cases named
    · exact stands.certs j after other apart

theorem Stands.edited (stands : Stands services st items title ignored) : ∃ made i item, (∀ var val, st.setVal var val =
        { made with list := made.list.modify i (setAuthconfVal st.currentSectionWithFixedUsername var val) }) ∧
      Stands services made (withTarget title items) title ignored ∧ made.list[i]? = some item ∧ item.section_ = title ∧
      (made.currentSection = some i ∨ title = none) ∧ (st.target = some item ∨ item = createAuthconfItem none) := by
  rcases Option.eq_none_or_eq_some st.currentSection with place | ⟨i, place⟩
  · have untitled : title = none := by
      rw [stands.currentTitle, place]
      rfl
    cases defaults : st.globalDefaults with
    | some i =>
      have found := stands.defaults
      rw [defaults, eq_comm, List.findIdx?_eq_some_iff_getElem] at found
      obtain ⟨less, section_, _⟩ := found
      have there : st.list[i]? = some st.list[i] := List.getElem?_eq_getElem less
      have section_ : st.list[i].section_ = none := by simpa using section_
      have kept : withTarget title items = items := by
        rw [withTarget, if_neg]
        rintro ⟨_, all⟩
        rw [List.all_eq_true, <- stands.list] at all
        simpa [section_] using all st.list[i] (List.getElem_mem less)
      refine ⟨st, i, st.list[i], ?_, kept.symm ▸ stands, there, section_.trans untitled.symm, .inr untitled, .inl ?_⟩
      · intro var val
        simp only [Authconf.setVal, place, Authconf.editDefaults, defaults]
      · rw [Authconf.target, place, defaults]
        exact there
    | none =>
      have found := stands.defaults
      rw [defaults, eq_comm, List.findIdx?_eq_none_iff] at found
      have allTitled : ∀ item ∈ st.list, item.section_ ≠ none := by simpa using found
      have grown : withTarget title items = st.list ++ [createAuthconfItem none] := by
        rw [withTarget, if_pos, stands.list]
        rw [<- stands.list, List.all_eq_true]
        exact ⟨untitled, by simpa using allTitled⟩
      have stays {j : Nat} (at_ : st.currentSection = some j) : False := by
        rw [place] at at_
        cases at_
      refine ⟨{ st with list := st.list ++ [createAuthconfItem none], globalDefaults := some st.list.length }, st.list.length,
        createAuthconfItem none, ?_, ⟨grown.symm, ?_, fun j at_ => (stays at_).elim, ?_, ?_, stands.ignored, ?_, ?_⟩,
        by simp, untitled.symm, .inr untitled, .inr rfl⟩
      · intro var val
        simp only [Authconf.setVal, place, Authconf.editDefaults, defaults]
      · rw [List.map_append, List.nodup_append]
        refine ⟨stands.apart, by simp, ?_⟩
        intro key inside key_ last same
        obtain ⟨item, member, rfl⟩ := List.mem_map.mp inside
        rw [List.map_singleton, List.mem_singleton] at last
        exact allTitled item member (same.trans last)
      · rw [untitled, Authconf.item, place]
        rfl
      · rw [List.findIdx?_append, <- stands.defaults, defaults]
        simp [createAuthconfItem]
      · intro item member title_ named
        rcases List.mem_append.mp member with before | last
        · exact stands.titled item before title_ named
        · rw [List.mem_singleton.mp last] at named
          cases named
      · intro j item there apart
        rcases List.mem_append.mp (List.mem_of_getElem? there) with before | last
        · obtain ⟨k, there⟩ := List.mem_iff_getElem?.mp before
          exact stands.certs k item there (by simp [place])
        · intro title_ certhost named
          rw [List.mem_singleton.mp last] at named
          cases named
  · obtain ⟨item, title_, there, named⟩ := stands.current i place
    have current : title = some title_ := by
      rw [stands.currentTitle, place]
      dsimp only [Authconf.item, Option.bind_some]
      rw [there]
      exact named
    have kept : withTarget title items = items := by rw [withTarget, if_neg (by simp [current])]
    refine ⟨st, i, item, ?_, kept.symm ▸ stands, there, named.trans current.symm, .inl place, .inl ?_⟩
    · intro var val
      simp only [Authconf.setVal, place]
    · rw [Authconf.target, place]
      exact there

theorem Agrees.setVal (agrees : Agrees services st reading) {var : CString} {val : Option CString}
    (inOrder : isUser var = true -> ∀ item ∈ st.target,
      st.currentSectionWithFixedUsername = (item.section_.bind titleUser).isSome ∨ item.user = val ∨
        (item.section_.bind titleUser).isSome = false ∧ item.user = none) : Agrees services (st.setVal var val)
      { reading with entries := reading.entries ++ [.directive reading.current var val] } := by
  obtain ⟨made, i, item, edited, stands, place, target, here, which⟩ := Stands.edited agrees
  have user : ∀ title user, item.section_ = some title -> titleUser title = some user -> item.user = some user :=
    fun title user named => (stands.titled item (List.mem_of_getElem? place) title named).user user
  have orders : isUser var = true -> st.currentSectionWithFixedUsername = (item.section_.bind titleUser).isSome ∨
      item.user = val ∨ (item.section_.bind titleUser).isSome = false ∧ item.user = none := by
    intro isUser_
    rcases which with found | rfl
    · exact inOrder isUser_ item found
    · exact .inr (.inr ⟨rfl, rfl⟩)
  obtain ⟨same, users⟩ := assign_inOrder user orders
  have after := stands.edit place target here same users
  rw [edited]
  dsimp only [Agrees]
  rw [build_snoc]
  exact after

theorem Stands.scope (stands : Stands services st items title ignored) : st.currentSection.isNone = title.isNone := by
  rcases Option.eq_none_or_eq_some st.currentSection with place | ⟨i, place⟩
  · rw [stands.currentTitle, place]
    rfl
  · obtain ⟨item, title_, there, named⟩ := stands.current i place
    have found : st.item st.currentSection = some item := by
      rw [place]
      exact there
    rw [stands.currentTitle, found, Option.bind_some, named, place]
    rfl

theorem namedSection_globalDefaults (services : Services) :
    ∃ parts, namedSection services (cstr "_global_defaults") = some parts ∧ parts.title = cstr "@_global_defaults:3493" := by
  have colon : portColon (cstr "_global_defaults") = some none := by decide +kernel
  have atPlace : (cstr "_global_defaults").idxOf? 64 = none := by decide +kernel
  unfold namedSection
  rw [colon, atPlace]
  have titled : titleUser (cstr "_global_defaults") = none := by rw [titleUser, atPlace]
  have text : snprintf largebuf ([] ++ 64 :: cstr "_global_defaults" ++ 58 :: nutPort) = cstr "@_global_defaults:3493" := by
    decide +kernel
  obtain ⟨b, rest, cons⟩ := List.exists_cons_of_ne_nil (show cstr "_global_defaults" ≠ [] by decide +kernel)
  refine ⟨_, rfl, ?_⟩
  dsimp only [normalizeAuthconfSectionParts, Option.map_none]
  rw [titled, <- text, cons]
  rfl

theorem isHeader_bracketed {var : CString} (header : isHeader var = true) : var.tail ≠ cstr "_global_defaults" := by
  intro same
  unfold isHeader at header
  rw [decide_eq_true_eq] at header
  obtain ⟨rest, rfl⟩ : ∃ rest, var = 91 :: rest := by
    cases var with
    | nil => simp at header
    | cons b rest => exact ⟨rest, by simpa using header.1⟩
  rw [List.tail_cons] at same
  rw [same] at header
  exact absurd header.2 (by decide +kernel)

section Line

variable {parseInclude : CString -> Bool -> Bool -> Authconf -> Except Stop Authconf}
  {readInclude : CString -> Bool -> Bool -> Reading -> Except Stop Reading} {globalScope : Bool}

theorem Agrees.header (agrees : Agrees services st reading) {var : CString} {rest : List CString} (short : var.length ≤ 512)
    (header : isHeader var = true) (inOrder : OrderlyLine globalScope st (var :: rest)) :
    Alike (Agrees services) (handleAuthconfArgs services parseInclude globalScope st (var :: rest))
      (reading.line services readInclude globalScope (var :: rest)) := by
  have bracketed : var.head? = some 91 ∧ var.getLast? = some 93 := by simpa [isHeader] using header
  unfold OrderlyLine at inOrder
  dsimp only at inOrder
  rw [if_pos header] at inOrder
  obtain ⟨longer, outside⟩ := inOrder
  obtain ⟨flag, certs, finish, passedOn⟩ := agrees.finish
  unfold handleAuthconfArgs Reading.line
  dsimp only
  rw [if_pos bracketed, if_neg (isHeader_bracketed header), finish, if_pos header]
  have short_ : var.tail.dropLast.length ≤ 512 := by
    rw [List.length_dropLast, List.length_tail]
    omega
  have global_ (global : var = cstr "[_global_defaults]") : ∃ parts,
      namedSection services var.tail.dropLast = some parts ∧ parts.title = cstr "@_global_defaults:3493" := by
    have text : var.tail.dropLast = cstr "_global_defaults" := by
      rw [global]
      decide +kernel
    rw [text]
    exact namedSection_globalDefaults services
  cases named : namedSection services var.tail.dropLast with
  | none =>
    have other : var ≠ cstr "[_global_defaults]" := by
      intro global
      obtain ⟨parts, named_, _⟩ := global_ global
      rw [named] at named_
      cases named_
    rw [if_neg other]
    dsimp only
    unfold enterSection
    rw [split_named services longer, named]
    rfl
  | some parts =>
    obtain ⟨after, entered, now⟩ := agrees.enter flag passedOn short_ longer named globalScope
    dsimp only
    rw [entered]
    split
    · next global =>
      obtain ⟨scope, item, current, apart⟩ := outside global
      obtain ⟨parts_, named_, title_⟩ := global_ global
      rw [named, Option.some.injEq] at named_
      have titled : ∃ title, item.section_ = some title ∧ reading.current = some title := by
        obtain ⟨i, place, there⟩ := Option.bind_eq_some_iff.mp current
        obtain ⟨item_, title, _, found, named, reads⟩ := agrees.item place
        rw [current] at found
        cases found
        exact ⟨title, named, reads⟩
      obtain ⟨title, section_, reads⟩ := titled
      have other : title ≠ parts.title := by
        rw [named_, title_]
        exact fun same => apart (section_.trans (congrArg some same))
      have ignores : reading.header globalScope parts.title = reading.defaults globalScope := by
        rw [Reading.header, Reading.defaults, scope, reads]
        simp [other]
      rw [<- ignores]
      exact now
    · exact now

theorem Agrees.line (agrees : Agrees services st reading) {arg : List CString} (short : ∀ word ∈ arg, word.length ≤ 512)
    (inOrder : OrderlyLine globalScope st arg) (included : ∀ include_ ∈ includedBy st arg,
      Alike (Agrees services) (parseInclude include_.1 include_.2 st.currentSection.isNone st)
        (readInclude include_.1 include_.2 st.currentSection.isNone reading)) :
    Alike (Agrees services) (handleAuthconfArgs services parseInclude globalScope st arg)
      (reading.line services readInclude globalScope arg) := by
  cases arg with
  | nil => exact agrees
  | cons var rest =>
    by_cases header : isHeader var = true
    · exact agrees.header (short var List.mem_cons_self) header inOrder
    · have notBracketed : ¬ (var.head? = some 91 ∧ var.getLast? = some 93) := by simpa [isHeader] using header
      unfold OrderlyLine at inOrder
      dsimp only at inOrder
      rw [if_neg header] at inOrder
      unfold handleAuthconfArgs Reading.line
      dsimp only
      rw [if_neg notBracketed, if_neg header]
      have ignored := agrees.ignored
      by_cases ignores : st.currentSectionIgnored = true
      · rw [if_pos ignores, if_pos (ignored.symm.trans ignores)]
        exact agrees
      · have heeds : reading.ignored = false := by
          rw [<- ignored, <- Bool.not_eq_true]
          exact ignores
        rw [if_neg ignores, heeds, if_neg Bool.false_ne_true, <- agrees.scope]
        split
        · next required =>
          cases rest with
          | nil => rfl
          | cons filename more => exact included (filename, true) (by simp [includedBy, header, ignores, isInclude, required])
        · next optional =>
          split
          · next include_ =>
            cases rest with
            | nil => exact agrees
            | cons filename more =>
              exact included (filename, false) (by simp [includedBy, header, ignores, isInclude, include_, optional])
          · next directive =>
            change Alike (Agrees services) (.ok (st.setVal var (assigned rest))) _
            have orders := inOrder (by simpa using ignores)
            exact (heeds ▸ agrees.setVal orders :)

end Line

theorem Agrees.file {depth : Nat} (agrees : Agrees services st reading) {filename : CString} {fatalErrors globalScope : Bool}
    (inOrder : OrderlyFile services files confpath depth filename fatalErrors globalScope st) :
    Alike (Agrees services) (parseAuthconfFile services files confpath depth filename fatalErrors globalScope st)
      (readingOf services files confpath depth filename fatalErrors globalScope reading) := by
  induction depth generalizing filename fatalErrors globalScope st reading with
  | zero => rfl
  | succ depth ih =>
    unfold parseAuthconfFile readingOf
    unfold OrderlyFile at inOrder
    cases path : resolvePath confpath filename with
    | none => exact agrees
    | some path_ =>
      rw [path, Option.map_some, Option.bind_some] at inOrder
      dsimp only
      cases opened : files path_ with
      | missing =>
        obtain required | there := inOrder.1
        · rw [required]
          rfl
        · exact absurd (congrArg some opened) there
      | unreadable =>
        dsimp only [AuthFile.text?]
        split
        · rfl
        · exact agrees
      | opened file =>
        dsimp only [AuthFile.text?]
        have short := fileLines_short limited_init file
        have lines : ∀ st reading, ∀ arg ∈ fileLines (startLine pconfInit) file, Agrees services st reading ->
            (OrderlyLine globalScope st arg ∧ ∀ include_ ∈ includedBy st arg,
              OrderlyFile services files confpath depth include_.1 include_.2 st.currentSection.isNone st) ->
            Alike (Agrees services) (handleAuthconfArgs services (parseAuthconfFile services files confpath depth) globalScope st arg)
              (reading.line services (readingOf services files confpath depth) globalScope arg) := by
          intro st reading arg member agrees within
          exact agrees.line (short arg member) within.1 fun include_ names => ih agrees (within.2 include_ names)
        have folds := inOrder.2 file (by rw [opened]; rfl)
        exact alike_bind (foldlM_alike lines agrees folds) fun last last_ _ now =>
          { now with ignored := rfl }

end Following

section Runs

variable (services : Services) (files : Files) (confpath : CString)

instance OrderlyLine.decidable : (globalScope : Bool) -> (st : Authconf) -> (arg : List CString) ->
    Decidable (OrderlyLine globalScope st arg)
  | _, _, [] => isTrue trivial
  | _, _, _ :: _ => inferInstanceAs (Decidable (ite _ _ _))

instance OrderlyFile.decidable : (depth : Nat) -> (filename : CString) -> (fatalErrors globalScope : Bool) -> (st : Authconf) ->
    Decidable (OrderlyFile services files confpath depth filename fatalErrors globalScope st)
  | 0, _, _, _, _ => isTrue trivial
  | depth + 1, filename, _, _, _ =>
    have : ∀ filename fatalErrors globalScope st,
        Decidable (OrderlyFile services files confpath depth filename fatalErrors globalScope st) := OrderlyFile.decidable depth
    inferInstanceAs (Decidable ((_ ∨ _) ∧ ∀ file ∈ ((resolvePath confpath filename).map files).bind AuthFile.text?, _))

def EndsWithoutCert (depth : Nat) (filename : CString) (fatalErrors : Bool) : Prop :=
  ∀ reading ∈ (readingOf services files confpath depth filename fatalErrors true
      { current := none, ignored := false, entries := [] }).toOption,
    ∀ item ∈ build reading.entries, item.section_ ≠ none -> item.section_ = reading.current -> item.certhost.getD [] = []

-- The reader stops where the files ask for it, and otherwise has each directive where it belongs.
def Attributed (depth : Nat) (filename : CString) (fatalErrors : Bool) (read : Except Stop Authconf) : Prop :=
  Alike (fun st reading => st.list = build reading.entries ∧ ∀ item ∈ st.list, PassedOn services st.hostCerts item) read
    (readingOf services files confpath depth filename fatalErrors true { current := none, ignored := false, entries := [] })

variable {services : Services} {files : Files} {confpath : CString}

theorem agrees_freed (fixedUsername : Bool) :
    Agrees services (freed fixedUsername) { current := none, ignored := false, entries := [] } :=
  ⟨rfl, List.nodup_nil, fun _ place => (by cases place), rfl, rfl, rfl, fun _ member => (by cases member),
    fun _ _ there => (by cases there)⟩

-- Whatever was read before, a file that is orderly line by line is read as it says.
theorem read_attributed {depth : Nat} {filename : CString} {fatalErrors fixedUsername : Bool}
    (inOrder : OrderlyFile services files confpath depth filename fatalErrors true (freed fixedUsername))
    (ends : EndsWithoutCert services files confpath depth filename fatalErrors) :
    Attributed services files confpath depth filename fatalErrors
      (readAuthconfFile services files confpath depth filename fatalErrors fixedUsername) := by
  have read := (agrees_freed fixedUsername).file inOrder
  unfold Attributed readAuthconfFile
  unfold EndsWithoutCert at ends
  revert ends read
  cases parseAuthconfFile services files confpath depth filename fatalErrors true (freed fixedUsername) with
  | error stop =>
    cases readingOf services files confpath depth filename fatalErrors true
        { current := none, ignored := false, entries := [] } with
    | error stop_ => exact fun _ same => same
    | ok reading => exact fun _ none_ => none_
  | ok st =>
    cases readingOf services files confpath depth filename fatalErrors true
        { current := none, ignored := false, entries := [] } with
    | error stop_ => exact fun _ none_ => none_
    | ok reading =>
      intro ends agrees
      have agrees : Agrees services st reading := agrees
      refine ⟨agrees.list, ?_⟩
      intro item member
      obtain ⟨i, there⟩ := List.mem_iff_getElem?.mp member
      by_cases last : st.currentSection = some i
      · obtain ⟨current, title, there_, _, named, reads⟩ := agrees.item last
        rw [there] at there_
        cases there_
        have none_ := ends reading rfl item (agrees.list ▸ member) (by simp [named]) (named.trans reads.symm)
        intro _ certhost _ cert nonempty
        rw [cert] at none_
        exact absurd none_ nonempty
      · exact agrees.certs i item there last

def includedSection : Files := fun path =>
  if path = cstr "/b" then .opened (cstr "[other]\nPASS = q\n")
  else .opened (cstr "USER = x\n[h]\nINCLUDE /b\nPASS = p\nCERTHOST = c\n[bob@h]\nUSER = eve\n")

theorem read_attributed_included : Attributed noServices includedSection [] 2 (cstr "/a") true
      (readAuthconfFile noServices includedSection [] 2 (cstr "/a") true false) := by
  refine read_attributed ?_ ?_
  · decide +kernel
  · unfold EndsWithoutCert
    decide +kernel

def lastCert : Files := fun _ =>
  .opened (cstr "[h]\nCERTHOST = c\n")

def optionalMissing : Files := fun path =>
  if path = cstr "/f" then .opened (cstr "INCLUDE /missing\n[h]\nPASS = p\n") else .missing

-- The certificate of the last section is not passed on, and an INCLUDE of nothing ends the process.
theorem not_attributed :
    ¬ Attributed noServices lastCert [] 1 (cstr "/f") true (readAuthconfFile noServices lastCert [] 1 (cstr "/f") true false) ∧
      ¬ Attributed noServices optionalMissing [] 2 (cstr "/f") true
        (readAuthconfFile noServices optionalMissing [] 2 (cstr "/f") true false) := by
  constructor
  · let item : AuthconfItem := { createAuthconfItem (some (cstr "@h:3493")) with certhost := some (cstr "c") }
    let st : Authconf :=
      { list := [item], currentSection := some 0, globalDefaults := none, currentSectionWithFixedUsername := false,
        currentSectionIgnored := false, hostCerts := [] }
    have read : readAuthconfFile noServices lastCert [] 1 (cstr "/f") true false = .ok st := by decide +kernel
    rw [read]
    intro attributed
    unfold Attributed at attributed
    revert attributed
    cases readingOf noServices lastCert [] 1 (cstr "/f") true true { current := none, ignored := false, entries := [] } with
    | error stop => exact fun none_ => none_
    | ok reading =>
      intro attributed
      obtain ⟨_, _, member⟩ := attributed.2 item (by simp [st]) (cstr "@h:3493") (cstr "c") rfl rfl (by decide)
      cases member
  · have stopped : readAuthconfFile noServices optionalMissing [] 2 (cstr "/f") true false = .error .exit := by decide +kernel
    have goesOn : (readingOf noServices optionalMissing [] 2 (cstr "/f") true true
        { current := none, ignored := false, entries := [] }).isOk = true := by
      decide +kernel
    rw [stopped]
    intro attributed
    unfold Attributed at attributed
    revert attributed goesOn
    cases readingOf noServices optionalMissing [] 2 (cstr "/f") true true
        { current := none, ignored := false, entries := [] } with
    | error stop => exact fun none_ => by cases none_
    | ok reading => exact fun _ none_ => none_

end Runs

end Nut.Nutauth
