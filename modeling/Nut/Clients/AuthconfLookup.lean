import Mathlib.Data.List.Induction
import Mathlib.Data.List.Nodup
import Nut.Clients.Authconf
import Nut.Library.Checked

set_option autoImplicit false

namespace Nut.Nutauth

section Merging

def AuthconfItem.over (target source : AuthconfItem) : AuthconfItem :=
  { target with
    user := target.user.or source.user
    pass := target.pass.or source.pass
    certpath := target.certpath.or source.certpath
    certfile := target.certfile.or source.certfile
    certident := target.certident.or source.certident
    certpasswd := target.certpasswd.or source.certpasswd
    sslBackend := target.sslBackend.or source.sslBackend
    certhost := target.certhost.or source.certhost
    certverify := mergeInt source.certverify target.certverify
    forcessl := mergeInt source.forcessl target.forcessl }

def AuthconfItem.untitled (item : AuthconfItem) : AuthconfItem :=
  { item with section_ := none }

def AuthconfItem.settings (item : AuthconfItem) : AuthconfItem :=
  { item with section_ := none, user := none }

def blank : AuthconfItem :=
  createAuthconfItem none

variable {first second third : AuthconfItem}

theorem mergeInt_assoc (a b c : Int) : mergeInt c (mergeInt b a) = mergeInt (mergeInt c b) a := by
  unfold mergeInt
  grind

theorem over_assoc (first second third : AuthconfItem) : (first.over second).over third = first.over (second.over third) := by
  simp [AuthconfItem.over, Option.or_assoc, mergeInt_assoc]

@[simp] theorem over_self (item : AuthconfItem) : item.over item = item := by
  simp [AuthconfItem.over, mergeInt]

@[simp] theorem over_blank (item : AuthconfItem) : item.over blank = item := by
  simp [AuthconfItem.over, blank, createAuthconfItem, mergeInt]

theorem over_again (first second : AuthconfItem) : (first.over second).over second = first.over second := by
  rw [over_assoc, over_self]

theorem untitled_over (first second : AuthconfItem) : (first.over second).untitled = first.untitled.over second.untitled := rfl

theorem settings_over (first second : AuthconfItem) : (first.over second).settings = first.settings.over second.settings := rfl

theorem settings_untitled (same : first.untitled = second.untitled) : first.settings = second.settings := by
  have settings_ := congrArg AuthconfItem.settings same
  exact settings_

end Merging

section Layers

def layered (layers : List AuthconfItem) : AuthconfItem :=
  layers.foldr AuthconfItem.over blank

@[simp] theorem layered_nil : layered [] = blank := rfl

@[simp] theorem layered_one (item : AuthconfItem) : layered [item] = item :=
  over_blank item

def configured (config : List AuthconfItem) (section_ : Option CString) : Option AuthconfItem :=
  config.find? (·.section_ = section_)

def firstSwitch (values : List Int) : Int :=
  (values.find? (0 ≤ ·)).getD (-1)

def Switch (value : Int) : Prop :=
  value = -1 ∨ 0 ≤ value

theorem layered_string (field : AuthconfItem -> Option CString) (overField : ∀ a b : AuthconfItem, field (a.over b) = (field a).or (field b))
    (blankField : field blank = none) (layers : List AuthconfItem) : field (layered layers) = layers.findSome? field := by
  induction layers with
  | nil => exact blankField
  | cons first rest ih =>
    rw [layered, List.foldr_cons, overField, show field (rest.foldr AuthconfItem.over blank) = _ from ih, List.findSome?_cons]
    cases field first <;> rfl

theorem layered_switch (field : AuthconfItem -> Int) (overField : ∀ a b : AuthconfItem, field (a.over b) = mergeInt (field b) (field a))
    (blankField : field blank = -1) {layers : List AuthconfItem} (switches : ∀ item ∈ layers, Switch (field item)) :
    field (layered layers) = firstSwitch (layers.map field) := by
  induction layers with
  | nil => exact blankField
  | cons first rest ih =>
    have later := ih fun item member => switches item (List.mem_cons_of_mem _ member)
    have here := switches first List.mem_cons_self
    rw [layered, List.foldr_cons, overField, show field (rest.foldr AuthconfItem.over blank) = _ from later, List.map_cons]
    by_cases set : 0 ≤ field first
    · have kept : ¬ field first < 0 := Int.not_lt.mpr set
      simp [mergeInt, firstSwitch, set, kept]
    · have unset : field first = -1 := here.resolve_right set
      simp only [firstSwitch, List.find?_cons, unset, mergeInt]
      cases found : (rest.map field).find? (0 ≤ ·) with
      | none => simp
      | some value =>
        have positive : 0 ≤ value := by simpa using List.find?_some found
        simp [positive]

end Layers

section Requests

variable (services : Services) (config : List AuthconfItem) (request : Request)

def Request.parts : Parts :=
  normalizeAuthconfSectionParts services request.user request.host request.port

def Request.hostTitle : CString :=
  64 :: (request.parts services).host ++ 58 :: (request.parts services).port

def Request.asksNothing : Prop :=
  request.host = none ∧ request.port = none ∧ request.user = none

instance : Decidable request.asksNothing :=
  inferInstanceAs (Decidable (_ ∧ _ ∧ _))

def hostLayers (hostTitle : CString) : List AuthconfItem :=
  (configured config (some hostTitle)).toList ++ (configured config none).toList

def layers : List AuthconfItem :=
  if request.asksNothing then (configured config none).toList
  else
    (if request.user.getD [] ≠ [] then (configured config (some (request.user.getD [] ++ request.hostTitle services))).toList
      else []) ++ hostLayers config (request.hostTitle services)

def answer : AuthconfItem :=
  let layers := layers services config request
  { section_ := some (request.parts services).title
    user := if request.user.getD [] ≠ [] then request.user else layers.findSome? (·.user)
    pass := layers.findSome? (·.pass)
    certpath := layers.findSome? (·.certpath)
    certfile := layers.findSome? (·.certfile)
    certident := layers.findSome? (·.certident)
    certpasswd := layers.findSome? (·.certpasswd)
    sslBackend := layers.findSome? (·.sslBackend)
    certhost := layers.findSome? (·.certhost)
    certverify := firstSwitch (layers.map (·.certverify))
    forcessl := firstSwitch (layers.map (·.forcessl)) }

-- A request for nothing does not hide a section, no user name holds an `@`, and the title fits its buffer.
structure Proper : Prop where
  hidesNone : request.asksNothing -> request.addToList = true ->
    (layered (hostLayers config (request.hostTitle services))).untitled =
      (layered (configured config none).toList).untitled
  user : 64 ∉ request.user.getD []
  title : (request.user.getD []).length + (request.hostTitle services).length < largebuf

structure Listed (list : List AuthconfItem) (globalDefaults : Option Nat) : Prop where
  titles : (list.map (·.section_)).Nodup
  defaults : globalDefaults = (list.map (·.section_)).idxOf? none
  switches : ∀ item ∈ list, Switch item.certverify ∧ Switch item.forcessl

variable {services config request}

theorem configured_some {section_ : Option CString} {item : AuthconfItem} (found : configured config section_ = some item) :
    item ∈ config ∧ item.section_ = section_ := ⟨List.mem_of_find?_eq_some found, by simpa using List.find?_some found⟩

theorem Listed.configured {globalDefaults : Option Nat} (listed : Listed config globalDefaults) {item : AuthconfItem}
    (member : item ∈ config) : configured config item.section_ = some item := by
  cases found : Nutauth.configured config item.section_ with
  | none =>
    have apart := List.find?_eq_none.mp found item member
    simp at apart
  | some other =>
    obtain ⟨inside, same⟩ := configured_some found
    rw [List.inj_on_of_nodup_map listed.titles inside member same]

theorem layers_member {item : AuthconfItem} (member : item ∈ layers services config request) : item ∈ config := by
  have inside {section_ : Option CString} (found : item ∈ (configured config section_).toList) : item ∈ config := by
    rw [Option.mem_toList] at found
    exact (configured_some found).1
  unfold layers hostLayers at member
  split at member
  · exact inside member
  · rw [List.mem_append, List.mem_append] at member
    rcases member with user | host | defaults
    · split at user
      · exact inside user
      · cases user
    · exact inside host
    · exact inside defaults

theorem answer_eq {globalDefaults : Option Nat} (listed : Listed config globalDefaults) :
    answer services config request =
      { layered (layers services config request) with
        section_ := some (request.parts services).title
        user := if request.user.getD [] ≠ [] then request.user else (layered (layers services config request)).user } := by
  have verify : ∀ item ∈ layers services config request, Switch item.certverify :=
    fun item member => (listed.switches item (layers_member member)).1
  have force : ∀ item ∈ layers services config request, Switch item.forcessl :=
    fun item member => (listed.switches item (layers_member member)).2
  rw [AuthconfItem.ext_iff]
  refine ⟨rfl, ?_, ?_, ?_, ?_, ?_, ?_, ?_, ?_, ?_, ?_⟩
  · exact congrArg (fun user => if request.user.getD [] ≠ [] then request.user else user)
      (layered_string (·.user) (fun _ _ => rfl) rfl _).symm
  · exact (layered_string (·.pass) (fun _ _ => rfl) rfl _).symm
  · exact (layered_string (·.certpath) (fun _ _ => rfl) rfl _).symm
  · exact (layered_string (·.certfile) (fun _ _ => rfl) rfl _).symm
  · exact (layered_string (·.certident) (fun _ _ => rfl) rfl _).symm
  · exact (layered_string (·.certpasswd) (fun _ _ => rfl) rfl _).symm
  · exact (layered_string (·.sslBackend) (fun _ _ => rfl) rfl _).symm
  · exact (layered_string (·.certhost) (fun _ _ => rfl) rfl _).symm
  · exact (layered_switch (·.certverify) (fun _ _ => rfl) rfl verify).symm
  · exact (layered_switch (·.forcessl) (fun _ _ => rfl) rfl force).symm

end Requests

section Hits

structure Points (list : List AuthconfItem) (title hostTitle : CString) (hits : Hits) : Prop where
  user : ∀ place, hits.user = some place -> ∃ item, list[place]? = some item ∧ item.section_ = some title
  host : ∀ place, hits.host = some place -> ∃ item, list[place]? = some item ∧ item.section_ = some hostTitle

variable {title hostTitle : CString} {hits : Hits}

theorem findHits_points {before list : List AuthconfItem} (points : Points (before ++ list) title hostTitle hits) :
    Points (before ++ list) title hostTitle (findHits title (some hostTitle) before.length list hits) := by
  induction list generalizing before hits with
  | nil => exact points
  | cons tmp rest ih =>
    have here : (before ++ tmp :: rest)[before.length]? = some tmp := by simp
    have later {hits : Hits} (points : Points (before ++ tmp :: rest) title hostTitle hits) :
        Points (before ++ tmp :: rest) title hostTitle (findHits title (some hostTitle) (before.length + 1) rest hits) := by
      have moved := @ih hits (before ++ [tmp])
      simp only [List.append_assoc, List.singleton_append, List.length_append, List.length_singleton] at moved
      exact moved points
    unfold findHits
    dsimp only
    by_cases user : tmp.section_ = some title
    · have updated : Points (before ++ tmp :: rest) title hostTitle { hits with user := some before.length } :=
        ⟨fun place same => ⟨tmp, by cases same; exact here, user⟩, points.host⟩
      rw [if_pos user]
      split
      · exact updated
      · exact later updated
    · rw [if_neg user]
      by_cases host : tmp.section_ = some hostTitle
      · rw [if_pos host]
        exact later ⟨points.user, fun place same => ⟨tmp, by cases same; exact here, host⟩⟩
      · rw [if_neg host]
        exact later points

theorem findHits_user_none {list : List AuthconfItem} {i : Nat}
    (none_ : (findHits title (some hostTitle) i list hits).user = none) :
    hits.user = none ∧ ∀ item ∈ list, item.section_ ≠ some title := by
  induction list generalizing i hits with
  | nil => exact ⟨none_, by simp⟩
  | cons tmp rest ih =>
    unfold findHits at none_
    dsimp only at none_
    by_cases user : tmp.section_ = some title
    · rw [if_pos user] at none_
      split at none_
      · cases none_
      · cases (ih none_).1
    · rw [if_neg user] at none_
      by_cases host : tmp.section_ = some hostTitle
      · rw [if_pos host] at none_
        exact ⟨(ih none_).1, List.forall_mem_cons.mpr ⟨user, (ih none_).2⟩⟩
      · rw [if_neg host] at none_
        exact ⟨(ih none_).1, List.forall_mem_cons.mpr ⟨user, (ih none_).2⟩⟩

theorem findHits_host_none {list : List AuthconfItem} {i : Nat} (apart : title ≠ hostTitle)
    (none_ : (findHits title (some hostTitle) i list hits).host = none) :
    hits.host = none ∧ ∀ item ∈ list, item.section_ ≠ some hostTitle := by
  induction list generalizing i hits with
  | nil => exact ⟨none_, by simp⟩
  | cons tmp rest ih =>
    unfold findHits at none_
    dsimp only at none_
    by_cases user : tmp.section_ = some title
    · have other : tmp.section_ ≠ some hostTitle := by
        rw [user]
        exact fun same => apart (Option.some.inj same)
      rw [if_pos user] at none_
      split at none_
      next found =>
        rw [none_] at found
        cases found
      next => exact ⟨(ih none_).1, List.forall_mem_cons.mpr ⟨other, (ih none_).2⟩⟩
    · rw [if_neg user] at none_
      by_cases host : tmp.section_ = some hostTitle
      · rw [if_pos host] at none_
        cases (ih none_).1
      · rw [if_neg host] at none_
        exact ⟨(ih none_).1, List.forall_mem_cons.mpr ⟨host, (ih none_).2⟩⟩

theorem findHits_plain (before list : List AuthconfItem) :
    findHits title none before.length list { user := none, host := none } = { user := none, host := none } ∧
        (∀ item ∈ list, item.section_ ≠ some title) ∨
      ∃ place item, findHits title none before.length list { user := none, host := none } = { user := none, host := some place } ∧
        (before ++ list)[place]? = some item ∧ item.section_ = some title := by
  induction list generalizing before with
  | nil => exact .inl ⟨rfl, by simp⟩
  | cons tmp rest ih =>
    unfold findHits
    dsimp only
    by_cases here : tmp.section_ = some title
    · rw [if_pos here]
      exact .inr ⟨before.length, tmp, rfl, by simp, here⟩
    · rw [if_neg here]
      have moved := ih (before ++ [tmp])
      simp only [List.append_assoc, List.singleton_append, List.length_append, List.length_singleton] at moved
      rcases moved with ⟨none_, apart⟩ | found
      · exact .inl ⟨none_, List.forall_mem_cons.mpr ⟨here, apart⟩⟩
      · exact .inr found

end Hits

section Cache

structure Fitting (config : List AuthconfItem) (item : AuthconfItem) : Prop where
  host : ∀ rest, item.section_ = some (64 :: rest) ->
    (item.over (layered (configured config none).toList)).untitled = (layered (hostLayers config (64 :: rest))).untitled
  user : ∀ user rest, user ≠ [] -> 64 ∉ user -> item.section_ = some (user ++ 64 :: rest) ->
    (item.over (layered (hostLayers config (64 :: rest)))).settings =
      (layered ((configured config (some (user ++ 64 :: rest))).toList ++ hostLayers config (64 :: rest))).settings

structure Cached (config : List AuthconfItem) (st : Authconf) : Prop where
  pointer : st.globalDefaults = (st.list.map (·.section_)).idxOf? none
  defaults : configured st.list none = configured config none
  kept : ∀ item ∈ config, item.section_ ∈ st.list.map (·.section_)
  fits : ∀ item ∈ st.list, Fitting config item

variable {config : List AuthconfItem} {st : Authconf}

theorem hostLayers_absorb (config : List AuthconfItem) (hostTitle : CString) :
    (layered (hostLayers config hostTitle)).over (layered (configured config none).toList) =
      layered (hostLayers config hostTitle) := by
  unfold hostLayers
  cases configured config (some hostTitle) with
  | none => simp
  | some host =>
    have whole : layered ((some host).toList ++ (configured config none).toList) =
        host.over (layered (configured config none).toList) := rfl
    rw [whole, over_again]

theorem Listed.cached {list : List AuthconfItem} {globalDefaults : Option Nat} (listed : Listed list globalDefaults)
    (rest : Authconf) : Cached list { rest with list, globalDefaults } where
  pointer := listed.defaults
  defaults := rfl
  kept := fun _ member => List.mem_map_of_mem member
  fits := by
    intro item member
    have found := listed.configured member
    constructor
    · intro rest title
      rw [title] at found
      rw [hostLayers, found]
      rfl
    · intro user rest _ _ title
      rw [title] at found
      rw [found]
      rfl

theorem Cached.none_configured (cached : Cached config st) {section_ : Option CString}
    (absent : ∀ item ∈ st.list, item.section_ ≠ section_) : configured config section_ = none := by
  rw [configured, List.find?_eq_none]
  intro item member
  obtain ⟨other, inside, same⟩ := List.mem_map.mp (cached.kept item member)
  have apart := absent other inside
  rw [same] at apart
  simpa using apart

theorem idxOf_configured (list : List AuthconfItem) (section_ : Option CString) :
    ((list.map (·.section_)).idxOf? section_).bind (list[·]?) = configured list section_ := by
  induction list with
  | nil => rfl
  | cons first rest ih =>
    rw [List.map_cons, List.idxOf?_cons, configured, List.find?_cons]
    by_cases here : first.section_ = section_
    · simp [here]
    · have next : (((rest.map (·.section_)).idxOf? section_).map (· + 1)).bind ((first :: rest)[·]?) =
          configured rest section_ := by
        rw [<- ih]
        cases (rest.map (·.section_)).idxOf? section_ <;> simp
      simpa [here, configured] using next

theorem Cached.item_defaults (cached : Cached config st) : st.item st.globalDefaults = configured config none := by
  rw [<- cached.defaults, Authconf.item, cached.pointer, idxOf_configured]

theorem untitled_merge {title : CString} (noUser : titleUser title = none) (source : Option AuthconfItem)
    (target : AuthconfItem) :
    (mergeAuthconfItem source target title).untitled = (target.over (layered source.toList)).untitled := by
  cases source with
  | none => simp [mergeAuthconfItem]
  | some source =>
    rw [Option.toList_some, layered_one]
    simp [mergeAuthconfItem, AuthconfItem.over, AuthconfItem.untitled, noUser]

theorem settings_merge (source : Option AuthconfItem) (target : AuthconfItem) (title : CString) :
    (mergeAuthconfItem source target title).settings = (target.over (layered source.toList)).settings := by
  cases source with
  | none => simp [mergeAuthconfItem]
  | some source =>
    rw [Option.toList_some, layered_one]
    rfl

theorem section_merge {target : AuthconfItem} {title : CString} (titled : target.section_ = some title)
    (source : Option AuthconfItem) : (mergeAuthconfItem source target title).section_ = some title := by
  cases source with
  | none => exact titled
  | some source => rfl

theorem user_merge {target : AuthconfItem} {title user : CString} (named : titleUser title = some user)
    (fixed : target.user = some user) (source : Option AuthconfItem) :
    (mergeAuthconfItem source target title).user = some user := by
  cases source with
  | none => exact fixed
  | some source => simp [mergeAuthconfItem, named]

theorem untitled_clone {source : AuthconfItem} {title : CString} (noUser : titleUser title = none) :
    (cloneAuthconfItem source title).untitled = source.untitled := by
  simp [cloneAuthconfItem, AuthconfItem.untitled, noUser]

theorem settings_clone (source : AuthconfItem) (title : CString) : (cloneAuthconfItem source title).settings = source.settings := rfl

variable {services : Services} {request : Request}

theorem Proper.title_eq (proper : Proper services config request) :
    (request.parts services).title = request.user.getD [] ++ request.hostTitle services := by
  have fits := proper.title
  have whole : (request.parts services).title = snprintf largebuf (request.user.getD [] ++ request.hostTitle services) := by
    simp [Request.parts, Request.hostTitle, normalizeAuthconfSectionParts]
  rw [whole, snprintf_fits]
  rw [List.length_append]
  exact fits

theorem idxOf_at {user : CString} (noAt : 64 ∉ user) (rest : CString) : (user ++ 64 :: rest).idxOf? 64 = some user.length := by
  induction user with
  | nil => simp [List.idxOf?_cons]
  | cons b user ih =>
    rw [List.mem_cons, not_or] at noAt
    have apart : ¬ b = 64 := fun same => noAt.1 same.symm
    rw [List.cons_append, List.idxOf?_cons, ih noAt.2]
    simp [apart]

theorem titleUser_eq {user : CString} (noAt : 64 ∉ user) (rest : CString) :
    titleUser (user ++ 64 :: rest) = if user = [] then none else some user := by
  rw [titleUser, idxOf_at noAt]
  cases user with
  | nil => rfl
  | cons b user => simp

theorem mergeHits_plain {parts : Parts} {hits : Hits} (cached : Cached config st) (notFixed : parts.fixedUser = false)
    (noUser : titleUser parts.title = none) (noHit : hits.user = none) (retval : AuthconfItem) :
    (mergeHits request parts hits st retval).untitled =
      if hits.host.isSome then (retval.over (layered (configured config none).toList)).untitled else retval.untitled := by
  unfold mergeHits
  simp only [cached.item_defaults, noHit, notFixed, Bool.false_eq_true, if_false, Option.isSome_none, Bool.false_and, Bool.false_or]
  cases hits.host with
  | none => rfl
  | some place =>
    cases defaults : configured config none with
    | none => simp
    | some item =>
      simpa using untitled_merge noUser (some item) retval

theorem mergeHits_settings {parts : Parts} {hits : Hits} (cached : Cached config st) (retval : AuthconfItem) :
    (mergeHits request parts hits st retval).settings =
      if hits.user.isSome && hits.host.isSome then
        (retval.over ((layered (st.item hits.host).toList).over (layered (configured config none).toList))).settings
      else if hits.user.isSome || hits.host.isSome then (retval.over (layered (configured config none).toList)).settings
      else retval.settings := by
  have named (item : AuthconfItem) :
      (if parts.fixedUser then { item with user := request.user } else item).settings = item.settings := by
    split <;> rfl
  have defaultsMerged (hit : Bool) (item : AuthconfItem) :
      (if hit && (configured config none).isSome then mergeAuthconfItem (configured config none) item parts.title else item).settings =
        if hit then (item.over (layered (configured config none).toList)).settings else item.settings := by
    cases hit with
    | false => rfl
    | true =>
      cases defaults : configured config none with
      | none => simp
      | some found => simpa using settings_merge (some found) item parts.title
  unfold mergeHits
  rw [cached.item_defaults]
  dsimp only
  rw [defaultsMerged]
  by_cases both : (hits.user.isSome && hits.host.isSome) = true
  · have any : (hits.user.isSome || hits.host.isSome) = true := by
      rw [Bool.and_eq_true] at both
      rw [both.1, Bool.true_or]
    rw [if_pos both, if_pos both, if_pos any, settings_over, settings_merge, settings_over, named, <- settings_over, <- settings_over,
      over_assoc]
  · rw [if_neg both, if_neg both, settings_over, named, <- settings_over]

theorem mergeHits_section {parts : Parts} {hits : Hits} {retval : AuthconfItem} (titled : retval.section_ = some parts.title) :
    (mergeHits request parts hits st retval).section_ = some parts.title := by
  have named : (if parts.fixedUser then { retval with user := request.user } else retval).section_ = some parts.title := by
    split <;> exact titled
  have merged (hit : Bool) (source : Option AuthconfItem) {item : AuthconfItem} (own : item.section_ = some parts.title) :
      (if hit then mergeAuthconfItem source item parts.title else item).section_ = some parts.title := by
    split
    · exact section_merge own source
    · exact own
  exact merged _ _ (merged _ _ named)

theorem mergeHits_user {parts : Parts} {hits : Hits} {user : CString} (fixed : parts.fixedUser = true)
    (asked : request.user = some user) (named : titleUser parts.title = some user) (retval : AuthconfItem) :
    (mergeHits request parts hits st retval).user = some user := by
  have merged (hit : Bool) (source : Option AuthconfItem) {item : AuthconfItem} (own : item.user = some user) :
      (if hit then mergeAuthconfItem source item parts.title else item).user = some user := by
    split
    · exact user_merge named own source
    · exact own
  unfold mergeHits
  rw [if_pos fixed]
  exact merged _ _ (merged _ _ asked)

theorem Cached.of_members {list : List AuthconfItem} (cached : Cached config st)
    (titles : (list.map (·.section_)).idxOf? none = (st.list.map (·.section_)).idxOf? none)
    (defaults : configured list none = configured st.list none)
    (kept : ∀ section_ ∈ st.list.map (·.section_), section_ ∈ list.map (·.section_))
    (members : ∀ item ∈ list, item ∈ st.list ∨ Fitting config item) : Cached config { st with list } where
  pointer := cached.pointer.trans titles.symm
  defaults := defaults.trans cached.defaults
  kept := fun item member => kept _ (cached.kept item member)
  fits := fun item member => (members item member).elim (cached.fits item) id

theorem idxOf_append_other {titles : List (Option CString)} {title : CString} :
    (titles ++ [some title]).idxOf? none = titles.idxOf? none := by
  induction titles with
  | nil => simp [List.idxOf?_cons]
  | cons first rest ih => simp [List.idxOf?_cons, ih]

theorem Cached.append {item : AuthconfItem} (cached : Cached config st) {title : CString} (titled : item.section_ = some title)
    (fitting : Fitting config item) : Cached config { st with list := st.list ++ [item] } := by
  apply cached.of_members
  · rw [List.map_append, List.map_singleton, titled, idxOf_append_other]
  · simp [configured, List.find?_append, titled]
  · intro section_ member
    rw [List.map_append]
    exact List.mem_append_left _ member
  · intro other member
    rcases List.mem_append.mp member with old | new
    · exact .inl old
    · rw [List.mem_singleton.mp new]
      exact .inr fitting

theorem Cached.set {item before : AuthconfItem} {place : Nat} (cached : Cached config st) {title : CString}
    (found : st.list[place]? = some before) (titled : before.section_ = some title) (same : item.section_ = some title)
    (fitting : Fitting config item) : Cached config { st with list := st.list.set place item } := by
  have titles : (st.list.set place item).map (·.section_) = st.list.map (·.section_) := by
    rw [List.map_set, same, <- titled]
    apply List.ext_getElem?
    intro i
    rw [List.getElem?_set]
    split
    next here =>
      rw [<- here, List.getElem?_map, found]
      have inside := (List.getElem?_eq_some_iff.mp found).1
      simp [inside]
    next => rfl
  apply cached.of_members
  · rw [titles]
  · rw [<- idxOf_configured, <- idxOf_configured, titles]
    cases pointer : (st.list.map (·.section_)).idxOf? none with
    | none => rfl
    | some i =>
      have untitled_ := idxOf_configured st.list none
      rw [pointer, Option.bind_some] at untitled_
      have apart : place ≠ i := by
        rintro rfl
        rw [found] at untitled_
        have none_ := (configured_some untitled_.symm).2
        rw [titled] at none_
        cases none_
      rw [Option.bind_some, Option.bind_some, List.getElem?_set_ne apart]
  · intro section_ member
    rwa [titles]
  · intro other member
    rcases List.mem_or_eq_of_mem_set member with old | new
    · exact .inl old
    · rw [new]
      exact .inr fitting

end Cache

section Answers

variable {services : Services} {config : List AuthconfItem} {request : Request} {st : Authconf}

theorem startItem_new {parts : Parts} {hits : Hits} (noHit : st.item (hits.user.or hits.host) = none)
    (cached : Cached config st) : (startItem request parts hits st).1 = none ∧
      (startItem request parts hits st).2.section_ = some parts.title ∧
      (startItem request parts hits st).2.settings = (layered (configured config none).toList).settings ∧
      (titleUser parts.title = none ->
        (startItem request parts hits st).2.untitled = (layered (configured config none).toList).untitled) := by
  unfold startItem
  rw [noHit, cached.item_defaults]
  cases configured config none with
  | none => exact ⟨rfl, rfl, rfl, fun _ => rfl⟩
  | some defaults =>
    refine ⟨rfl, rfl, by simp [settings_clone], fun noUser => ?_⟩
    rw [Option.toList_some, layered_one]
    exact untitled_clone noUser

theorem startItem_found {parts : Parts} {hits : Hits} {found : AuthconfItem}
    (hit : st.item (hits.user.or hits.host) = some found) :
    (startItem request parts hits st).2.settings = found.settings ∧
      (titleUser parts.title = none -> (startItem request parts hits st).2.untitled = found.untitled) ∧
      (found.section_ = some parts.title ∨ (hits.user = none ∧ parts.fixedUser = true) ->
        (startItem request parts hits st).2.section_ = some parts.title) := by
  unfold startItem
  rw [hit]
  dsimp only
  split
  next new => exact ⟨settings_clone _ _, untitled_clone, fun _ => rfl⟩
  next place =>
    refine ⟨rfl, fun _ => rfl, fun titled => titled.resolve_right ?_⟩
    rintro ⟨noUser, fixed⟩
    simp [noUser, fixed] at place

theorem startItem_place {parts : Parts} {hits : Hits} {place : Nat} (edited : (startItem request parts hits st).1 = some place) :
    hits.user.or hits.host = some place ∧ st.list[place]? = some (startItem request parts hits st).2 ∧
      ¬ (hits.user = none ∧ parts.fixedUser = true) := by
  unfold startItem at edited ⊢
  split at edited
  next found hit =>
    split at edited
    next => cases edited
    next kept =>
      rw [if_neg kept]
      refine ⟨edited, ?_, ?_⟩
      · have here : hits.user.or hits.host = some place := edited
        rw [Authconf.item, here] at hit
        exact hit
      · rintro ⟨noUser, fixed⟩
        simp [noUser, fixed] at kept
  next =>
    split at edited <;> cases edited

theorem titled_eq {item other : AuthconfItem} {title : CString} (titled : item.section_ = some title)
    (same : item.untitled = other.untitled) : item = { other with section_ := some title } := by
  rw [<- titled]
  simp only [AuthconfItem.untitled, AuthconfItem.mk.injEq, true_and] at same
  exact AuthconfItem.ext rfl same.1 same.2.1 same.2.2.1 same.2.2.2.1 same.2.2.2.2.1 same.2.2.2.2.2.1 same.2.2.2.2.2.2.1
    same.2.2.2.2.2.2.2.1 same.2.2.2.2.2.2.2.2.1 same.2.2.2.2.2.2.2.2.2

theorem named_eq {item other : AuthconfItem} {title : CString} {user : Option CString} (titled : item.section_ = some title)
    (named : item.user = user) (same : item.settings = other.settings) :
    item = { other with section_ := some title, user } := by
  rw [<- titled, <- named]
  simp only [AuthconfItem.settings, AuthconfItem.mk.injEq, true_and] at same
  exact AuthconfItem.ext rfl rfl same.1 same.2.1 same.2.2.1 same.2.2.2.1 same.2.2.2.2.1 same.2.2.2.2.2.1 same.2.2.2.2.2.2.1
    same.2.2.2.2.2.2.2.1 same.2.2.2.2.2.2.2.2

theorem Proper.plain (proper : Proper services config request) (noUser : request.user.getD [] = []) :
    (request.parts services).fixedUser = false ∧ (request.parts services).title = request.hostTitle services ∧
      titleUser (request.parts services).title = none := by
  have title := proper.title_eq
  rw [noUser, List.nil_append] at title
  refine ⟨by simp [Request.parts, normalizeAuthconfSectionParts, noUser], title, ?_⟩
  rw [title]
  exact titleUser_eq List.not_mem_nil _

theorem Proper.named (proper : Proper services config request) {user : CString} (asked : request.user = some user)
    (some_ : user ≠ []) :
    (request.parts services).fixedUser = true ∧ (request.parts services).title = user ++ request.hostTitle services ∧
      titleUser (request.parts services).title = some user := by
  have title := proper.title_eq
  have noAt := proper.user
  rw [asked] at title noAt
  refine ⟨by simp [Request.parts, normalizeAuthconfSectionParts, asked, some_], title, ?_⟩
  rw [title]
  exact (titleUser_eq noAt _).trans (if_neg some_)

theorem fitting_host {item : AuthconfItem} {rest : CString} (titled : item.section_ = some (64 :: rest))
    (same : item.untitled = (layered (hostLayers config (64 :: rest))).untitled) : Fitting config item where
  host := by
    intro other title
    rw [titled] at title
    obtain rfl : rest = other := by simpa using title
    rw [untitled_over, same, <- untitled_over, hostLayers_absorb]
  user := by
    intro user other some_ noAt title
    rw [titled] at title
    cases user with
    | nil => exact absurd rfl some_
    | cons b user =>
      have first : 64 = b := (List.cons.inj (Option.some.inj title)).1
      exact absurd (first ▸ List.mem_cons_self) noAt

theorem fitting_user {item : AuthconfItem} {user rest : CString} (some_ : user ≠ []) (noAt : 64 ∉ user)
    (titled : item.section_ = some (user ++ 64 :: rest)) (same : item.settings =
      (layered ((configured config (some (user ++ 64 :: rest))).toList ++ hostLayers config (64 :: rest))).settings) :
    Fitting config item where
  host := by
    intro other title
    rw [titled] at title
    cases user with
    | nil => exact absurd rfl some_
    | cons b user =>
      have first : b = 64 := (List.cons.inj (Option.some.inj title)).1
      exact absurd (first ▸ List.mem_cons_self) noAt
  user := by
    intro other behind otherSome otherNoAt title
    rw [titled] at title
    have titles := congrArg titleUser (Option.some.inj title)
    rw [titleUser_eq noAt, titleUser_eq otherNoAt, if_neg some_, if_neg otherSome] at titles
    obtain rfl : user = other := Option.some.inj titles
    obtain rfl : rest = behind := by simpa using title
    rw [settings_over, same, <- settings_over]
    congr 1
    cases configured config (some (user ++ 64 :: rest)) with
    | none => exact over_self _
    | some own => exact over_again _ _

theorem plain_answered (cached : Cached config st) (proper : Proper services config request)
    (noUser : request.user.getD [] = []) (something : ¬ request.asksNothing) :
    let hits := bestHits request (request.parts services) st
    hits.user = none ∧
      (mergeHits request (request.parts services) hits st (startItem request (request.parts services) hits st).2).untitled =
        (layered (hostLayers config (request.hostTitle services))).untitled ∧
      ∀ found, st.item hits.host = some found -> found.section_ = some (request.parts services).title := by
  obtain ⟨notFixed, title, noTitleUser⟩ := proper.plain noUser
  intro hits
  have search : hits = findHits (request.parts services).title none 0 st.list { user := none, host := none } := by
    simp only [hits, bestHits, notFixed, Bool.false_eq_true, if_false]
    exact if_neg something
  rcases findHits_plain [] st.list with ⟨none_, absent⟩ | ⟨place, item, found, member, titled⟩
  · rw [show ([] : List AuthconfItem).length = 0 from rfl, <- search] at none_
    have miss : st.item (hits.user.or hits.host) = none := by rw [none_]; rfl
    obtain ⟨_, _, _, content⟩ := @startItem_new _ request _ (request.parts services) hits miss cached
    refine ⟨by rw [none_], ?_, by simp [none_, Authconf.item]⟩
    rw [mergeHits_plain cached notFixed noTitleUser (by rw [none_]), none_]
    rw [none_] at content
    have absent_ : configured config (some (request.hostTitle services)) = none := by
      rw [<- title]
      exact cached.none_configured absent
    rw [hostLayers, absent_]
    exact content noTitleUser
  · rw [show ([] : List AuthconfItem).length = 0 from rfl, <- search] at found
    have hit : st.item (hits.user.or hits.host) = some item := by rw [found]; exact member
    obtain ⟨_, content, _⟩ := @startItem_found request _ (request.parts services) hits _ hit
    refine ⟨by rw [found], ?_, ?_⟩
    · have here : hits.host.isSome = true := by rw [found]; rfl
      have fitting := (cached.fits item (List.mem_of_getElem? member)).host
      rw [titled, title] at fitting
      rw [mergeHits_plain cached notFixed noTitleUser (by rw [found]), if_pos here, untitled_over, content noTitleUser,
        <- untitled_over]
      exact fitting _ rfl
    · intro other same
      rw [found] at same
      have items : some item = some other := member.symm.trans same
      rw [<- Option.some.inj items, titled]

theorem named_answered (cached : Cached config st) (proper : Proper services config request) {user : CString}
    (asked : request.user = some user) (some_ : user ≠ []) :
    let hits := bestHits request (request.parts services) st
    (mergeHits request (request.parts services) hits st (startItem request (request.parts services) hits st).2).settings =
        (layered ((configured config (some (user ++ request.hostTitle services))).toList ++
          hostLayers config (request.hostTitle services))).settings ∧
      ∀ place found, hits.user = some place -> st.list[place]? = some found ->
        found.section_ = some (request.parts services).title := by
  obtain ⟨fixed, title, titleUser_⟩ := proper.named asked some_
  have noAt : 64 ∉ user := by simpa [asked] using proper.user
  have apart : (request.parts services).title ≠ request.hostTitle services := by
    rw [title]
    intro same
    exact some_ (by simpa using same)
  intro hits
  have search : hits = findHits (request.parts services).title (some (request.hostTitle services)) 0 st.list
      { user := none, host := none } := by
    have at_ : (request.parts services).title.idxOf? 64 = some user.length := by
      rw [title]
      exact idxOf_at noAt _
    have behind : (request.parts services).title.drop user.length = request.hostTitle services := by
      rw [title, List.drop_left]
    have something : ¬ (request.host = none ∧ request.port = none ∧ request.user = none) := by simp [asked]
    simp only [hits, bestHits, fixed, if_true, at_, Option.map_some, behind]
    exact if_neg something
  have points : Points st.list (request.parts services).title (request.hostTitle services) hits := by
    have start : Points ([] ++ st.list) (request.parts services).title (request.hostTitle services)
        { user := none, host := none } := ⟨fun _ none_ => (by cases none_), fun _ none_ => (by cases none_)⟩
    rw [search]
    exact findHits_points start
  have noUser (none_ : hits.user = none) : configured config (some (user ++ request.hostTitle services)) = none := by
    rw [search] at none_
    rw [<- title]
    exact cached.none_configured (findHits_user_none none_).2
  have noHost (none_ : hits.host = none) :
      hostLayers config (request.hostTitle services) = (configured config none).toList := by
    rw [search] at none_
    rw [hostLayers, cached.none_configured (findHits_host_none apart none_).2, Option.toList_none, List.nil_append]
  have hostFits {place : Nat} {item : AuthconfItem} (found : st.list[place]? = some item)
      (titled : item.section_ = some (request.hostTitle services)) :
      (item.over (layered (configured config none).toList)).settings =
        (layered (hostLayers config (request.hostTitle services))).settings :=
    settings_untitled ((cached.fits item (List.mem_of_getElem? found)).host _ titled)
  have userFits {place : Nat} {item : AuthconfItem} (found : st.list[place]? = some item)
      (titled : item.section_ = some (request.parts services).title) :
      (item.over (layered (hostLayers config (request.hostTitle services)))).settings =
        (layered ((configured config (some (user ++ request.hostTitle services))).toList ++
          hostLayers config (request.hostTitle services))).settings := by
    rw [title] at titled
    exact (cached.fits item (List.mem_of_getElem? found)).user user _ some_ noAt titled
  refine ⟨?_, ?_⟩
  · rw [mergeHits_settings cached]
    cases hitUser : hits.user with
    | none =>
      rw [noUser hitUser, Option.toList_none, List.nil_append]
      cases hitHost : hits.host with
      | none =>
        have miss : st.item (hits.user.or hits.host) = none := by rw [hitUser, hitHost]; rfl
        rw [noHost hitHost]
        exact (@startItem_new _ request _ (request.parts services) hits miss cached).2.2.1
      | some place =>
        obtain ⟨item, found, titled⟩ := points.host place hitHost
        have hit : st.item (hits.user.or hits.host) = some item := by rw [hitUser, hitHost]; exact found
        have start := (@startItem_found request _ (request.parts services) hits _ hit).1
        simp only [Option.isSome_none, Bool.false_and, Bool.false_or, Option.isSome_some, Bool.false_eq_true, if_false, if_true]
        rw [settings_over, start, <- settings_over]
        exact hostFits found titled
    | some place =>
      obtain ⟨item, found, titled⟩ := points.user place hitUser
      have hit : st.item (hits.user.or hits.host) = some item := by rw [hitUser]; exact found
      have start := (@startItem_found request _ (request.parts services) hits _ hit).1
      rw [<- userFits found titled]
      cases hitHost : hits.host with
      | none =>
        simp only [Option.isSome_none, Bool.and_false, Bool.or_false, Option.isSome_some, Bool.false_eq_true, if_false, if_true]
        rw [settings_over, start, <- settings_over, noHost hitHost]
      | some place =>
        obtain ⟨hostItem, hostFound, hostTitled⟩ := points.host place hitHost
        have host : st.item (some place) = some hostItem := hostFound
        simp only [Option.isSome_some, Bool.and_self, if_true, host, Option.toList_some, layered_one]
        rw [settings_over, start, hostFits hostFound hostTitled, <- settings_over]
  · intro place found here member
    obtain ⟨item, inside, titled⟩ := points.user place here
    rw [member] at inside
    rw [Option.some.inj inside, titled]

theorem startItem_section (cached : Cached config st) {hits : Hits}
    (own : ∀ found, st.item (hits.user.or hits.host) = some found ->
      found.section_ = some (request.parts services).title ∨ (hits.user = none ∧ (request.parts services).fixedUser = true)) :
    (startItem request (request.parts services) hits st).2.section_ = some (request.parts services).title := by
  cases hit : st.item (hits.user.or hits.host) with
  | none => exact (startItem_new hit cached).2.1
  | some found => exact (startItem_found hit).2.2 (own found hit)

theorem request_answered {globalDefaults : Option Nat} (listed : Listed config globalDefaults) (cached : Cached config st)
    (proper : Proper services config request) :
    let hits := bestHits request (request.parts services) st
    let start := startItem request (request.parts services) hits st
    let retval := mergeHits request (request.parts services) hits st start.2
    retval = answer services config request ∧ (request.addToList = true -> Fitting config retval) ∧
      retval.section_ = some (request.parts services).title ∧ start.2.section_ = some (request.parts services).title := by
  intro hits start retval
  have same := @answer_eq services config request globalDefaults listed
  by_cases noUser : request.user.getD [] = []
  · obtain ⟨notFixed, title, noTitleUser⟩ := proper.plain noUser
    by_cases nothing : request.asksNothing
    · have noHits : hits = { user := none, host := none } := if_pos nothing
      have started := @startItem_new config request st (request.parts services) hits (by rw [noHits]; rfl) cached
      have titled : retval.section_ = some (request.parts services).title := mergeHits_section started.2.1
      have content : retval.untitled = (layered (configured config none).toList).untitled := by
        have merged := @mergeHits_plain config st request _ hits cached notFixed noTitleUser (by rw [noHits]) start.2
        rw [if_neg (by simp [noHits])] at merged
        exact merged.trans (started.2.2.2 noTitleUser)
      refine ⟨?_, fun added => ?_, titled, started.2.1⟩
      · rw [same, layers, if_pos nothing, if_neg (not_not.mpr noUser)]
        exact titled_eq titled content
      · rw [title] at titled
        exact fitting_host titled (content.trans (proper.hidesNone nothing added).symm)
    · obtain ⟨noHit, content, own⟩ := plain_answered cached proper noUser nothing
      have started : start.2.section_ = some (request.parts services).title := by
        apply startItem_section cached
        intro found hit
        rw [noHit, Option.none_or] at hit
        exact .inl (own found hit)
      have titled : retval.section_ = some (request.parts services).title := mergeHits_section started
      refine ⟨?_, fun _ => ?_, titled, started⟩
      · rw [same, layers, if_neg nothing, if_neg (not_not.mpr noUser), if_neg (not_not.mpr noUser), List.nil_append]
        exact titled_eq titled content
      · rw [title] at titled
        exact fitting_host titled content
  · obtain ⟨user, asked⟩ : ∃ user, request.user = some user := by
      cases asked : request.user with
      | none => simp [asked] at noUser
      | some user => exact ⟨user, rfl⟩
    have some_ : user ≠ [] := by simpa [asked] using noUser
    have noAt : 64 ∉ user := by simpa [asked] using proper.user
    have something : ¬ request.asksNothing := fun nothing => by simp [nothing.2.2] at asked
    obtain ⟨fixed, title, named⟩ := proper.named asked some_
    obtain ⟨content, own⟩ := named_answered cached proper asked some_
    have started : start.2.section_ = some (request.parts services).title := by
      apply startItem_section cached
      intro found hit
      cases hitUser : hits.user with
      | none => exact .inr ⟨rfl, fixed⟩
      | some place =>
        rw [hitUser, Option.some_or] at hit
        exact .inl (own place found hitUser hit)
    have titled : retval.section_ = some (request.parts services).title := mergeHits_section started
    refine ⟨?_, fun _ => ?_, titled, started⟩
    · rw [same, layers, if_neg something, if_pos noUser, if_pos noUser, asked]
      exact named_eq titled (mergeHits_user fixed asked named _) content
    · rw [title] at titled
      exact fitting_user some_ noAt titled content

theorem getAuthconfItem_fst (request : Request) (st : Authconf) : (getAuthconfItem services request st).1 =
      mergeHits request (request.parts services) (bestHits request (request.parts services) st) st
        (startItem request (request.parts services) (bestHits request (request.parts services) st) st).2 := by
  unfold getAuthconfItem
  dsimp only
  split
  · split <;> rfl
  · rfl

theorem getAuthconfItem_uncached (notAdded : request.addToList = false) :
    (getAuthconfItem services request st).2 = st := by
  simp [getAuthconfItem, notAdded]

theorem getAuthconfItem_cached {globalDefaults : Option Nat} (listed : Listed config globalDefaults)
    (cached : Cached config st) (proper : Proper services config request) :
    Cached config (getAuthconfItem services request st).2 := by
  obtain ⟨_, fitting, titled, started⟩ := request_answered listed cached proper
  by_cases added : request.addToList = true
  · unfold getAuthconfItem
    dsimp only
    rw [if_pos added]
    split
    next place edited =>
      obtain ⟨_, before, _⟩ := startItem_place edited
      exact cached.set before started titled (fitting added)
    next => exact cached.append titled (fitting added)
  · rw [getAuthconfItem_uncached (by simpa using added)]
    exact cached

end Answers

section Reading

theorem setAuthconfVal_section (fixedUsername : Bool) (var : CString) (val : Option CString) (conf : AuthconfItem) :
    (setAuthconfVal fixedUsername var val conf).section_ = conf.section_ := by
  cases val <;> simp only [setAuthconfVal, apply_ite AuthconfItem.section_, ite_self]

theorem Switch.ite {c : Prop} [Decidable c] {on off : Int} (switch : Switch on) (other : Switch off) :
    Switch (if c then on else off) := by
  split
  · exact switch
  · exact other

theorem setSwitch_switch (val : CString) {before : Int} (switch : Switch before) : Switch (setSwitch val before) :=
  .ite (.inr (by decide)) (.ite (.inr (by decide)) switch)

theorem setAuthconfVal_switches (fixedUsername : Bool) (var : CString) (val : Option CString) {conf : AuthconfItem}
    (switches : Switch conf.certverify ∧ Switch conf.forcessl) :
    Switch (setAuthconfVal fixedUsername var val conf).certverify ∧
      Switch (setAuthconfVal fixedUsername var val conf).forcessl := by
  obtain ⟨certverify, forcessl⟩ := switches
  cases val with
  | none =>
    simp only [setAuthconfVal, apply_ite AuthconfItem.certverify, apply_ite AuthconfItem.forcessl, ite_self]
    exact ⟨certverify, forcessl⟩
  | some val =>
    have verified := setSwitch_switch val certverify
    have forced := setSwitch_switch val forcessl
    simp only [setAuthconfVal, apply_ite AuthconfItem.certverify, apply_ite AuthconfItem.forcessl, ite_self]
    constructor <;> repeat' first | assumption | apply Switch.ite

variable {list : List AuthconfItem} {globalDefaults : Option Nat}

theorem Listed.modify (listed : Listed list globalDefaults) (place : Nat) (fixedUsername : Bool) (var : CString)
    (val : Option CString) : Listed (list.modify place (setAuthconfVal fixedUsername var val)) globalDefaults := by
  have titles : (list.modify place (setAuthconfVal fixedUsername var val)).map (·.section_) = list.map (·.section_) := by
    apply List.ext_getElem?
    intro i
    rw [List.getElem?_map, List.getElem?_map, List.getElem?_modify]
    cases list[i]? with
    | none => rfl
    | some item =>
      by_cases here : place = i <;> simp [here, setAuthconfVal_section]
  refine ⟨by rw [titles]; exact listed.titles, by rw [titles]; exact listed.defaults, ?_⟩
  intro item member
  obtain ⟨i, inside⟩ := List.getElem?_of_mem member
  rw [List.getElem?_modify] at inside
  cases found : list[i]? with
  | none => simp [found] at inside
  | some before =>
    have switches := listed.switches before (List.mem_of_getElem? found)
    rw [found, Option.map_eq_map, Option.map_some, Option.some.injEq] at inside
    rw [<- inside]
    split
    · exact setAuthconfVal_switches _ _ _ switches
    · exact switches

theorem Listed.append (listed : Listed list globalDefaults) {item : AuthconfItem} {title : CString}
    (titled : item.section_ = some title) (new : ∀ other ∈ list, other.section_ ≠ some title)
    (switches : Switch item.certverify ∧ Switch item.forcessl) : Listed (list ++ [item]) globalDefaults where
  titles := by
    rw [List.map_append, List.map_singleton, List.nodup_append]
    refine ⟨listed.titles, List.nodup_singleton _, ?_⟩
    intro section_ member other last same
    obtain ⟨old, inside, rfl⟩ := List.mem_map.mp member
    rw [List.mem_singleton.mp last, titled] at same
    exact new old inside same
  defaults := by rw [List.map_append, List.map_singleton, titled, idxOf_append_other, <- listed.defaults]
  switches := by
    intro other member
    rcases List.mem_append.mp member with old | last
    · exact listed.switches other old
    · rw [List.mem_singleton.mp last]
      exact switches

theorem Listed.appendDefaults (listed : Listed list none) : Listed (list ++ [createAuthconfItem none]) (some list.length) := by
  have absent : (none : Option CString) ∉ list.map (·.section_) := by
    rw [<- List.idxOf?_eq_none_iff]
    exact listed.defaults.symm
  refine ⟨?_, ?_, ?_⟩
  · rw [List.map_append, List.map_singleton, List.nodup_append]
    refine ⟨listed.titles, List.nodup_singleton _, ?_⟩
    intro section_ member other last same
    rw [List.mem_singleton.mp last] at same
    have none_ : section_ = none := same
    exact absent (none_ ▸ member)
  · have behind {titles : List (Option CString)} (absent : none ∉ titles) :
        (titles ++ [none]).idxOf? none = some titles.length := by
      induction titles with
      | nil => simp [List.idxOf?_cons]
      | cons first rest ih =>
        rw [List.mem_cons, not_or] at absent
        rw [List.cons_append, List.idxOf?_cons, ih absent.2]
        simp [Ne.symm absent.1]
    have created : (createAuthconfItem none).section_ = none := rfl
    rw [List.map_append, List.map_singleton, created, behind absent, List.length_map]
  · intro item member
    rcases List.mem_append.mp member with old | last
    · exact listed.switches item old
    · rw [List.mem_singleton.mp last]
      exact ⟨.inl rfl, .inl rfl⟩

variable {services : Services}

theorem setVal_listed {st : Authconf} (listed : Listed st.list st.globalDefaults) (var : CString) (val : Option CString) :
    Listed (st.setVal var val).list (st.setVal var val).globalDefaults := by
  unfold Authconf.setVal
  split
  next => exact listed.modify _ _ _ _
  next =>
    unfold Authconf.editDefaults
    split
    next => exact listed.modify _ _ _ _
    next defaults =>
      rw [defaults] at listed
      exact listed.appendDefaults.modify _ _ _ _

theorem finishSection_list (st : Authconf) :
    (finishSection services st).list = st.list ∧ (finishSection services st).globalDefaults = st.globalDefaults := by
  unfold finishSection
  repeat' split
  all_goals exact ⟨rfl, rfl⟩

theorem enterSection_listed {st after : Authconf} {globalScope : Bool} {sectName : CString}
    (listed : Listed st.list st.globalDefaults) (entered : enterSection services globalScope sectName st = .ok after) :
    Listed after.list after.globalDefaults := by
  unfold enterSection at entered
  split at entered
  next => cases entered
  next parts user _ =>
    dsimp only at entered
    split at entered
    · cases entered
      exact listed
    · split at entered
      next =>
        cases entered
        exact listed
      next absent =>
        cases entered
        rw [List.findIdx?_eq_none_iff] at absent
        exact @Listed.append _ _ listed _ parts.title rfl (fun other member => by simpa using absent other member)
          ⟨.inl rfl, .inl rfl⟩

theorem handleAuthconfArgs_listed {parseInclude : CString -> Bool -> Bool -> Authconf -> Except Stop Authconf}
    (included : ∀ filename fatal scope st after, Listed st.list st.globalDefaults ->
      parseInclude filename fatal scope st = .ok after -> Listed after.list after.globalDefaults)
    {globalScope : Bool} {st after : Authconf} {arg : List CString} (listed : Listed st.list st.globalDefaults)
    (handled : handleAuthconfArgs services parseInclude globalScope st arg = .ok after) :
    Listed after.list after.globalDefaults := by
  obtain ⟨list, defaults⟩ := @finishSection_list services st
  have finished : Listed (finishSection services st).list (finishSection services st).globalDefaults := by
    rw [list, defaults]
    exact listed
  unfold handleAuthconfArgs at handled
  cases arg with
  | nil =>
    cases handled
    exact listed
  | cons var rest =>
    dsimp only at handled
    split at handled
    next =>
      split at handled
      · split at handled
        all_goals
          cases handled
          exact finished
      · exact @enterSection_listed _ { finishSection services st with currentSectionIgnored := false } _ _ _ finished handled
    next =>
      repeat' split at handled
      all_goals
        first
        | exact included _ _ _ _ _ listed handled
        | cases handled
      all_goals
        first
        | exact listed
        | exact setVal_listed listed _ _

theorem readAuthconfFile_listed {files : Files} {confpath filename : CString} {depth : Nat} {fatal fixedUsername : Bool}
    {st : Authconf} (read : readAuthconfFile services files confpath depth filename fatal fixedUsername = .ok st) :
    Listed st.list st.globalDefaults := by
  have parsed (depth : Nat) : ∀ filename fatal scope before after, Listed before.list before.globalDefaults ->
      parseAuthconfFile services files confpath depth filename fatal scope before = .ok after ->
        Listed after.list after.globalDefaults := by
    induction depth with
    | zero =>
      intro filename fatal scope before after _ done
      cases done
    | succ depth ih =>
      intro filename fatal scope before after listed done
      unfold parseAuthconfFile at done
      split at done
      next =>
        cases done
        exact listed
      next =>
        split at done
        next => cases done
        next =>
          split at done <;> cases done
          exact listed
        next lines _ =>
          obtain ⟨last, folded, closed⟩ := bind_eq_ok.mp done
          cases closed
          exact @foldlM_keeps _ _ _ _ (fun st => Listed st.list st.globalDefaults)
            (fun _ _ _ listed handled => handleAuthconfArgs_listed ih listed handled) _ _ _ listed folded
  exact parsed depth filename fatal true (freed fixedUsername) st ⟨List.nodup_nil, rfl, by simp [freed]⟩ read

end Reading

section Runs

variable {services : Services} {config : List AuthconfItem}

def afterRequests (services : Services) (st : Authconf) (requests : List Request) : Authconf :=
  requests.foldl (fun st request => (getAuthconfItem services request st).2) st

-- Whatever was asked for before, a request is answered from the configuration that was read.
theorem requests_answered {files : Files} {confpath filename : CString} {depth : Nat} {fatal fixedUsername : Bool}
    {st : Authconf} (read : readAuthconfFile services files confpath depth filename fatal fixedUsername = .ok st)
    (requests : List Request) (request : Request) (proper : ∀ each ∈ requests ++ [request], Proper services st.list each) :
    let before := afterRequests services st requests
    (getAuthconfItem services request before).1 = answer services st.list request ∧
      (request.addToList = false -> (getAuthconfItem services request before).2.list = before.list) := by
  have listed := readAuthconfFile_listed read
  have cached (requests : List Request) (proper : ∀ each ∈ requests, Proper services st.list each) :
      Cached st.list (afterRequests services st requests) := by
    induction requests using List.reverseRecOn with
    | nil => exact listed.cached st
    | append_singleton earlier last ih =>
      have before := ih fun each member => proper each (List.mem_append_left _ member)
      rw [afterRequests, List.foldl_append, List.foldl_cons, List.foldl_nil]
      exact getAuthconfItem_cached listed before (proper last (by simp))
  have before := cached requests fun each member => proper each (List.mem_append_left _ member)
  constructor
  · rw [getAuthconfItem_fst]
    exact (request_answered listed before (proper request (by simp))).1
  · intro notAdded
    rw [getAuthconfItem_uncached notAdded]

def twoPasswords : Files := fun _ =>
  .opened (cstr "PASS = a\n[@localhost]\nPASS = b\n")

def noServices : Services := fun _ => none

def twoSections : Authconf :=
  { list := [{ createAuthconfItem none with pass := some (cstr "a") },
      { createAuthconfItem (some (cstr "@localhost:3493")) with pass := some (cstr "b") }]
    currentSection := some 1
    globalDefaults := some 0
    currentSectionWithFixedUsername := false
    currentSectionIgnored := false
    hostCerts := [] }

theorem twoPasswords_read : readAuthconfFile noServices twoPasswords [] 1 (cstr "/f") true false = .ok twoSections := by
  decide +kernel

def forUser (addToList : Bool) : Request :=
  { user := some (cstr "bob"), host := some (cstr "localhost"), port := none, addToList }

theorem requests_answered_twice :
    let before := afterRequests noServices twoSections [forUser true]
    (getAuthconfItem noServices (forUser false) before).1 = answer noServices twoSections.list (forUser false) ∧
      ((forUser false).addToList = false ->
        (getAuthconfItem noServices (forUser false) before).2.list = before.list) := by
  have proper (addToList : Bool) : Proper noServices twoSections.list (forUser addToList) :=
    ⟨fun nothing => (by cases nothing.1), by cases addToList <;> decide +kernel, by cases addToList <;> decide +kernel⟩
  exact requests_answered twoPasswords_read [forUser true] (forUser false) (by simp [proper])

-- A request for nothing is remembered, and then one for the local server gets its password no more.
theorem nothing_hides_section : ∃ st, readAuthconfFile noServices twoPasswords [] 1 (cstr "/f") true false = .ok st ∧
      let nothing : Request := { user := none, host := none, port := none, addToList := true }
      (getAuthconfItem noServices (forUser false) (afterRequests noServices st [nothing])).1.pass ≠
        (getAuthconfItem noServices (forUser false) st).1.pass :=
  ⟨twoSections, twoPasswords_read, by decide +kernel⟩

end Runs

end Nut.Nutauth
