import Nut.Common.CString
import Nut.Library.Checked
import Nut.Library.SortedMap

set_option autoImplicit false

namespace Nut

abbrev ConfigParamList := List CString

structure GenericConfigSectionEntry where
  name : CString
  values : ConfigParamList
  deriving DecidableEq

structure GenericConfigSection where
  name : CString
  entries : SortedMap CString GenericConfigSectionEntry

structure GenericConfiguration where
  sections : SortedMap CString GenericConfigSection

def cText (string : CString) : CString :=
  string.takeWhile (· ≠ 0)

def scrollBack (entries : List (CString × GenericConfigSectionEntry)) (entry : CString) :
    Nat -> Checked (Option GenericConfigSectionEntry)
  | 0 => .ok none
  | before + 1 => do
    let at_ <- readAt entries (before + 1)
    if strcasecmp (cText at_.1) (cText entry) = .eq then return some at_.2 else scrollBack entries entry before

namespace GenericConfiguration

def empty : GenericConfiguration :=
  { sections := .empty }

def get (config : GenericConfiguration) (section_ entry : CString) (caseSensitive : Bool) : Checked (Option ConfigParamList) :=
  match config.sections.find? section_ with
  | none => .ok none
  | some found =>
    match found.entries.find? entry with
    | some at_ => .ok (some at_.values)
    | none =>
      if caseSensitive then .ok none
      else (scrollBack found.entries.entries entry found.entries.entries.length).map fun at_ => at_.map (·.values)

def set (config : GenericConfiguration) (section_ entry : CString) (params : ConfigParamList) : GenericConfiguration :=
  { sections := config.sections.modify section_ { name := section_, entries := .empty } fun found =>
      { found with entries := found.entries.modify entry { name := entry, values := [] } fun at_ => { at_ with values := params } } }

def add (config : GenericConfiguration) (section_ entry : CString) (params : ConfigParamList) : Checked GenericConfiguration :=
  if params = [] then .ok config
  else do
    let currentParams <- config.get section_ entry true
    return config.set section_ entry (currentParams.getD [] ++ params)

def remove (config : GenericConfiguration) (section_ entry : CString) : GenericConfiguration :=
  match config.sections.find? section_ with
  | none => config
  | some found => { sections := config.sections.modify section_ found fun found => { found with entries := found.entries.erase entry } }

def removeSection (config : GenericConfiguration) (section_ : CString) : GenericConfiguration :=
  { sections := config.sections.erase section_ }

def values (config : GenericConfiguration) (section_ entry : CString) : Option ConfigParamList :=
  (config.sections.find? section_).bind fun found => (found.entries.find? entry).map (·.values)

structure LooksUp (config : GenericConfiguration) (section_ entry : CString) (result : Option ConfigParamList) : Prop where
  found : result.isSome ↔ ∃ sec, config.sections.find? section_ = some sec ∧ ∃ at_ ∈ sec.entries.entries, strcasecmp at_.1 entry = .eq
  values : ∀ params, result = some params -> ∃ sec, config.sections.find? section_ = some sec ∧
    ∃ at_ ∈ sec.entries.entries, strcasecmp at_.1 entry = .eq ∧ at_.2.values = params
  same : ∀ params, config.values section_ entry = some params -> result = some params

structure MapLike (config : GenericConfiguration) (section_ entry : CString) : Prop where
  get : config.get section_ entry true = .ok (config.values section_ entry)
  set : ∀ params other at_, (config.set section_ entry params).values other at_ =
    if other = section_ ∧ at_ = entry then some params else config.values other at_
  add : ∀ params, ∃ added, config.add section_ entry params = .ok added ∧ ∀ other at_, added.values other at_ =
    if params ≠ [] ∧ other = section_ ∧ at_ = entry then some ((config.values section_ entry).getD [] ++ params)
    else config.values other at_
  remove : ∀ other at_, (config.remove section_ entry).values other at_ =
    if other = section_ ∧ at_ = entry then none else config.values other at_
  removeSection : ∀ other at_, (config.removeSection section_).values other at_ =
    if other = section_ then none else config.values other at_

def BehavesAsMap (config : GenericConfiguration) (section_ entry : CString) : Prop :=
  (∃ result, config.get section_ entry false = .ok result ∧ config.LooksUp section_ entry result) ∧ config.MapLike section_ entry

section Operations

variable (config : GenericConfiguration) (section_ entry : CString)

theorem get_exactly : config.get section_ entry true = .ok (config.values section_ entry) := by
  unfold get values
  cases config.sections.find? section_ with
  | none => rfl
  | some found => cases inside : found.entries.find? entry <;> simp [inside]

theorem values_set (params : ConfigParamList) (other at_ : CString) :
    (config.set section_ entry params).values other at_ =
      if other = section_ ∧ at_ = entry then some params else config.values other at_ := by
  unfold values set
  dsimp only
  by_cases section_' : other = section_
  · subst section_'
    rw [SortedMap.find?_modify_self, Option.bind_some]
    dsimp only
    by_cases entry' : at_ = entry
    · subst entry'
      rw [SortedMap.find?_modify_self, if_pos ⟨rfl, rfl⟩]
      rfl
    · rw [SortedMap.find?_modify_other entry', if_neg fun both => entry' both.2]
      cases config.sections.find? other <;> rfl
  · rw [SortedMap.find?_modify_other section_', if_neg fun both => section_' both.1]

theorem values_add (params : ConfigParamList) :
    ∃ added, config.add section_ entry params = .ok added ∧ ∀ other at_, added.values other at_ =
      if params ≠ [] ∧ other = section_ ∧ at_ = entry then some ((config.values section_ entry).getD [] ++ params)
      else config.values other at_ := by
  unfold add
  by_cases none_ : params = []
  · exact ⟨config, if_pos none_, fun other at_ => (if_neg fun all => all.1 none_).symm⟩
  · refine ⟨config.set section_ entry ((config.values section_ entry).getD [] ++ params), ?_, fun other at_ => ?_⟩
    · rw [if_neg none_, get_exactly, ok_bind]
      rfl
    · rw [values_set]
      simp only [ne_eq, none_, not_false_eq_true, true_and]

theorem values_remove (other at_ : CString) : (config.remove section_ entry).values other at_ =
    if other = section_ ∧ at_ = entry then none else config.values other at_ := by
  unfold values remove
  cases found : config.sections.find? section_ with
  | none =>
    dsimp only
    split_ifs with both
    · rw [both.1, found, Option.bind_none]
    · rfl
  | some sec =>
    dsimp only
    by_cases section_' : other = section_
    · subst section_'
      rw [SortedMap.find?_modify_self, found, Option.bind_some, Option.bind_some]
      dsimp only [Option.getD_some]
      by_cases entry' : at_ = entry
      · subst entry'
        rw [SortedMap.find?_erase_self, if_pos ⟨rfl, rfl⟩]
        rfl
      · rw [SortedMap.find?_erase_other entry', if_neg fun both => entry' both.2]
    · rw [SortedMap.find?_modify_other section_', if_neg fun both => section_' both.1]

theorem values_removeSection (other at_ : CString) : (config.removeSection section_).values other at_ =
    if other = section_ then none else config.values other at_ := by
  unfold values removeSection
  dsimp only
  by_cases section_' : other = section_
  · rw [section_', SortedMap.find?_erase_self, if_pos rfl, Option.bind_none]
  · rw [SortedMap.find?_erase_other section_', if_neg section_']

theorem map_like : config.MapLike section_ entry where
  get := config.get_exactly section_ entry
  set := config.values_set section_ entry
  add := config.values_add section_ entry
  remove := config.values_remove section_ entry
  removeSection := config.values_removeSection section_

end Operations

theorem scrollBack_end (entries : List (CString × GenericConfigSectionEntry)) (entry : CString) :
    scrollBack entries entry entries.length = if entries = [] then .ok none else .error .outOfBounds := by
  cases entries with
  | nil => rfl
  | cons first rest =>
    have outside : readAt (first :: rest) (rest.length + 1) = .error .outOfBounds := by
      simp [readAt]
    rw [List.length_cons, scrollBack, outside]
    rfl

-- A name that is not there as it is spelt is looked for among no other names, or the end is read.
theorem behavesAsMap_iff (config : GenericConfiguration) (section_ entry : CString) :
    config.BehavesAsMap section_ entry ↔
      ∀ sec, config.sections.find? section_ = some sec -> sec.entries.find? entry = none -> sec.entries.entries = [] := by
  rw [BehavesAsMap, and_iff_left (config.map_like section_ entry)]
  constructor
  · rintro ⟨result, got, -⟩ sec found missing
    by_contra some_
    simp only [get, found, missing, scrollBack_end, if_neg some_] at got
    cases got
  · intro empty
    cases found : config.sections.find? section_ with
    | none =>
      refine ⟨none, by simp [get, found], ⟨?_, fun params => by simp, fun params is => ?_⟩⟩
      · simp [found]
      · simp [values, found] at is
    | some sec =>
      cases inside : sec.entries.find? entry with
      | some at_ =>
        have member := SortedMap.find?_eq_some_iff.mp inside
        refine ⟨some at_.values, by simp [get, found, inside], ⟨?_, fun params is => ?_, fun params is => ?_⟩⟩
        · exact iff_of_true rfl ⟨sec, found, _, member, strcasecmp_self entry⟩
        · exact ⟨sec, found, _, member, strcasecmp_self entry, Option.some.inj is⟩
        · simpa [values, found, inside] using is
      | none =>
        have none_ := empty sec found inside
        refine ⟨none, by simp [get, found, inside, none_, scrollBack, Except.map], ⟨?_, fun params => by simp, fun params is => ?_⟩⟩
        · simp [found, none_]
        · simp [values, found, inside] at is

-- There is one other option, and its name is not the one that is looked for.
theorem get_reads_end :
    ¬ (empty.set (cstr "ups") (cstr "driver") [cstr "dummy-ups"]).BehavesAsMap (cstr "ups") (cstr "port") := by
  rintro ⟨⟨result, got, -⟩, -⟩
  have reads : (empty.set (cstr "ups") (cstr "driver") [cstr "dummy-ups"]).get (cstr "ups") (cstr "port") false =
      .error .outOfBounds := by decide
  rw [reads] at got
  cases got

end GenericConfiguration

end Nut
