import Mathlib.Data.List.Nodup
import Nut.Drivers.HidUsages

set_option autoImplicit false

namespace Nut

abbrev usageTables : UsageTables := [hidUsageLkp]

-- The earlier node that has the name of this one, if there is one.
def namesake (node : UInt32) : UInt32 :=
  if node = 0x00850000 then 0x00840000 else if node = 0x008500d8 then 0x00840063 else node

def isIndexed (node : UInt32) : Prop :=
  node &&& 0xffff0000 = 0x00ff0000

instance (node : UInt32) : Decidable (isIndexed node) :=
  inferInstanceAs (Decidable (_ = _))

theorem namesake_eq_iff {node : UInt32} : namesake node = node ↔ node ≠ 0x00850000 ∧ node ≠ 0x008500d8 := by
  unfold namesake
  by_cases undefined : node = 0x00850000
  · simp [undefined]
  · by_cases voltage : node = 0x008500d8
    · simp [voltage]
    · simp [undefined, voltage]

-- Names are told apart by a number, which is quicker than by their letters.
def foldKey (s : CString) : Nat :=
  (foldCase s).foldl (fun key b => 256 * key + b.toNat) 0

structure UsageLkp.Fine (entry : UsageLkp) : Prop where
  length : 3 ≤ entry.usageName.length ∧ entry.usageName.length ≤ 27
  noDot : 46 ∉ entry.usageName
  notHex : entry.usageName.dropLast.all isxdigit = false
  notIndex : entry.usageName.dropLast.all isIndexByte = false
  code : entry.usageCode ≠ 0 ∧ ¬ isIndexed entry.usageCode
  twice : (entry.usageCode = 0x00850000 -> entry.usageName = cstr "Undefined") ∧
    (entry.usageCode = 0x008500d8 -> entry.usageName = cstr "VoltageOutOfRange")

instance (entry : UsageLkp) : Decidable entry.Fine :=
  decidable_of_iff (_ ∧ _ ∧ _ ∧ _ ∧ _ ∧ _)
    ⟨fun ⟨length, noDot, notHex, notIndex, code, twice⟩ => ⟨length, noDot, notHex, notIndex, code, twice⟩,
      fun fine => ⟨fine.length, fine.noDot, fine.notHex, fine.notIndex, fine.code, fine.twice⟩⟩

-- One run over the table, since its names are slow to spell out.
theorem hidUsageLkp_names : (∀ entry ∈ hidUsageLkp, entry.Fine) ∧
    ((hidUsageLkp.filter fun entry => namesake entry.usageCode = entry.usageCode).map
      fun entry => foldKey entry.usageName).Nodup ∧
    (hidUsageLkp.map fun entry => entry.usageCode.toNat).IsChain (· < ·) ∧
    hidLookupUsage (cstr "Undefined") usageTables = some 0x00840000 ∧
    hidLookupUsage (cstr "VoltageOutOfRange") usageTables = some 0x00840063 := by
  decide +kernel

section Lookup

variable {entry other : UsageLkp} {token : CString} {usage : UInt32}

theorem usage_fine (member : entry ∈ hidUsageLkp) : entry.Fine := hidUsageLkp_names.1 entry member

theorem usage_code_inj (member : entry ∈ hidUsageLkp) (second : other ∈ hidUsageLkp)
    (same : entry.usageCode = other.usageCode) : entry = other := by
  obtain ⟨_, _, codes, _⟩ := hidUsageLkp_names
  have ordered : (hidUsageLkp.map fun entry => entry.usageCode.toNat).Nodup :=
    (List.isChain_iff_pairwise.mp codes).imp fun less => Nat.ne_of_lt less
  exact List.inj_on_of_nodup_map ordered member second (congrArg UInt32.toNat same)

theorem hidLookupPath_some {name : CString} (found : hidLookupPath usage usageTables = some name) :
    ∃ entry ∈ hidUsageLkp, entry.usageCode = usage ∧ entry.usageName = name := by
  obtain ⟨entry, first, named⟩ := Option.map_eq_some_iff.mp found
  have member := List.mem_of_find?_eq_some first
  have code := List.find?_some first
  simp only [usageTables, List.flatten_cons, List.flatten_nil, List.append_nil] at member
  exact ⟨entry, member, beq_iff_eq.mp code, named⟩

theorem hidLookupUsage_some (found : hidLookupUsage token usageTables = some usage) :
    ∃ entry ∈ hidUsageLkp, entry.usageCode = usage ∧ foldCase entry.usageName = foldCase token := by
  obtain ⟨entry, first, code⟩ := Option.map_eq_some_iff.mp found
  have member := List.mem_of_find?_eq_some first
  have same := List.find?_some first
  simp only [usageTables, List.flatten_cons, List.flatten_nil, List.append_nil] at member
  exact ⟨entry, member, code, (strcasecmp_eq_iff _ _).mp (beq_iff_eq.mp same)⟩

theorem hidLookupUsage_foldCase {first second : CString} (same : foldCase first = foldCase second) :
    hidLookupUsage first usageTables = hidLookupUsage second usageTables := by
  have alike : (fun entry : UsageLkp => strcasecmp entry.usageName first == .eq) =
      fun entry => strcasecmp entry.usageName second == .eq := by
    funext entry
    rw [strcasecmp_eq_compare, strcasecmp_eq_compare, same]
  rw [hidLookupUsage, hidLookupUsage, alike]

theorem hidLookupUsage_found (member : entry ∈ hidUsageLkp) :
    ∃ usage, hidLookupUsage entry.usageName usageTables = some usage := by
  have some_ : (usageTables.flatten.find? fun other => strcasecmp other.usageName entry.usageName == .eq).isSome := by
    rw [List.find?_isSome]
    exact ⟨entry, by simpa [usageTables] using member, by simp⟩
  obtain ⟨first, found⟩ := Option.isSome_iff_exists.mp some_
  exact ⟨first.usageCode, by rw [hidLookupUsage, found]; rfl⟩

theorem hidLookupUsage_twice : hidLookupUsage (cstr "Undefined") usageTables = some 0x00840000 ∧
    hidLookupUsage (cstr "VoltageOutOfRange") usageTables = some 0x00840063 := hidUsageLkp_names.2.2.2

theorem hidLookupUsage_first (found : hidLookupUsage token usageTables = some usage) : namesake usage = usage := by
  obtain ⟨entry, member, code, same⟩ := hidLookupUsage_some found
  rw [<- hidLookupUsage_foldCase same] at found
  rw [namesake_eq_iff]
  constructor
  · intro undefined
    rw [(usage_fine member).twice.1 (code.trans undefined), hidLookupUsage_twice.1, undefined] at found
    exact absurd found (by decide)
  · intro voltage
    rw [(usage_fine member).twice.2 (code.trans voltage), hidLookupUsage_twice.2, voltage] at found
    exact absurd found (by decide)

theorem hidLookupUsage_entry (member : entry ∈ hidUsageLkp) :
    hidLookupUsage entry.usageName usageTables = some (namesake entry.usageCode) := by
  by_cases own : namesake entry.usageCode = entry.usageCode
  · obtain ⟨usage, found⟩ := hidLookupUsage_found member
    obtain ⟨other, second, code, same⟩ := hidLookupUsage_some found
    have kept := hidLookupUsage_first found
    rw [<- code] at kept
    have key : foldKey other.usageName = foldKey entry.usageName := by
      unfold foldKey
      rw [same]
    have equal := List.inj_on_of_nodup_map hidUsageLkp_names.2.1 (List.mem_filter.mpr ⟨second, by simp [kept]⟩)
      (List.mem_filter.mpr ⟨member, by simp [own]⟩) key
    rw [found, own, <- code, equal]
  · have renamed : entry.usageCode = 0x00850000 ∨ entry.usageCode = 0x008500d8 := by
      rw [namesake_eq_iff] at own
      tauto
    rcases renamed with undefined | voltage
    · rw [(usage_fine member).twice.1 undefined, undefined, hidLookupUsage_twice.1]
      rfl
    · rw [(usage_fine member).twice.2 voltage, voltage, hidLookupUsage_twice.2]
      rfl

theorem hidLookupUsage_none {isDigit : UInt8 -> Bool} (folded : ∀ b, isDigit (tolower b) = isDigit b)
    (names : ∀ entry ∈ hidUsageLkp, entry.usageName.all isDigit = false) (digits : token.all isDigit = true) :
    hidLookupUsage token usageTables = none := by
  have foldAll (s : CString) : (foldCase s).all isDigit = s.all isDigit := by
    rw [foldCase, List.all_map]
    congr 1
    funext b
    exact folded b
  cases found : hidLookupUsage token usageTables with
  | none => rfl
  | some usage =>
    obtain ⟨entry, member, _, same⟩ := hidLookupUsage_some found
    have none_ := names entry member
    rw [<- foldAll, same, foldAll, digits] at none_
    cases none_

theorem tokenNode_cut_entry (member : entry ∈ hidUsageLkp) :
    tokenNode entry.usageName.dropLast usageTables ≠ some entry.usageCode := by
  have fine := usage_fine member
  intro same
  unfold tokenNode at same
  rw [fine.notHex, fine.notIndex] at same
  cases found : hidLookupUsage entry.usageName.dropLast usageTables with
  | none => simp [found] at same
  | some usage =>
    rw [found] at same
    obtain ⟨other, second, code, folded⟩ := hidLookupUsage_some found
    have equal := usage_code_inj second member (code.trans (Option.some.inj same))
    have lengths := congrArg List.length folded
    rw [equal] at lengths
    simp only [foldCase, List.length_map, List.length_dropLast] at lengths
    have := fine.length
    omega

end Lookup

end Nut
