import Nut.Drivers.HidNesting
import Nut.Drivers.HidSteps
import Nut.Library.LooseList

set_option autoImplicit false

namespace Nut

def memcmpNodes (a b : List UInt32) (count : Nat) : Checked Bool :=
  if count ≤ a.length ∧ count ≤ b.length then .ok (a.take count == b.take count) else .error .outOfBounds

def findPathLoop (path : HIDPath) (type : UInt8) : List HIDData -> Checked (Option HIDData)
  | [] => .ok none
  | pData :: rest =>
    if pData.type ≠ type then findPathLoop path type rest
    else do
      if <- memcmpNodes pData.path.node path.node path.size then return some pData
      else findPathLoop path type rest

def findObjectWithPath (desc : HIDDesc) (path : HIDPath) (type : UInt8) : Checked (Option HIDData) :=
  findPathLoop path type (desc.item.take desc.nitems)

def HIDData.Matches (pData : HIDData) (path : HIDPath) (type : UInt8) : Prop :=
  pData.type = type ∧ pData.path.size = path.size ∧ pData.path.nodes = path.nodes

instance (pData : HIDData) (path : HIDPath) (type : UInt8) : Decidable (pData.Matches path type) :=
  inferInstanceAs (Decidable (_ ∧ _ ∧ _))

def HIDData.Resembles (pData : HIDData) (path : HIDPath) (type : UInt8) : Prop :=
  pData.type = type ∧ pData.path.size ≠ path.size ∧ pData.path.node.take path.size = path.nodes

structure ExactLookup (items : List HIDData) (path : HIDPath) (type : UInt8) (found : Checked (Option HIDData)) : Prop where
  answers : ∃ answer, found = .ok answer
  right : ∀ pData, found = .ok (some pData) -> pData ∈ items ∧ pData.Matches path type
  none : found = .ok none -> ∀ pData ∈ items, ¬ pData.Matches path type

section Parsed

variable {parser next : HIDParser}

theorem nextField_whole {turns : Nat} (safe : parser.Safe) {pData : HIDData} {ret : Nat}
    (found : nextField turns parser = .ok (some (next, pData, ret))) : pData.path.Whole := by
  induction turns generalizing parser with
  | zero => simp [nextField] at found
  | succ turns ih =>
    rw [nextField] at found
    by_cases more : parser.pos < parser.reportDesc.length
    · rw [if_pos more] at found
      obtain none_ | ⟨read, item, readSafe, _⟩ := currentItem_ok safe more
      · simp [none_, bind, Except.bind, pure, Except.pure] at found
      · simp only [item, ok_bind] at found
        cases parsed : parseItem read with
        | error fault => simp [parsed, bind, Except.bind] at found
        | ok result =>
          obtain after | _ | ⟨after, field, kind⟩ := result
          · simp only [parsed, ok_bind] at found
            exact ih (parseItem_continues readSafe parsed).2.safe found
          · simp [parsed, pure, Except.pure] at found
          · simp only [parsed, ok_bind, pure, Except.pure, Except.ok.injEq, Option.some.injEq, Prod.mk.injEq] at found
            obtain ⟨isFound, isField, _⟩ := parseItem_found readSafe parsed
            rw [<- found.2.1]
            exact (fieldItem_nodes readSafe isField isFound).2
    · simp [more, pure, Except.pure] at found

theorem hidParse_whole {offsetTab offsetTab' : List OffsetRow} {pData : HIDData} {ret : Nat} (safe : parser.Safe)
    (found : hidParse parser offsetTab = .ok (some (next, offsetTab', pData, ret))) : pData.path.Whole := by
  unfold hidParse at found
  obtain ⟨answer, call, rest⟩ := bind_eq_ok.mp found
  obtain _ | ⟨last, field, value⟩ := answer
  · cases rest
  · obtain ⟨⟨placed, tab⟩, place, same⟩ := bind_eq_ok.mp rest
    have path : placed.path = field.path := by
      unfold placeField at place
      obtain ⟨⟨offset, _⟩, _, later⟩ := bind_eq_ok.mp place
      obtain ⟨_, _, last⟩ := bind_eq_ok.mp later
      cases last
      rfl
    cases same
    rw [path]
    exact nextField_whole safe call

theorem storeField_item {desc stored : HIDDesc} {pData : HIDData} {ret : Nat}
    (done : storeField desc pData ret = .ok stored) : stored.item = desc.item.set desc.nitems pData := by
  unfold storeField at done
  obtain ⟨item, write, later⟩ := bind_eq_ok.mp done
  obtain ⟨_, _, last⟩ := bind_eq_ok.mp later
  cases last
  unfold writeAt at write
  split at write
  · cases write
    rfl
  · cases write

theorem parseLoop_whole {turns : Nat} {offsetTab : List OffsetRow} {desc last : HIDDesc} (safe : parser.Safe)
    (whole : ∀ pData ∈ desc.item, pData.path.Whole) (done : (parseLoop turns parser offsetTab desc).2 = .ok last) :
    ∀ pData ∈ last.item, pData.path.Whole := by
  induction turns generalizing parser offsetTab desc with
  | zero => simp [parseLoop] at done
  | succ turns ih =>
    rw [parseLoop] at done
    by_cases room : desc.nitems < maxReport
    · rw [if_pos room] at done
      cases call : hidParse parser offsetTab with
      | error fault => simp [call] at done
      | ok answer =>
        obtain _ | ⟨next, tab, field, ret⟩ := answer
        · simp only [call, Except.ok.injEq] at done
          exact done ▸ whole
        · cases store : storeField desc field ret with
          | error fault => simp [call, store] at done
          | ok stored =>
            simp only [call, store] at done
            refine ih (hidParse_ok safe call).1 (fun pData member => ?_) done
            rw [storeField_item store] at member
            obtain old | new := List.mem_or_eq_of_mem_set member
            · exact whole pData old
            · rw [new]
              exact hidParse_whole safe call
    · rw [if_neg room, Except.ok.injEq] at done
      exact done ▸ whole

theorem parsed_items {reportDesc : List UInt8} {desc : HIDDesc} (parsed : parseReportDesc reportDesc = .ok (some desc)) :
    desc.item.take desc.nitems = desc.item := by
  unfold parseReportDesc at parsed
  cases fields : (parseFields reportDesc).2 with
  | error fault =>
    rw [fields] at parsed
    cases parsed
  | ok last =>
    rw [fields, Except.map, Except.ok.injEq] at parsed
    split at parsed
    · cases parsed
    · cases parsed
      rw [List.take_take, Nat.min_self]

theorem parsed_whole {reportDesc : List UInt8} {desc : HIDDesc} (parsed : parseReportDesc reportDesc = .ok (some desc)) :
    ∀ pData ∈ desc.item, pData.path.Whole := by
  unfold parseReportDesc at parsed
  cases fields : (parseFields reportDesc).2 with
  | error fault =>
    rw [fields] at parsed
    cases parsed
  | ok last =>
    rw [fields, Except.map, Except.ok.injEq] at parsed
    split at parsed
    · cases parsed
    · cases parsed
      have start : ∀ pData ∈ HIDDesc.empty.item, pData.path.Whole := fun pData member => by
        rw [List.eq_of_mem_replicate member]
        exact ⟨rfl, by decide⟩
      exact fun pData member => parseLoop_whole (safe_start reportDesc) start fields pData (List.mem_of_mem_take member)

end Parsed

section Lookup

variable {path : HIDPath} {type : UInt8}

theorem findPathLoop_eq (whole : path.Whole) {items : List HIDData} (inside : ∀ pData ∈ items, pData.path.Whole) :
    findPathLoop path type items =
      .ok (items.find? fun pData => pData.type == type && pData.path.node.take path.size == path.nodes) := by
  induction items with
  | nil => rfl
  | cons pData rest ih =>
    have later := ih fun other member => inside other (List.mem_cons_of_mem pData member)
    have own := inside pData List.mem_cons_self
    have fits : path.size ≤ pData.path.node.length ∧ path.size ≤ path.node.length := by
      rw [own.node, whole.node]
      exact ⟨whole.size, whole.size⟩
    rw [findPathLoop, later, memcmpNodes, if_pos fits]
    by_cases sameType : pData.type = type
    · by_cases same : pData.path.node.take path.size = path.nodes
      · simp [sameType, show pData.path.node.take path.size = path.node.take path.size from same,
          show path.node.take path.size = path.nodes from rfl, pure, Except.pure]
      · have other : ¬ pData.path.node.take path.size = path.node.take path.size := same
        simp [sameType, same, other]
    · simp [sameType]

theorem matches_iff {pData : HIDData} : pData.Matches path type ↔
      (pData.type = type ∧ pData.path.node.take path.size = path.nodes) ∧ pData.path.size = path.size := by
  unfold HIDData.Matches
  constructor
  · rintro ⟨sameType, size, nodes⟩
    exact ⟨⟨sameType, by rw [<- nodes, <- size, HIDPath.nodes]⟩, size⟩
  · rintro ⟨⟨sameType, nodes⟩, size⟩
    exact ⟨sameType, size, by rw [<- nodes, <- size, HIDPath.nodes]⟩

theorem resembles_iff {pData : HIDData} : pData.Resembles path type ↔
      (pData.type = type ∧ pData.path.node.take path.size = path.nodes) ∧ ¬ pData.Matches path type := by
  rw [matches_iff]
  constructor
  · rintro ⟨sameType, size, nodes⟩
    exact ⟨⟨sameType, nodes⟩, fun own => size own.2⟩
  · rintro ⟨⟨sameType, nodes⟩, other⟩
    exact ⟨sameType, fun size => other ⟨⟨sameType, nodes⟩, size⟩, nodes⟩

-- A lookup finds what it is asked for, unless the first item of the type that begins with the path is of another
-- length.
theorem lookup_exact_iff {reportDesc : List UInt8} {desc : HIDDesc} (parsed : parseReportDesc reportDesc = .ok (some desc))
    (whole : path.Whole) : ExactLookup desc.item path type (findObjectWithPath desc path type) ↔
      ∀ before pData after, desc.item = before ++ pData :: after -> pData.Resembles path type ->
        ∃ earlier ∈ before, earlier.Matches path type := by
  have found : findObjectWithPath desc path type =
      .ok (desc.item.find? fun pData => pData.type == type && pData.path.node.take path.size == path.nodes) := by
    rw [findObjectWithPath, parsed_items parsed]
    exact findPathLoop_eq whole (parsed_whole parsed)
  have hit (pData : HIDData) : (pData.type == type && pData.path.node.take path.size == path.nodes) = true ↔
      pData.type = type ∧ pData.path.node.take path.size = path.nodes := by simp
  have weaker (pData : HIDData) (same : decide (pData.Matches path type) = true) :
      (pData.type == type && pData.path.node.take path.size == path.nodes) = true :=
    (hit pData).mpr (matches_iff.mp (of_decide_eq_true same)).1
  have first := @find?_strict_iff _ desc.item _ _ weaker
  simp only [hit, decide_eq_true_eq, decide_eq_false_iff_not] at first
  have exact_ : ExactLookup desc.item path type (findObjectWithPath desc path type) ↔
      ∀ pData, (desc.item.find? fun pData => pData.type == type && pData.path.node.take path.size == path.nodes) =
        some pData -> pData.Matches path type := by
    rw [found]
    constructor
    · intro lookup pData here
      exact (lookup.right pData (by rw [here])).2
    · intro all
      refine ⟨⟨_, rfl⟩, fun pData here => ?_, fun none_ pData member same => ?_⟩
      · have here' := Except.ok.inj here
        exact ⟨List.mem_of_find?_eq_some here', all pData here'⟩
      · have miss := List.find?_eq_none.mp (Except.ok.inj none_) pData member
        exact miss ((hit pData).mpr (matches_iff.mp same).1)
  rw [exact_, first]
  constructor
  · intro all before pData after split resembles
    obtain ⟨same, other⟩ := resembles_iff.mp resembles
    exact all before pData after split same other
  · intro all before pData after split same other
    exact all before pData after split (resembles_iff.mpr ⟨same, other⟩)

end Lookup

section Samples

theorem parsed_of_items {reportDesc : List UInt8} {items : List HIDData}
    (parse : (parseReportDesc reportDesc).map (Option.map HIDDesc.item) = .ok (some items)) :
    ∃ desc, parseReportDesc reportDesc = .ok (some desc) ∧ desc.item = items := by
  cases parsed : parseReportDesc reportDesc with
  | error fault =>
    rw [parsed] at parse
    cases parse
  | ok answer =>
    obtain _ | desc := answer
    · rw [parsed] at parse
      cases parse
    · rw [parsed] at parse
      exact ⟨desc, rfl, Option.some.inj (Except.ok.inj parse)⟩

def lookupDescriptor : List UInt8 :=
  [0x05, 0x84, 0x09, 0x04, 0xa1, 0x01, 0x75, 0x08, 0x95, 0x01, 0x09, 0x40, 0xb1, 0x02, 0xc0]

def lookupItem : HIDData :=
  { HIDData.zero with
    path := { size := 2, node := [0x00840004, 0x00840040, 0, 0, 0, 0, 0, 0, 0, 0] }
    size := 8, type := 0xb0, dataAttribute := 2 }

theorem lookup_exact_sample : ∃ desc, parseReportDesc lookupDescriptor = .ok (some desc) ∧
      ExactLookup desc.item lookupItem.path 0xb0 (findObjectWithPath desc lookupItem.path 0xb0) := by
  obtain ⟨desc, parsed, items⟩ := @parsed_of_items lookupDescriptor [lookupItem] (by decide +kernel)
  refine ⟨desc, parsed, (lookup_exact_iff parsed ⟨rfl, by decide⟩).mpr fun before pData after split resembles => ?_⟩
  have member : pData ∈ desc.item := by rw [split]; simp
  rw [items, List.mem_singleton] at member
  rw [member] at resembles
  exact absurd rfl resembles.2.1

-- A path that is asked for, or an item that is stored, may be the beginning of the other one.
def collectionPath : HIDPath :=
  { size := 1, node := [0x00840004, 0, 0, 0, 0, 0, 0, 0, 0, 0] }

def leftoverDescriptor : List UInt8 :=
  [0x05, 0x84, 0x09, 0x04, 0xa1, 0x01, 0x75, 0x08, 0x95, 0x01, 0x09, 0x40, 0x81, 0x02, 0xc0, 0x09, 0x04, 0xb1, 0x02, 0xc0]

def leftoverItem : HIDData :=
  { lookupItem with path := { lookupItem.path with size := 1 } }

theorem lookup_inexact : (∃ desc, parseReportDesc lookupDescriptor = .ok (some desc) ∧
      findObjectWithPath desc collectionPath 0xb0 = .ok (some lookupItem) ∧
      ¬ ExactLookup desc.item collectionPath 0xb0 (findObjectWithPath desc collectionPath 0xb0)) ∧
    ∃ desc, parseReportDesc leftoverDescriptor = .ok (some desc) ∧
      findObjectWithPath desc lookupItem.path 0xb0 = .ok (some leftoverItem) ∧
      ¬ ExactLookup desc.item lookupItem.path 0xb0 (findObjectWithPath desc lookupItem.path 0xb0) := by
  constructor
  · obtain ⟨desc, parsed, items⟩ := @parsed_of_items lookupDescriptor [lookupItem] (by decide +kernel)
    have found : findObjectWithPath desc collectionPath 0xb0 = .ok (some lookupItem) := by
      rw [findObjectWithPath, parsed_items parsed, items]
      decide +kernel
    exact ⟨desc, parsed, found, fun lookup => absurd (lookup.right lookupItem found).2 (by decide)⟩
  · obtain ⟨desc, parsed, items⟩ := @parsed_of_items leftoverDescriptor
      [{ lookupItem with type := 0x80 }, leftoverItem] (by decide +kernel)
    have found : findObjectWithPath desc lookupItem.path 0xb0 = .ok (some leftoverItem) := by
      rw [findObjectWithPath, parsed_items parsed, items]
      decide +kernel
    exact ⟨desc, parsed, found, fun lookup => absurd (lookup.right leftoverItem found).2 (by decide)⟩

end Samples

end Nut
