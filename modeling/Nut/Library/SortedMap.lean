import Nut.Library.SortedList

set_option autoImplicit false

structure SortedMap (κ α : Type) [Ord κ] where
  entries : List (κ × α)
  sorted : SortedList.Sorted Prod.fst compare entries

namespace SortedMap

variable {κ α : Type} [Ord κ]

def empty : SortedMap κ α where
  entries := []
  sorted := List.Pairwise.nil

def find? (m : SortedMap κ α) (k : κ) : Option α :=
  (SortedList.find? Prod.fst compare k m.entries).map Prod.snd

variable [Std.TransOrd κ]

def modify (m : SortedMap κ α) (k : κ) (fresh : α) (change : α -> α) : SortedMap κ α where
  entries := SortedList.alter Prod.fst compare k (fun entry => some (entry.1, change entry.2)) (some (k, change fresh)) m.entries
  sorted := by
    apply SortedList.sorted_alter Prod.fst compare m.sorted
    · rintro entry changed same ⟨⟩
      exact same
    · rintro entry ⟨⟩
      exact Std.ReflCmp.compare_self

def erase (m : SortedMap κ α) (k : κ) : SortedMap κ α where
  entries := SortedList.alter Prod.fst compare k (fun _ => none) none m.entries
  sorted := by
    apply SortedList.sorted_alter Prod.fst compare m.sorted
    · rintro entry changed _ ⟨⟩
    · rintro entry ⟨⟩

variable {m : SortedMap κ α} {k k' : κ} {fresh : α} {change : α -> α}

theorem find?_erase_self : (m.erase k).find? k = none := by
  rw [find?, erase, SortedList.find?_alter_self Prod.fst compare m.sorted]
  · cases SortedList.find? Prod.fst compare k m.entries <;> rfl
  · rintro entry changed _ ⟨⟩
  · rintro entry ⟨⟩

variable [Std.LawfulEqOrd κ]

theorem find?_eq_some_iff {a : α} : m.find? k = some a ↔ (k, a) ∈ m.entries := by
  rw [find?, Option.map_eq_some_iff]
  constructor
  · rintro ⟨⟨key, value⟩, found, rfl⟩
    obtain ⟨member, same⟩ := SortedList.mem_of_find? Prod.fst compare found
    obtain rfl := Std.LawfulEqOrd.eq_of_compare same
    exact member
  · intro member
    exact ⟨(k, a), SortedList.find?_of_mem Prod.fst compare m.sorted member Std.ReflCmp.compare_self, rfl⟩

theorem find?_modify_self : (m.modify k fresh change).find? k = some (change ((m.find? k).getD fresh)) := by
  rw [find?, modify, SortedList.find?_alter_self Prod.fst compare m.sorted, find?]
  · cases SortedList.find? Prod.fst compare k m.entries <;> rfl
  · rintro entry changed same ⟨⟩
    exact same
  · rintro entry ⟨⟩
    exact Std.ReflCmp.compare_self

theorem find?_modify_other (other : k' ≠ k) : (m.modify k fresh change).find? k' = m.find? k' := by
  have apart : compare k k' ≠ .eq := fun same => other (Std.LawfulEqOrd.eq_of_compare same).symm
  rw [find?, modify, SortedList.find?_alter_other Prod.fst compare m.sorted apart, find?]
  · rintro entry changed same ⟨⟩
    exact same
  · rintro entry ⟨⟩
    exact Std.ReflCmp.compare_self

theorem find?_erase_other (other : k' ≠ k) : (m.erase k).find? k' = m.find? k' := by
  have apart : compare k k' ≠ .eq := fun same => other (Std.LawfulEqOrd.eq_of_compare same).symm
  rw [find?, erase, SortedList.find?_alter_other Prod.fst compare m.sorted apart, find?]
  · rintro entry changed _ ⟨⟩
  · rintro entry ⟨⟩

end SortedMap
