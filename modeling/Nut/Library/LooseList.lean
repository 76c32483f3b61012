import Mathlib.Data.List.Nodup

set_option autoImplicit false

def insertLast {α : Type} [BEq α] [LawfulBEq α] (x : α) (list : List α) : List α :=
  if x ∈ list then list else list ++ [x]

section LooseList

variable {α : Type} [BEq α] [LawfulBEq α] {list : List α} {x : α} {hit : α -> Bool}

theorem nodup_insertLast (once : list.Nodup) : (insertLast x list).Nodup := by
  unfold insertLast
  split
  next => exact once
  next new =>
    refine List.nodup_append.mpr ⟨once, List.nodup_singleton x, ?_⟩
    rintro y member _ last rfl
    exact new (List.mem_singleton.mp last ▸ member)

theorem mem_insertLast {y : α} : y ∈ insertLast x list ↔ y ∈ list ∨ y = x := by
  unfold insertLast
  split
  next present =>
    constructor
    · exact Or.inl
    · rintro (member | rfl)
      · exact member
      · exact present
  next => simp

theorem eraseP_first {y : α} (first : list.find? hit = some y) : list.eraseP hit = list.erase y := by
  induction list with
  | nil => simp at first
  | cons item rest ih =>
    by_cases here : hit item = true
    · obtain rfl : item = y := by simpa [here] using first
      simp [here]
    · have later : rest.find? hit = some y := by simpa [here] using first
      have other : item ≠ y := fun same => here (same ▸ List.find?_some later)
      simp [here, ih later, other]

theorem eraseP_iff (once : list.Nodup) :
    list.eraseP hit = list.erase x ↔ list.find? hit = if x ∈ list then some x else none := by
  cases first : list.find? hit with
  | none =>
    have none_ : ∀ y ∈ list, ¬ hit y = true := by simpa using first
    rw [List.eraseP_of_forall_not none_]
    by_cases present : x ∈ list
    · have shorter := List.length_erase_of_mem present
      have some_ := List.length_pos_of_mem present
      simp only [present, if_true, reduceCtorEq, iff_false]
      intro same
      rw [<- same] at shorter
      omega
    · simp [present, List.erase_of_not_mem present]
  | some y =>
    have member := List.mem_of_find?_eq_some first
    rw [eraseP_first first]
    by_cases present : x ∈ list
    · simp only [present, if_true, Option.some.injEq]
      constructor
      · intro same
        by_contra other
        have kept : y ∈ list.erase y := by
          rw [same]
          exact (List.mem_erase_of_ne other).mpr member
        exact once.not_mem_erase kept
      · exact fun same => same ▸ rfl
    · have shorter := List.length_erase_of_mem member
      have some_ := List.length_pos_of_mem member
      simp only [present, if_false, reduceCtorEq, iff_false, List.erase_of_not_mem present]
      intro same
      rw [same] at shorter
      omega

end LooseList

section FirstHit

variable {α : Type} {list : List α} {loose strict : α -> Bool}

theorem find?_strict_iff (weaker : ∀ a, strict a = true -> loose a = true) :
    (∀ a, list.find? loose = some a -> strict a = true) ↔
      ∀ before a after, list = before ++ a :: after -> loose a = true -> strict a = false ->
        ∃ b ∈ before, strict b = true := by
  constructor
  · intro first before a after split hit other
    cases earlier : before.find? loose with
    | none =>
      have own : list.find? loose = some a := by
        rw [split, List.find?_append, earlier, Option.none_or, List.find?_cons_of_pos hit]
      rw [first a own] at other
      cases other
    | some b =>
      refine ⟨b, List.mem_of_find?_eq_some earlier, first b ?_⟩
      rw [split, List.find?_append, earlier, Option.some_or]
  · intro all a first
    obtain ⟨hit, before, after, split, none_⟩ := List.find?_eq_some_iff_append.mp first
    by_contra other
    obtain ⟨b, member, isStrict⟩ := all before a after split hit (Bool.eq_false_iff.mpr other)
    have miss := none_ b member
    rw [weaker b isStrict] at miss
    cases miss

end FirstHit
