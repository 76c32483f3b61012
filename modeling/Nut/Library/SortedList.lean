import Mathlib.Data.List.Forall2

set_option autoImplicit false

namespace SortedList

variable {α β κ : Type} (key : α -> κ) (cmp : κ -> κ -> Ordering)

def Sorted (xs : List α) : Prop :=
  xs.Pairwise fun a b => cmp (key a) (key b) = .lt

def find? (k : κ) : List α -> Option α
  | [] => none
  | a :: rest =>
    match cmp (key a) k with
    | .lt => find? k rest
    | .eq => some a
    | .gt => none

def alter (k : κ) (found : α -> Option α) (missing : Option α) : List α -> List α
  | [] => missing.toList
  | a :: rest =>
    match cmp (key a) k with
    | .lt => a :: alter k found missing rest
    | .eq => (found a).toList ++ rest
    | .gt => missing.toList ++ a :: rest

def visit {ρ : Type} (k : κ) (found : α -> Option α × ρ) (missing : Option α × ρ) :
    List α -> List α × ρ
  | [] => (missing.1.toList, missing.2)
  | a :: rest =>
    match cmp (key a) k with
    | .lt => (a :: (visit k found missing rest).1, (visit k found missing rest).2)
    | .eq => ((found a).1.toList ++ rest, (found a).2)
    | .gt => (missing.1.toList ++ a :: rest, missing.2)

theorem visit_eq {ρ : Type} (k : κ) (found : α -> Option α × ρ) (missing : Option α × ρ) (xs : List α) :
    visit key cmp k found missing xs = (alter key cmp k (fun a => (found a).1) missing.1 xs,
        (find? key cmp k xs).elim missing.2 fun a => (found a).2) := by
  induction xs with
  | nil => rfl
  | cons a rest ih => cases order : cmp (key a) k <;> simp [visit, alter, find?, order, ih]

theorem alter_eq_self {k : κ} {found : α -> Option α} {missing : Option α} {xs : List α}
    (kept : ∀ a, find? key cmp k xs = some a -> found a = some a)
    (absent : find? key cmp k xs = none -> missing = none) : alter key cmp k found missing xs = xs := by
  induction xs with
  | nil => simp [alter, absent rfl]
  | cons b rest ih =>
    cases order : cmp (key b) k with
    | lt =>
      simp only [find?, order] at kept absent
      simp [alter, order, ih kept absent]
    | gt =>
      simp only [find?, order] at absent
      simp [alter, order, absent trivial]
    | eq =>
      have same := kept b (by simp [find?, order])
      simp [alter, order, same]

@[simp] theorem find?_nil (k : κ) : find? key cmp k [] = none := rfl

@[simp] theorem alter_nil (k : κ) (found : α -> Option α) (missing : Option α) :
    alter key cmp k found missing [] = missing.toList := rfl

theorem mem_of_find? {k : κ} {xs : List α} {a : α} (hit : find? key cmp k xs = some a) :
    a ∈ xs ∧ cmp (key a) k = .eq := by
  induction xs with
  | nil => simp at hit
  | cons b rest ih =>
    cases order : cmp (key b) k with
    | lt =>
      simp only [find?, order] at hit
      exact ⟨List.mem_cons_of_mem _ (ih hit).1, (ih hit).2⟩
    | eq =>
      simp only [find?, order, Option.some.injEq] at hit
      subst hit
      exact ⟨List.mem_cons_self, order⟩
    | gt => simp [find?, order] at hit

theorem mem_alter {k : κ} {found : α -> Option α} {missing : Option α} {xs : List α} {a : α}
    (member : a ∈ alter key cmp k found missing xs) :
    a ∈ xs ∨ missing = some a ∨ ∃ b ∈ xs, cmp (key b) k = .eq ∧ found b = some a := by
  induction xs with
  | nil => simp_all [Option.mem_toList]
  | cons b rest ih =>
    cases order : cmp (key b) k with
    | lt =>
      simp only [alter, order, List.mem_cons] at member
      rcases member with rfl | member
      · exact Or.inl List.mem_cons_self
      · rcases ih member with old | fresh | ⟨c, inside, same, edit⟩
        · exact Or.inl (List.mem_cons_of_mem _ old)
        · exact Or.inr (Or.inl fresh)
        · exact Or.inr (Or.inr ⟨c, List.mem_cons_of_mem _ inside, same, edit⟩)
    | eq =>
      simp only [alter, order, List.mem_append, Option.mem_toList] at member
      rcases member with edit | old
      · exact Or.inr (Or.inr ⟨b, List.mem_cons_self, order, edit⟩)
      · exact Or.inl (List.mem_cons_of_mem _ old)
    | gt =>
      simp only [alter, order, List.mem_append, Option.mem_toList] at member
      rcases member with fresh | old
      · exact Or.inr (Or.inl fresh)
      · exact Or.inl old

theorem alter_append_right {k : κ} {found : α -> Option α} {missing : Option α} {low : List α}
    (below : ∀ a ∈ low, cmp (key a) k = .lt) (high : List α) : alter key cmp k found missing (low ++ high) =
      low ++ alter key cmp k found missing high := by
  induction low with
  | nil => rfl
  | cons a low ih =>
    have first := below a List.mem_cons_self
    simp [alter, first, ih (fun b member => below b (List.mem_cons_of_mem _ member))]

theorem alter_append_left {k : κ} {found : α -> Option α} {missing : Option α} (low : List α)
    {a : α} {high : List α} (above : cmp (key a) k = .gt) : alter key cmp k found missing (low ++ a :: high) =
      alter key cmp k found missing low ++ a :: high := by
  induction low with
  | nil => simp [alter, above]
  | cons b low ih =>
    cases order : cmp (key b) k <;> simp [alter, order, ih]

theorem find?_append_right {k : κ} {low : List α} (below : ∀ a ∈ low, cmp (key a) k = .lt) (high : List α) :
    find? key cmp k (low ++ high) = find? key cmp k high := by
  induction low with
  | nil => rfl
  | cons a low ih =>
    have first := below a List.mem_cons_self
    simp [find?, first, ih (fun b member => below b (List.mem_cons_of_mem _ member))]

theorem find?_append_left {k : κ} (low : List α) {a : α} {high : List α} (above : cmp (key a) k = .gt) :
    find? key cmp k (low ++ a :: high) = find? key cmp k low := by
  induction low with
  | nil => simp [find?, above]
  | cons b low ih => cases order : cmp (key b) k <;> simp [find?, order, ih]

theorem sorted_cons {a : α} {rest : List α} : Sorted key cmp (a :: rest) ↔
      (∀ b ∈ rest, cmp (key a) (key b) = .lt) ∧ Sorted key cmp rest := List.pairwise_cons

section Order

variable [Std.TransCmp cmp]

theorem lt_of_member {a : α} {rest : List α} {k : κ} (sorted : Sorted key cmp (a :: rest))
    (order : cmp k (key a) = .lt ∨ cmp k (key a) = .eq) {b : α} (member : b ∈ rest) : cmp k (key b) = .lt := by
  have below := ((sorted_cons key cmp).mp sorted).1 b member
  rcases order with order | order
  · exact Std.TransCmp.lt_trans order below
  · exact Std.TransCmp.lt_of_eq_of_lt order below

theorem find?_eq_none_of_lt {k : κ} {xs : List α}
    (above : ∀ b ∈ xs, cmp k (key b) = .lt) : find? key cmp k xs = none := by
  cases xs with
  | nil => rfl
  | cons b rest =>
    have order := Std.OrientedCmp.gt_iff_lt.mpr (above b List.mem_cons_self)
    simp [find?, order]

theorem find?_of_mem {k : κ} {xs : List α} {a : α} (sorted : Sorted key cmp xs)
    (member : a ∈ xs) (same : cmp (key a) k = .eq) : find? key cmp k xs = some a := by
  induction xs with
  | nil => simp at member
  | cons b rest ih =>
    rcases List.mem_cons.mp member with rfl | member
    · simp [find?, same]
    · have below := ((sorted_cons key cmp).mp sorted).1 a member
      have order := Std.TransCmp.lt_of_lt_of_eq below same
      simpa [find?, order] using ih ((sorted_cons key cmp).mp sorted).2 member

theorem find?_eq_some_iff {k : κ} {xs : List α} {a : α} (sorted : Sorted key cmp xs) :
    find? key cmp k xs = some a ↔ a ∈ xs ∧ cmp (key a) k = .eq :=
  ⟨mem_of_find? key cmp, fun h => find?_of_mem key cmp sorted h.1 h.2⟩

theorem sorted_alter {k : κ} {found : α -> Option α} {missing : Option α} {xs : List α} (sorted : Sorted key cmp xs)
    (keep : ∀ a b, cmp (key a) k = .eq -> found a = some b -> cmp (key b) k = .eq)
    (fresh : ∀ a, missing = some a -> cmp (key a) k = .eq) : Sorted key cmp (alter key cmp k found missing xs) := by
  induction xs with
  | nil => cases missing <;> simp [Sorted]
  | cons b rest ih =>
    obtain ⟨below, tail⟩ := (sorted_cons key cmp).mp sorted
    cases order : cmp (key b) k with
    | lt =>
      simp only [alter, order]
      refine (sorted_cons key cmp).mpr ⟨fun c member => ?_, ih tail⟩
      rcases mem_alter key cmp member with old | new | ⟨d, _, same, edit⟩
      · exact below c old
      · exact Std.TransCmp.lt_of_lt_of_eq order (Std.OrientedCmp.eq_symm (fresh c new))
      · exact Std.TransCmp.lt_of_lt_of_eq order (Std.OrientedCmp.eq_symm (keep d c same edit))
    | eq =>
      simp only [alter, order]
      cases edit : found b with
      | none => exact tail
      | some c =>
        refine (sorted_cons key cmp).mpr ⟨fun d member => ?_, tail⟩
        have same := keep b c order edit
        have equal := Std.TransCmp.eq_trans same (Std.OrientedCmp.eq_symm order)
        exact Std.TransCmp.lt_of_eq_of_lt equal (below d member)
    | gt =>
      simp only [alter, order]
      cases new : missing with
      | none => exact sorted
      | some c =>
        have first := Std.OrientedCmp.gt_iff_lt.mp order
        have start := Std.TransCmp.lt_of_eq_of_lt (fresh c new) first
        refine (sorted_cons key cmp).mpr ⟨fun d member => ?_, sorted⟩
        rcases List.mem_cons.mp member with rfl | member
        · exact start
        · exact lt_of_member key cmp sorted (Or.inl start) member

theorem find?_alter_self {k : κ} {found : α -> Option α} {missing : Option α} {xs : List α} (sorted : Sorted key cmp xs)
    (keep : ∀ a b, cmp (key a) k = .eq -> found a = some b -> cmp (key b) k = .eq)
    (fresh : ∀ a, missing = some a -> cmp (key a) k = .eq) : find? key cmp k (alter key cmp k found missing xs) =
      (find? key cmp k xs).elim missing found := by
  induction xs with
  | nil =>
    cases new : missing with
    | none => rfl
    | some c => simp [find?, fresh c new]
  | cons b rest ih =>
    obtain ⟨_, tail⟩ := (sorted_cons key cmp).mp sorted
    cases order : cmp (key b) k with
    | lt => simpa [find?, alter, order] using ih tail
    | eq =>
      cases edit : found b with
      | none =>
        have above := fun c member =>
          lt_of_member key cmp sorted (Or.inr (Std.OrientedCmp.eq_symm order)) (b := c) member
        simp [find?, alter, order, edit, find?_eq_none_of_lt key cmp above]
      | some c => simp [find?, alter, order, edit, keep b c order edit]
    | gt =>
      cases new : missing with
      | none => simp [find?, alter, order]
      | some c => simp [find?, alter, order, fresh c new]

theorem find?_alter_other {k k' : κ} {found : α -> Option α} {missing : Option α} {xs : List α}
    (sorted : Sorted key cmp xs) (other : cmp k k' ≠ .eq)
    (keep : ∀ a b, cmp (key a) k = .eq -> found a = some b -> cmp (key b) k = .eq)
    (fresh : ∀ a, missing = some a -> cmp (key a) k = .eq) :
    find? key cmp k' (alter key cmp k found missing xs) = find? key cmp k' xs := by
  have sortedAfter := sorted_alter key cmp sorted keep fresh
  have absent {a : α} (same : cmp (key a) k = .eq) : cmp (key a) k' ≠ .eq := fun equal =>
    other (Std.TransCmp.eq_trans (Std.OrientedCmp.eq_symm same) equal)
  have outside (a : α) (member : a ∈ xs) (differs : cmp (key a) k ≠ .eq) : a ∈ alter key cmp k found missing xs := by
    clear sortedAfter sorted
    induction xs with
    | nil => simp at member
    | cons b rest ih =>
      cases order : cmp (key b) k with
      | lt =>
        rcases List.mem_cons.mp member with rfl | member
        · simp [alter, order]
        · simp [alter, order, ih member]
      | eq =>
        rcases List.mem_cons.mp member with rfl | member
        · exact absurd order differs
        · simp [alter, order, member]
      | gt => simp [alter, order, List.mem_cons.mp member]
  ext a
  rw [find?_eq_some_iff key cmp sorted, find?_eq_some_iff key cmp sortedAfter]
  constructor
  · rintro ⟨member, equal⟩
    rcases mem_alter key cmp member with old | new | ⟨b, _, same, edit⟩
    · exact ⟨old, equal⟩
    · exact absurd equal (absent (fresh a new))
    · exact absurd equal (absent (keep b a same edit))
  · rintro ⟨member, equal⟩
    exact ⟨outside a member (fun same => absent same equal), equal⟩

end Order

theorem alter_related {key' : β -> κ} {R : α -> β -> Prop} (keys : ∀ a b, R a b -> key a = key' b)
    {k : κ} {found : α -> Option α} {found' : β -> Option β} {missing : Option α} {missing' : Option β}
    {xs : List α} {ys : List β} (related : List.Forall₂ R xs ys)
    (edits : ∀ a b, find? key cmp k xs = some a -> R a b -> Option.Rel R (found a) (found' b))
    (fresh : find? key cmp k xs = none -> Option.Rel R missing missing') :
    List.Forall₂ R (alter key cmp k found missing xs) (alter key' cmp k found' missing' ys) := by
  have single {x : Option α} {y : Option β} (rel : Option.Rel R x y) {us : List α} {vs : List β}
      (tail : List.Forall₂ R us vs) : List.Forall₂ R (x.toList ++ us) (y.toList ++ vs) := by
    cases rel with
    | some head => exact .cons head tail
    | none => exact tail
  induction related with
  | nil => simpa using single (fresh rfl) .nil
  | @cons a b as bs head tail ih =>
    simp only [find?] at edits fresh
    simp only [alter, <- keys a b head]
    cases order : cmp (key a) k with
    | lt =>
      simp only [order] at edits fresh
      exact .cons head (ih edits fresh)
    | eq =>
      simp only [order] at edits
      exact single (edits a b rfl head) tail
    | gt =>
      simp only [order] at fresh
      exact single (fresh trivial) (.cons head tail)

theorem find?_related {key' : β -> κ} {R : α -> β -> Prop} (keys : ∀ a b, R a b -> key a = key' b)
    {k : κ} {xs : List α} {ys : List β} (related : List.Forall₂ R xs ys) :
    Option.Rel R (find? key cmp k xs) (find? key' cmp k ys) := by
  induction related with
  | nil => exact .none
  | @cons a b as bs head tail ih =>
    simp only [find?, <- keys a b head]
    cases cmp (key a) k with
    | lt => exact ih
    | eq => exact .some head
    | gt => exact .none

end SortedList
