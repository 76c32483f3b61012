import Nut.Library.SortedList

set_option autoImplicit false

inductive SearchTree (α : Type) where
  | nil
  | node (left : SearchTree α) (value : α) (right : SearchTree α)
  deriving DecidableEq, Repr

namespace SearchTree

variable {α κ : Type}

def toList : SearchTree α -> List α
  | nil => []
  | node left value right => left.toList ++ value :: right.toList

@[simp] theorem toList_nil : (nil : SearchTree α).toList = [] := rfl

@[simp] theorem toList_node (left right : SearchTree α) (value : α) :
    (node left value right).toList = left.toList ++ value :: right.toList := rfl

variable (key : α -> κ) (cmp : κ -> κ -> Ordering)

def Ordered : SearchTree α -> Prop
  | nil => True
  | node left value right =>
    Ordered left ∧ Ordered right ∧
      (∀ a ∈ left.toList, cmp (key a) (key value) = .lt) ∧
      (∀ b ∈ right.toList, cmp (key value) (key b) = .lt)

def find? (k : κ) : SearchTree α -> Option α
  | nil => none
  | node left value right =>
    match cmp (key value) k with
    | .gt => find? k left
    | .lt => find? k right
    | .eq => some value

def graft (sub : SearchTree α) : SearchTree α -> SearchTree α
  | nil => sub
  | node left value right =>
    match sub with
    | nil => node left value right
    | node _ root _ =>
      match cmp (key value) (key root) with
      | .gt => node (graft sub left) value right
      | .lt => node left value (graft sub right)
      | .eq => node left value right

-- A dropped node is replaced by its right subtree, which receives the left one.
def alter (k : κ) (found : α -> Option α) (missing : Option α) : SearchTree α -> SearchTree α
  | nil =>
    match missing with
    | none => nil
    | some value => node nil value nil
  | node left value right =>
    match cmp (key value) k with
    | .gt => node (alter k found missing left) value right
    | .lt => node left value (alter k found missing right)
    | .eq =>
      match found value with
      | some value => node left value right
      | none => graft key cmp left right

def visit {ρ : Type} (k : κ) (found : α -> Option α × ρ) (missing : Option α × ρ) :
    SearchTree α -> SearchTree α × ρ
  | nil =>
    match missing with
    | (none, result) => (nil, result)
    | (some value, result) => (node nil value nil, result)
  | node left value right =>
    match cmp (key value) k with
    | .gt => (node (visit k found missing left).1 value right, (visit k found missing left).2)
    | .lt => (node left value (visit k found missing right).1, (visit k found missing right).2)
    | .eq =>
      match found value with
      | (some value, result) => (node left value right, result)
      | (none, result) => (graft key cmp left right, result)

theorem visit_eq {ρ : Type} (k : κ) (found : α -> Option α × ρ) (missing : Option α × ρ) (t : SearchTree α) :
    visit key cmp k found missing t = (alter key cmp k (fun a => (found a).1) missing.1 t,
        (find? key cmp k t).elim missing.2 fun a => (found a).2) := by
  induction t with
  | nil => obtain ⟨value | value, result⟩ := missing <;> rfl
  | node left value right ihLeft ihRight =>
    cases order : cmp (key value) k with
    | lt => simp [visit, alter, find?, order, ihRight]
    | gt => simp [visit, alter, find?, order, ihLeft]
    | eq =>
      simp only [visit, alter, find?, order, Option.elim_some]
      obtain ⟨kept | kept, result⟩ := found value <;> rfl

theorem alter_eq_self {k : κ} {found : α -> Option α} {missing : Option α} {t : SearchTree α}
    (kept : ∀ a, find? key cmp k t = some a -> found a = some a)
    (absent : find? key cmp k t = none -> missing = none) : alter key cmp k found missing t = t := by
  induction t with
  | nil => simp [alter, absent rfl]
  | node left value right ihLeft ihRight =>
    cases order : cmp (key value) k with
    | lt =>
      simp only [find?, order] at kept absent
      simp [alter, order, ihRight kept absent]
    | gt =>
      simp only [find?, order] at kept absent
      simp [alter, order, ihLeft kept absent]
    | eq =>
      have same := kept value (by simp [find?, order])
      simp [alter, order, same]

theorem map_alter {γ : Type} (f : α -> γ) {k : κ} {found : α -> Option α} {missing : Option α}
    {t : SearchTree α} (kept : ∀ a, find? key cmp k t = some a -> ∃ b, found a = some b ∧ f b = f a)
    (absent : find? key cmp k t = none -> missing = none) :
    (alter key cmp k found missing t).toList.map f = t.toList.map f := by
  induction t with
  | nil => simp [alter, absent rfl]
  | node left value right ihLeft ihRight =>
    cases order : cmp (key value) k with
    | lt =>
      simp only [find?, order] at kept absent
      simp [alter, order, ihRight kept absent]
    | gt =>
      simp only [find?, order] at kept absent
      simp [alter, order, ihLeft kept absent]
    | eq =>
      obtain ⟨value', changed, same⟩ := kept value (by simp [find?, order])
      simp [alter, order, changed, same]

section Order

variable [Std.TransCmp cmp]

theorem ordered_iff_sorted (t : SearchTree α) : t.Ordered key cmp ↔ SortedList.Sorted key cmp t.toList := by
  induction t with
  | nil => simp [Ordered, SortedList.Sorted]
  | node left value right ihLeft ihRight =>
    simp only [Ordered, ihLeft, ihRight, SortedList.Sorted, toList_node, List.pairwise_append,
      List.pairwise_cons, List.mem_cons]
    constructor
    · rintro ⟨sortedLeft, sortedRight, below, above⟩
      refine ⟨sortedLeft, ⟨above, sortedRight⟩, ?_⟩
      rintro a inLeft b (rfl | inRight)
      · exact below a inLeft
      · exact Std.TransCmp.lt_trans (below a inLeft) (above b inRight)
    · rintro ⟨sortedLeft, ⟨above, sortedRight⟩, across⟩
      exact ⟨sortedLeft, sortedRight, fun a inLeft => across a inLeft value (Or.inl rfl), above⟩

theorem toList_graft (sub t : SearchTree α) (below : ∀ a ∈ sub.toList, ∀ b ∈ t.toList, cmp (key a) (key b) = .lt) :
    (graft key cmp sub t).toList = sub.toList ++ t.toList := by
  induction t with
  | nil => simp [graft]
  | node left value right ihLeft _ =>
    cases sub with
    | nil => simp [graft]
    | node subLeft root subRight =>
      -- Everything in the grafted tree is smaller, so the walk only ever turns left.
      have turn : cmp (key value) (key root) = .gt :=
        Std.OrientedCmp.gt_iff_lt.mpr (below root (by simp) value (by simp))
      have rest := ihLeft (fun a inSub b inLeft => below a inSub b (by simp [inLeft]))
      simp [graft, turn, rest]

theorem find?_toList (k : κ) {t : SearchTree α} (ordered : t.Ordered key cmp) :
    find? key cmp k t = SortedList.find? key cmp k t.toList := by
  induction t with
  | nil => rfl
  | node left value right ihLeft ihRight =>
    obtain ⟨orderedLeft, orderedRight, below, _⟩ := ordered
    cases order : cmp (key value) k with
    | gt => simp [find?, order, ihLeft orderedLeft, SortedList.find?_append_left key cmp _ order]
    | lt =>
      have low := fun a member => Std.TransCmp.lt_trans (below a member) order
      simp only [find?, order, ihRight orderedRight, toList_node]
      rw [SortedList.find?_append_right key cmp low]
      simp [SortedList.find?, order]
    | eq =>
      have low := fun a member => Std.TransCmp.lt_of_lt_of_eq (below a member) order
      simp only [find?, order, toList_node]
      rw [SortedList.find?_append_right key cmp low]
      simp [SortedList.find?, order]

theorem toList_alter (k : κ) (found : α -> Option α) (missing : Option α) {t : SearchTree α}
    (ordered : t.Ordered key cmp) : (alter key cmp k found missing t).toList =
      SortedList.alter key cmp k found missing t.toList := by
  induction t with
  | nil => cases missing <;> simp [alter]
  | node left value right ihLeft ihRight =>
    obtain ⟨orderedLeft, orderedRight, below, above⟩ := ordered
    cases order : cmp (key value) k with
    | gt => simp [alter, order, ihLeft orderedLeft, SortedList.alter_append_left key cmp _ order]
    | lt =>
      have low := fun a member => Std.TransCmp.lt_trans (below a member) order
      simp only [alter, order, ihRight orderedRight, toList_node]
      rw [SortedList.alter_append_right key cmp low]
      simp [SortedList.alter, order]
    | eq =>
      have low := fun a member => Std.TransCmp.lt_of_lt_of_eq (below a member) order
      simp only [alter, order, toList_node]
      rw [SortedList.alter_append_right key cmp low]
      cases edit : found value with
      | some value => simp [SortedList.alter, order, edit]
      | none =>
        have across := fun a inLeft b inRight =>
          Std.TransCmp.lt_trans (below a inLeft) (above b inRight)
        simp [SortedList.alter, order, edit, toList_graft key cmp _ _ across]

theorem ordered_alter {k : κ} {found : α -> Option α} {missing : Option α} {t : SearchTree α}
    (ordered : t.Ordered key cmp) (keep : ∀ a b, cmp (key a) k = .eq -> found a = some b -> cmp (key b) k = .eq)
    (fresh : ∀ a, missing = some a -> cmp (key a) k = .eq) : (alter key cmp k found missing t).Ordered key cmp := by
  rw [ordered_iff_sorted, toList_alter key cmp k found missing ordered]
  exact SortedList.sorted_alter key cmp ((ordered_iff_sorted key cmp t).mp ordered) keep fresh

theorem find?_alter_self {k : κ} {found : α -> Option α} {missing : Option α} {t : SearchTree α}
    (ordered : t.Ordered key cmp) (keep : ∀ a b, cmp (key a) k = .eq -> found a = some b -> cmp (key b) k = .eq)
    (fresh : ∀ a, missing = some a -> cmp (key a) k = .eq) :
    find? key cmp k (alter key cmp k found missing t) = (find? key cmp k t).elim missing found := by
  rw [find?_toList key cmp k (ordered_alter key cmp ordered keep fresh),
    toList_alter key cmp k found missing ordered, find?_toList key cmp k ordered]
  exact SortedList.find?_alter_self key cmp ((ordered_iff_sorted key cmp t).mp ordered) keep fresh

theorem find?_alter_other {k k' : κ} {found : α -> Option α} {missing : Option α} {t : SearchTree α}
    (ordered : t.Ordered key cmp) (other : cmp k k' ≠ .eq)
    (keep : ∀ a b, cmp (key a) k = .eq -> found a = some b -> cmp (key b) k = .eq)
    (fresh : ∀ a, missing = some a -> cmp (key a) k = .eq) :
    find? key cmp k' (alter key cmp k found missing t) = find? key cmp k' t := by
  rw [find?_toList key cmp k' (ordered_alter key cmp ordered keep fresh),
    toList_alter key cmp k found missing ordered, find?_toList key cmp k' ordered]
  exact SortedList.find?_alter_other key cmp ((ordered_iff_sorted key cmp t).mp ordered) other keep fresh

theorem find?_eq_some_iff {k : κ} {t : SearchTree α} {a : α} (ordered : t.Ordered key cmp) :
    find? key cmp k t = some a ↔ a ∈ t.toList ∧ cmp (key a) k = .eq := by
  rw [find?_toList key cmp k ordered]
  exact SortedList.find?_eq_some_iff key cmp ((ordered_iff_sorted key cmp t).mp ordered)

theorem find?_congr {k k' : κ} (same : cmp k k' = .eq) (t : SearchTree α) : find? key cmp k t = find? key cmp k' t := by
  induction t with
  | nil => rfl
  | node left value right ihLeft ihRight =>
    simp only [find?, Std.TransCmp.congr_right same, ihLeft, ihRight]

theorem alter_related {β : Type} {key' : β -> κ} {R : α -> β -> Prop}
    (keys : ∀ a b, R a b -> key a = key' b) {k : κ} {found : α -> Option α} {found' : β -> Option β}
    {missing : Option α} {missing' : Option β} {t : SearchTree α} {u : SearchTree β}
    (ordered : t.Ordered key cmp) (ordered' : u.Ordered key' cmp) (related : List.Forall₂ R t.toList u.toList)
    (edits : ∀ a b, find? key cmp k t = some a -> R a b -> Option.Rel R (found a) (found' b))
    (fresh : find? key cmp k t = none -> Option.Rel R missing missing') :
    List.Forall₂ R (alter key cmp k found missing t).toList (alter key' cmp k found' missing' u).toList := by
  rw [toList_alter key cmp k found missing ordered, toList_alter key' cmp k found' missing' ordered']
  rw [find?_toList key cmp k ordered] at edits fresh
  exact SortedList.alter_related key cmp keys related edits fresh

theorem find?_related {β : Type} {key' : β -> κ} {R : α -> β -> Prop}
    (keys : ∀ a b, R a b -> key a = key' b) {k : κ} {t : SearchTree α} {u : SearchTree β}
    (ordered : t.Ordered key cmp) (ordered' : u.Ordered key' cmp) (related : List.Forall₂ R t.toList u.toList) :
    Option.Rel R (find? key cmp k t) (find? key' cmp k u) := by
  rw [find?_toList key cmp k ordered, find?_toList key' cmp k ordered']
  exact SortedList.find?_related key cmp keys related

end Order

end SearchTree
