import Mathlib.Data.List.Pairwise

set_option autoImplicit false

namespace KeyedList

variable {α κ : Type} (key : α -> κ) (cmp : κ -> κ -> Ordering)

def lookup (k : κ) (list : List α) : Option α :=
  list.find? fun a => cmp (key a) k == .eq

def setFirst (k : κ) (change : α -> α) : List α -> List α
  | [] => []
  | a :: rest => if cmp (key a) k = .eq then change a :: rest else a :: setFirst k change rest

def eraseFirst (k : κ) : List α -> List α
  | [] => []
  | a :: rest => if cmp (key a) k = .eq then rest else a :: eraseFirst k rest

def Distinct (list : List α) : Prop :=
  list.Pairwise fun a b => cmp (key a) (key b) ≠ .eq

section Lookup

variable {key cmp} {k k' : κ} {a : α} {list : List α}

theorem lookup_cons : lookup key cmp k (a :: list) = if cmp (key a) k = .eq then some a else lookup key cmp k list := by
  by_cases hit : cmp (key a) k = .eq <;> simp [lookup, hit]

theorem setFirst_unknown {change : α -> α} (unknown : lookup key cmp k list = none) :
    setFirst key cmp k change list = list := by
  induction list with
  | nil => rfl
  | cons a rest ih =>
    rw [lookup_cons] at unknown
    split at unknown
    next => cases unknown
    next other => rw [setFirst, if_neg other, ih unknown]

theorem distinct_setFirst {change : α -> α} (keeps : ∀ a, key (change a) = key a) (distinct : Distinct key cmp list) :
    Distinct key cmp (setFirst key cmp k change list) := by
  have keys : (setFirst key cmp k change list).map key = list.map key := by
    induction list with
    | nil => rfl
    | cons a rest ih =>
      rw [setFirst]
      split
      · simp [keeps]
      · rw [List.map_cons, ih distinct.of_cons, List.map_cons]
  have pairs {list : List α} : Distinct key cmp list ↔ (list.map key).Pairwise fun a b => cmp a b ≠ .eq := by
    rw [List.pairwise_map]
    rfl
  rw [pairs, keys, <- pairs]
  exact distinct

theorem distinct_filter (distinct : Distinct key cmp list) (keep : α -> Bool) : Distinct key cmp (list.filter keep) :=
  distinct.sublist List.filter_sublist

variable [Std.TransCmp cmp]

theorem same_left (same : cmp k k' = .eq) (other : κ) : cmp k other = .eq ↔ cmp k' other = .eq :=
  ⟨fun hit => Std.TransCmp.eq_trans (Std.OrientedCmp.eq_symm same) hit, fun hit => Std.TransCmp.eq_trans same hit⟩

theorem same_right (same : cmp k k' = .eq) (other : κ) : cmp other k = .eq ↔ cmp other k' = .eq :=
  ⟨fun hit => Std.TransCmp.eq_trans hit same, fun hit => Std.TransCmp.eq_trans hit (Std.OrientedCmp.eq_symm same)⟩

theorem lookup_setFirst {change : α -> α} (keeps : ∀ a, key (change a) = key a) :
    lookup key cmp k' (setFirst key cmp k change list) =
      if cmp k k' = .eq then (lookup key cmp k' list).map change else lookup key cmp k' list := by
  induction list with
  | nil => simp [setFirst, lookup]
  | cons a rest ih =>
    by_cases hit : cmp (key a) k = .eq
    · rw [setFirst, if_pos hit, lookup_cons, lookup_cons, keeps]
      simp only [same_left hit k']
      split <;> simp
    · rw [setFirst, if_neg hit, lookup_cons, lookup_cons, ih]
      by_cases here : cmp (key a) k' = .eq
      · have apart : cmp k k' ≠ .eq := fun same => hit ((same_right same _).mpr here)
        simp [here, apart]
      · simp [here]

theorem eraseFirst_eq (distinct : Distinct key cmp list) :
    eraseFirst key cmp k list = list.filter fun a => cmp (key a) k != .eq := by
  induction list with
  | nil => rfl
  | cons a rest ih =>
    by_cases hit : cmp (key a) k = .eq
    · have others : ∀ b ∈ rest, cmp (key b) k ≠ .eq := by
        intro b member same
        refine (List.pairwise_cons.mp distinct).1 b member ?_
        exact (same_left hit _).mpr (Std.OrientedCmp.eq_symm same)
      rw [eraseFirst, if_pos hit, List.filter_cons, hit]
      simp only [bne_self_eq_false, Bool.false_eq_true, if_false]
      exact (List.filter_eq_self.mpr fun b member => by simpa using others b member).symm
    · rw [eraseFirst, if_neg hit, ih distinct.of_cons, List.filter_cons]
      simp [hit]

theorem lookup_filter (distinct : Distinct key cmp list) (keep : α -> Bool) :
    lookup key cmp k (list.filter keep) = (lookup key cmp k list).filter keep := by
  induction list with
  | nil => rfl
  | cons a rest ih =>
    rw [List.filter_cons, lookup_cons]
    by_cases hit : cmp (key a) k = .eq
    · rw [if_pos hit]
      by_cases kept : keep a = true
      · rw [if_pos kept, lookup_cons, if_pos hit]
        simp [Option.filter, kept]
      · have gone : lookup key cmp k (rest.filter keep) = none := by
          refine List.find?_eq_none.mpr fun b member same => ?_
          refine (List.pairwise_cons.mp distinct).1 b (List.mem_filter.mp member).1 ?_
          exact (same_left hit _).mpr (Std.OrientedCmp.eq_symm (by simpa using same))
        rw [if_neg kept, gone]
        simp [Option.filter, kept]
    · rw [if_neg hit, <- ih distinct.of_cons]
      split
      · rw [lookup_cons, if_neg hit]
      · rfl

theorem sweep_eq (distinct : Distinct key cmp list) (due : α -> Bool) :
    list.foldl (fun left a => if due a then eraseFirst key cmp (key a) left else left) list =
      list.filter fun a => !due a := by
  have upto (items left : List α) (distinct : Distinct key cmp left) :
      items.foldl (fun left a => if due a then eraseFirst key cmp (key a) left else left) left =
        left.filter fun a => !items.any fun item => due item && cmp (key a) (key item) == .eq := by
    induction items generalizing left with
    | nil => exact (List.filter_eq_self.mpr fun _ _ => rfl).symm
    | cons item items ih =>
      rw [List.foldl_cons]
      by_cases isDue : due item = true
      · rw [if_pos isDue, eraseFirst_eq distinct, ih _ (distinct_filter distinct _), List.filter_filter]
        refine List.filter_congr fun a _ => ?_
        by_cases same : cmp (key a) (key item) = .eq <;> simp [isDue, same, bne, Bool.and_comm]
      · rw [if_neg isDue, ih left distinct]
        refine List.filter_congr fun a _ => ?_
        simp [isDue]
  rw [upto list list distinct]
  refine List.filter_congr fun a member => ?_
  congr 1
  rw [Bool.eq_iff_iff, List.any_eq_true]
  constructor
  · rintro ⟨item, inside, both⟩
    rw [Bool.and_eq_true, beq_iff_eq] at both
    have equal : a = item := by
      by_contra apart
      have symm : Std.Symm fun a b : α => cmp (key a) (key b) ≠ .eq :=
        ⟨fun _ _ other same => other (Std.OrientedCmp.eq_symm same)⟩
      exact distinct.forall member inside apart both.2
    exact equal ▸ both.1
  · exact fun isDue => ⟨a, member, by simp [isDue, Std.ReflCmp.compare_self]⟩

end Lookup

end KeyedList
