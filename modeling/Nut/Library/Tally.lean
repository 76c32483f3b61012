import Mathlib.Data.List.Nodup

set_option autoImplicit false

structure Tally (ι κ : Type) where
  counts : List (κ × Int)
  holders : List (ι × Option κ)

namespace Tally

variable {ι κ : Type} [DecidableEq ι] [DecidableEq κ]

def heldBy (k : κ) (holder : ι × Option κ) : Bool :=
  holder.2 = some k

structure Balanced (t : Tally ι κ) : Prop where
  keys : (t.counts.map Prod.fst).Nodup
  ids : (t.holders.map Prod.fst).Nodup
  counted : ∀ count ∈ t.counts, count.2 = t.holders.countP (heldBy count.1)
  known : ∀ holder ∈ t.holders, ∀ k, holder.2 = some k -> k ∈ t.counts.map Prod.fst

def bump (k : κ) (by_ : Int) (counts : List (κ × Int)) : List (κ × Int) :=
  counts.map fun count => if count.1 = k then (count.1, count.2 + by_) else count

def acquire (i : ι) (k : κ) (t : Tally ι κ) : Tally ι κ :=
  { counts := bump k 1 t.counts
    holders := t.holders.map fun holder => if holder.1 = i then (holder.1, some k) else holder }

def leave (i : ι) (held : Option κ) (t : Tally ι κ) : Tally ι κ :=
  { counts := match held with
      | some k => bump k (-1) t.counts
      | none => t.counts
    holders := t.holders.filter fun holder => holder.1 ≠ i }

def join (i : ι) (t : Tally ι κ) : Tally ι κ :=
  { t with holders := (i, none) :: t.holders }

def add (k : κ) (t : Tally ι κ) : Tally ι κ :=
  { t with counts := (k, 0) :: t.counts }

def drop (k : κ) (t : Tally ι κ) : Tally ι κ :=
  { t with counts := t.counts.filter fun count => count.1 ≠ k }

theorem map_fst_bump (k : κ) (by_ : Int) (counts : List (κ × Int)) :
    (bump k by_ counts).map Prod.fst = counts.map Prod.fst := by
  simp only [bump, List.map_map]
  apply List.map_congr_left
  intro count _
  by_cases same : count.1 = k <;> simp [same]

omit [DecidableEq ι] [DecidableEq κ] in
theorem holder_split {holders : List (ι × Option κ)} (ids : (holders.map Prod.fst).Nodup) {i : ι} {held : Option κ}
    (member : (i, held) ∈ holders) :
    ∃ before after, holders = before ++ (i, held) :: after ∧ ∀ other ∈ before ++ after, other.1 ≠ i := by
  obtain ⟨before, after, rfl⟩ := List.append_of_mem member
  refine ⟨before, after, rfl, fun other inside same => ?_⟩
  rw [List.map_append, List.map_cons, List.nodup_middle, List.nodup_cons, <- List.map_append] at ids
  exact ids.1 (List.mem_map.mpr ⟨other, inside, same⟩)

theorem countP_leave {holders : List (ι × Option κ)} (ids : (holders.map Prod.fst).Nodup) {i : ι}
    {held : Option κ} (member : (i, held) ∈ holders) (k : κ) : (holders.countP (heldBy k) : Int) =
      (holders.filter fun holder => holder.1 ≠ i).countP (heldBy k) + if held = some k then 1 else 0 := by
  obtain ⟨before, after, rfl, others⟩ := holder_split ids member
  have kept : ((before ++ (i, held) :: after).filter fun holder => holder.1 ≠ i) = before ++ after := by
    rw [List.filter_append, List.filter_cons_of_neg (by simp), <- List.filter_append, List.filter_eq_self]
    exact fun other inside => by simpa using others other inside
  rw [kept]
  simp only [List.countP_append, List.countP_cons, heldBy, decide_eq_true_eq]
  split
  · simp
    omega
  · simp

theorem countP_acquire {holders : List (ι × Option κ)} (ids : (holders.map Prod.fst).Nodup) {i : ι}
    (member : (i, none) ∈ holders) (k k' : κ) :
    ((holders.map fun holder => if holder.1 = i then (holder.1, some k) else holder).countP (heldBy k') : Int) =
      holders.countP (heldBy k') + if k = k' then 1 else 0 := by
  obtain ⟨before, after, rfl, others⟩ := holder_split ids member
  have same {part : List (ι × Option κ)} (apart : ∀ other ∈ part, other.1 ≠ i) :
      (part.map fun holder => if holder.1 = i then (holder.1, some k) else holder) = part :=
    (List.map_congr_left fun other inside => if_neg (apart other inside)).trans (List.map_id part)
  obtain ⟨apartBefore, apartAfter⟩ := List.forall_mem_append.mp others
  rw [List.map_append, List.map_cons, same apartBefore, same apartAfter, if_pos rfl]
  simp only [List.countP_append, List.countP_cons, heldBy, decide_eq_true_eq, Option.some.injEq, reduceCtorEq, if_false]
  split
  · simp
    omega
  · simp

section Balanced

variable {t : Tally ι κ}

theorem balanced_acquire (balanced : t.Balanced) {i : ι} {k : κ} (free : (i, none) ∈ t.holders)
    (key : k ∈ t.counts.map Prod.fst) : (t.acquire i k).Balanced := by
  refine ⟨?_, ?_, ?_, ?_⟩
  · simpa only [acquire, map_fst_bump] using balanced.keys
  · have same : (t.acquire i k).holders.map Prod.fst = t.holders.map Prod.fst := by
      simp only [acquire, List.map_map]
      apply List.map_congr_left
      intro holder _
      by_cases here : holder.1 = i <;> simp [here]
    rw [same]
    exact balanced.ids
  · intro count member
    obtain ⟨old, inside, rfl⟩ := List.mem_map.mp member
    have before := balanced.counted old inside
    simp only [acquire]
    split
    next same =>
        rw [countP_acquire balanced.ids free]
        simp [before, same]
    next differs =>
        rw [countP_acquire balanced.ids free, if_neg (Ne.symm differs), before]
        simp
  · intro holder member k' held
    simp only [acquire, map_fst_bump]
    obtain ⟨old, inside, rfl⟩ := List.mem_map.mp member
    split at held
    · obtain rfl := Option.some.inj held
      exact key
    · exact balanced.known old inside k' held

theorem balanced_leave (balanced : t.Balanced) {i : ι} {held : Option κ} (member : (i, held) ∈ t.holders) :
    (t.leave i held).Balanced := by
  have keys : (t.leave i held).counts.map Prod.fst = t.counts.map Prod.fst := by
    cases held with
    | none => rfl
    | some k => exact map_fst_bump k (-1) t.counts
  refine ⟨by rw [keys]; exact balanced.keys, balanced.ids.sublist (List.filter_sublist.map _), ?_, ?_⟩
  · intro count inside
    have moved := countP_leave balanced.ids member
    cases held with
    | none =>
      have before := balanced.counted count inside
      have same := moved count.1
      simp only [reduceCtorEq, if_false, Int.add_zero] at same
      rw [before, same]
      rfl
    | some k =>
      obtain ⟨old, origin, rfl⟩ := List.mem_map.mp inside
      have before := balanced.counted old origin
      have same := moved old.1
      simp only [leave]
      split
      next here =>
          simp only [here, if_true] at same before ⊢
          omega
      next differs =>
          simp only [Option.some.injEq, Ne.symm differs, if_false] at same
          omega
  · intro holder inside k holds
    rw [keys]
    exact balanced.known holder (List.mem_filter.mp inside).1 k holds

omit [DecidableEq ι] in
theorem balanced_join (balanced : t.Balanced) {i : ι} (fresh : i ∉ t.holders.map Prod.fst) : (t.join i).Balanced := by
  refine ⟨balanced.keys, List.nodup_cons.mpr ⟨fresh, balanced.ids⟩, ?_, ?_⟩
  · intro count member
    rw [balanced.counted count member]
    simp [join, heldBy]
  · intro holder member k held
    obtain rfl | inside := List.mem_cons.mp member
    · cases held
    · exact balanced.known holder inside k held

omit [DecidableEq ι] in
theorem balanced_add (balanced : t.Balanced) {k : κ} (fresh : k ∉ t.counts.map Prod.fst) : (t.add k).Balanced := by
  refine ⟨List.nodup_cons.mpr ⟨fresh, balanced.keys⟩, balanced.ids, ?_, ?_⟩
  · intro count member
    obtain rfl | inside := List.mem_cons.mp member
    · have none : t.holders.countP (heldBy k) = 0 := by
        apply List.countP_eq_zero.mpr
        intro holder inside held
        exact fresh (balanced.known holder inside k (by simpa [heldBy] using held))
      simp [add, none]
    · exact balanced.counted count inside
  · intro holder member k' held
    exact List.mem_cons_of_mem _ (balanced.known holder member k' held)

omit [DecidableEq ι] in
theorem balanced_drop (balanced : t.Balanced) {k : κ} (free : ∀ holder ∈ t.holders, holder.2 ≠ some k) :
    (t.drop k).Balanced := by
  refine ⟨balanced.keys.sublist (List.filter_sublist.map _), balanced.ids, ?_, ?_⟩
  · intro count member
    exact balanced.counted count (List.mem_filter.mp member).1
  · intro holder member k' held
    obtain ⟨count, inside, rfl⟩ := List.mem_map.mp (balanced.known holder member k' held)
    have differs : count.1 ≠ k := by
      intro same
      exact free holder member (same ▸ held)
    exact List.mem_map_of_mem (List.mem_filter.mpr ⟨inside, by simpa using differs⟩)

end Balanced

end Tally
