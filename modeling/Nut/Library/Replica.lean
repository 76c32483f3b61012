import Mathlib.Data.List.Forall2

set_option autoImplicit false

section Replica

variable {S C M T V : Type} (agree : S -> C -> Prop) (deliver : T -> C -> M -> C) (view : S -> V)

def Moves (s : S) (message : M) (s' : S) : Prop :=
  ∀ t c, agree s c -> agree s' (deliver t c message)

inductive Catches : S -> List M -> List S -> S -> Prop where
  | done (s : S) : Catches s [] [] s
  | silent {s s' last : S} {messages : List M} {later : List S} (same : ∀ c, agree s c -> agree s' c)
      (rest : Catches s' messages later last) : Catches s messages (s' :: later) last
  | hear {s s' last : S} {message : M} {messages : List M} {later : List S} (moves : Moves agree deliver s message s')
      (rest : Catches s' messages later last) : Catches s (message :: messages) (s' :: later) last
  | within {s s' last : S} {message : M} {messages : List M} {later : List S} (moves : Moves agree deliver s message s')
      (looks : view s' = view s) (rest : Catches s' messages later last) : Catches s (message :: messages) later last

variable {agree deliver view} {s last last' : S} {c : C}

theorem catches_append {messages more : List M} {later behind : List S} (first : Catches agree deliver view s messages later last)
    (second : Catches agree deliver view last more behind last') :
    Catches agree deliver view s (messages ++ more) (later ++ behind) last' := by
  induction first with
  | done s => exact second
  | silent same _ ih => exact .silent same (ih second)
  | hear moves _ ih => exact .hear moves (ih second)
  | within moves looks _ ih => exact .within moves looks (ih second)

theorem catches_idle {later : List S} (catches : Catches agree deliver view s [] later last) (agrees : agree s c) : agree last c := by
  generalize none_ : ([] : List M) = messages at catches
  induction catches with
  | done s => exact agrees
  | silent same _ ih => exact ih (same c agrees) none_
  | hear => cases none_
  | within => cases none_

theorem catches_deliver {messages rest : List M} {later : List S} (catches : Catches agree deliver view s (messages ++ rest) later last)
    (agrees : agree s c) (t : T) :
    ∃ k s' shown, agree s' (messages.foldl (deliver t) c) ∧ (s :: later)[k]? = some shown ∧ view s' = view shown ∧
      Catches agree deliver view s' rest (later.drop k) last := by
  generalize whole : messages ++ rest = all at catches
  induction catches generalizing messages c with
  | done s =>
    obtain ⟨rfl, rfl⟩ := List.append_eq_nil_iff.mp whole
    exact ⟨0, s, s, agrees, rfl, rfl, .done s⟩
  | @silent s s' last all later same onward ih =>
    obtain ⟨k, reached, shown, agrees', at_, looks, catches⟩ := ih (same c agrees) whole
    exact ⟨k + 1, reached, shown, agrees', at_, looks, catches⟩
  | @hear s s' last message all later moves onward ih =>
    cases messages with
    | nil =>
      obtain rfl : rest = message :: all := whole
      exact ⟨0, s, s, agrees, rfl, rfl, .hear moves onward⟩
    | cons head messages =>
      obtain ⟨rfl, whole'⟩ := List.cons.inj whole
      obtain ⟨k, reached, shown, agrees', at_, looks, catches⟩ := ih (moves t c agrees) whole'
      exact ⟨k + 1, reached, shown, agrees', at_, looks, catches⟩
  | @within s s' last message all later moves same onward ih =>
    cases messages with
    | nil =>
      obtain rfl : rest = message :: all := whole
      exact ⟨0, s, s, agrees, rfl, rfl, .within moves same onward⟩
    | cons head messages =>
      obtain ⟨rfl, whole'⟩ := List.cons.inj whole
      obtain ⟨k, reached, shown, agrees', at_, looks, catches⟩ := ih (moves t c agrees) whole'
      cases k with
      | zero =>
        obtain rfl : s' = shown := by simpa using at_
        exact ⟨0, reached, s, agrees', rfl, looks.trans same, catches⟩
      | succ k => exact ⟨k + 1, reached, shown, agrees', at_, looks, catches⟩

theorem catches_all {messages : List M} {later : List S} (catches : Catches agree deliver view s messages later last)
    (agrees : agree s c) (t : T) : agree last (messages.foldl (deliver t) c) := by
  rw [<- List.append_nil messages] at catches
  obtain ⟨k, s', shown, agrees', -, -, rest⟩ := catches_deliver catches agrees t
  exact catches_idle rest agrees'

end Replica

section Moments

variable {A : Type} {P Q : A -> Nat -> Prop} {reads : List A} {upto : Nat}

-- Each read is of some moment, none of them after `upto`, and no read is of an earlier moment than one before it.
def InOrder (P : A -> Nat -> Prop) (reads : List A) (upto : Nat) : Prop :=
  ∃ moments, List.Forall₂ P reads moments ∧ moments.Pairwise (· ≤ ·) ∧ ∀ moment ∈ moments, moment ≤ upto

theorem inOrder_nil (upto : Nat) : InOrder P [] upto := ⟨[], .nil, .nil, by simp⟩

theorem inOrder_later (inOrder : InOrder P reads upto) {later : Nat} (behind : upto ≤ later) : InOrder P reads later := by
  obtain ⟨moments, each, sorted, bound⟩ := inOrder
  exact ⟨moments, each, sorted, fun moment member => Nat.le_trans (bound moment member) behind⟩

theorem inOrder_mono (weaker : ∀ a moment, P a moment -> Q a moment) (inOrder : InOrder P reads upto) : InOrder Q reads upto := by
  obtain ⟨moments, each, sorted, bound⟩ := inOrder
  exact ⟨moments, each.imp weaker, sorted, bound⟩

theorem inOrder_read (inOrder : InOrder P reads upto) {a : A} (read : P a upto) : InOrder P (reads ++ [a]) upto := by
  obtain ⟨moments, each, sorted, bound⟩ := inOrder
  refine ⟨moments ++ [upto], List.rel_append each (.cons read .nil), ?_, ?_⟩
  · exact List.pairwise_append.mpr ⟨sorted, List.pairwise_singleton _ _, by simpa using bound⟩
  · intro moment member
    obtain member | member := List.mem_append.mp member
    · exact bound moment member
    · exact Nat.le_of_eq (List.mem_singleton.mp member)

end Moments
