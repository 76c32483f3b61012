import Mathlib.Data.List.Basic

set_option autoImplicit false

namespace Nut

variable {State Value : Type}

def Gives (next : State -> Option Value × State) : Option Value × State -> List Value -> Prop
  | call, [] => call.1 = none
  | call, value :: rest => call.1 = some value ∧ Gives next (next call.2) rest

def calls (next : State -> Option Value × State) (first : Option Value × State) : Nat -> Option Value × State
  | 0 => first
  | n + 1 => next (calls next first n).2

variable {next : State -> Option Value × State} {first : Option Value × State} {values : List Value}

theorem calls_later (n : Nat) : calls next first (n + 1) = calls next (next first.2) n := by
  induction n with
  | zero => rfl
  | succ n ih => rw [calls, ih, calls]

theorem gives_iff : Gives next first values ↔ ∀ n ≤ values.length, (calls next first n).1 = values[n]? := by
  induction values generalizing first with
  | nil => simp [Gives, calls]
  | cons value rest ih =>
    rw [Gives, ih]
    constructor
    · rintro ⟨here, later⟩ n inside
      cases n with
      | zero => simpa [calls] using here
      | succ n =>
        rw [calls_later, List.getElem?_cons_succ]
        exact later n (Nat.le_of_succ_le_succ inside)
    · intro all
      constructor
      · simpa [calls] using all 0 (Nat.zero_le _)
      · intro n inside
        have call := all (n + 1) (Nat.succ_le_succ inside)
        rwa [calls_later, List.getElem?_cons_succ] at call

theorem gives_unique {others : List Value} (gives : Gives next first values) (again : Gives next first others) :
    values = others := by
  induction values generalizing first others with
  | nil =>
    cases others with
    | nil => rfl
    | cons other rest =>
      have returned := again.1
      rw [show first.1 = none from gives] at returned
      cases returned
  | cons value values ih =>
    cases others with
    | nil =>
      have returned := gives.1
      rw [show first.1 = none from again] at returned
      cases returned
    | cons other rest =>
      have same : value = other := Option.some.inj (gives.1.symm.trans again.1)
      rw [same, ih gives.2 again.2]

end Nut
