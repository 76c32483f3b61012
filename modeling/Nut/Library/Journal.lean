import Mathlib.Data.List.Basic

set_option autoImplicit false

section Journal

variable {α : Type}

def EachEntry (P : List α -> α -> Prop) (journal : List α) : Prop :=
  ∀ earlier entry later, journal = earlier ++ entry :: later -> P earlier entry

variable {P : List α -> α -> Prop}

theorem eachEntry_nil : EachEntry P [] := by
  intro earlier entry later split
  simp at split

theorem eachEntry_append (journal : List α) (entry : α) :
    EachEntry P (journal ++ [entry]) ↔ EachEntry P journal ∧ P journal entry := by
  constructor
  · intro all
    refine ⟨?_, all journal entry [] rfl⟩
    intro earlier other later split
    exact all earlier other (later ++ [entry]) (by simp [split])
  · rintro ⟨before, last⟩ earlier other later split
    rcases List.eq_nil_or_concat later with empty | ⟨upto, final, rfl⟩
    · subst empty
      obtain ⟨same, isLast⟩ := List.append_inj' split rfl
      have entries : entry = other := (List.cons.inj isLast).1
      exact same ▸ entries ▸ last
    · have inside : journal ++ [entry] = (earlier ++ other :: upto) ++ [final] := by simpa using split
      obtain ⟨same, _⟩ := List.append_inj' inside rfl
      exact before earlier other upto same

end Journal
