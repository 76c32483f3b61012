import Mathlib.Data.List.Infix
import Mathlib.Data.List.TakeWhile

set_option autoImplicit false

namespace PrefixCode

variable {α : Type} {isEnd : α -> Bool}

def Terminated (isEnd : α -> Bool) (word : List α) : Prop :=
  ∃ body last, word = body ++ [last] ∧ (∀ b ∈ body, isEnd b = false) ∧ isEnd last = true

theorem terminated_append {word word' rest rest' : List α} (first : Terminated isEnd word)
    (second : Terminated isEnd word') (same : word ++ rest = word' ++ rest') : word = word' ∧ rest = rest' := by
  obtain ⟨body, last, rfl, inside, close⟩ := first
  obtain ⟨body', last', rfl, inside', close'⟩ := second
  have read (body : List α) (last : α) (rest : List α) (inside : ∀ b ∈ body, isEnd b = false)
      (close : isEnd last = true) : ((body ++ [last]) ++ rest).takeWhile (fun b => !isEnd b) = body := by
    rw [List.append_assoc, List.takeWhile_append_of_pos fun b member => by simp [inside b member]]
    simp [close]
  have bodies : body = body' := by
    rw [<- read body last rest inside close, <- read body' last' rest' inside' close', same]
  rw [bodies] at same ⊢
  simpa using same

theorem terminated_nonempty {word : List α} (terminated : Terminated isEnd word) : word ≠ [] := by
  obtain ⟨body, last, rfl, _⟩ := terminated
  simp

theorem flatten_prefix {words words' : List (List α)} (terminated : ∀ word ∈ words, Terminated isEnd word)
    (terminated' : ∀ word ∈ words', Terminated isEnd word) (before : words.flatten <+: words'.flatten) :
    words <+: words' := by
  induction words generalizing words' with
  | nil => exact List.nil_prefix
  | cons word words ih =>
    have own := terminated word List.mem_cons_self
    obtain ⟨rest, whole⟩ := before
    cases words' with
    | nil => simp [terminated_nonempty own] at whole
    | cons word' words' =>
      rw [List.flatten_cons, List.flatten_cons, List.append_assoc] at whole
      obtain ⟨rfl, later⟩ := terminated_append own (terminated' word' List.mem_cons_self) whole
      have tails := ih (fun other member => terminated other (List.mem_cons_of_mem _ member))
        (fun other member => terminated' other (List.mem_cons_of_mem _ member)) ⟨rest, later⟩
      exact (List.prefix_cons_inj word).mpr tails

theorem flatten_last {words : List (List α)} (terminated : ∀ word ∈ words, Terminated isEnd word) :
    ∀ some_ : words.flatten ≠ [], isEnd (words.flatten.getLast some_) = true := by
  induction words using List.reverseRecOn with
  | nil => simp
  | append_singleton front word _ =>
    obtain ⟨body, last, whole, _, close⟩ := terminated word (by simp)
    intro some_
    simpa [whole] using close

end PrefixCode
