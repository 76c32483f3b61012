import Mathlib.Order.Defs.Unbundled

set_option autoImplicit false

namespace Nut

section RunningBest

variable {A : Type} {beats : A -> A -> Prop} {list : List A} {best next : A}

structure RunningBest (beats : A -> A -> Prop) (list : List A) (best : A) : Prop where
  unbeaten : ∀ other ∈ list, ¬ beats other best
  place : ∃ before after, list = before ++ best :: after ∧
    ∀ other ∈ before, ∃ loser, beats best loser ∧ ¬ beats other loser

namespace RunningBest

theorem mem (running : RunningBest beats list best) : best ∈ list := by
  obtain ⟨before, after, rfl, -⟩ := running.place
  simp

theorem single [Std.Irrefl beats] : RunningBest beats [best] best := by
  refine ⟨fun other member => ?_, [], [], rfl, by simp⟩
  rw [List.mem_singleton.mp member]
  exact Std.Irrefl.irrefl best

theorem keep (running : RunningBest beats list best) (worse : ¬ beats next best) :
    RunningBest beats (list ++ [next]) best := by
  obtain ⟨before, after, split, others⟩ := running.place
  refine ⟨fun other member => ?_, before, after ++ [next], by simp [split], others⟩
  rcases List.mem_append.mp member with earlier | last
  · exact running.unbeaten other earlier
  · rwa [List.mem_singleton.mp last]

theorem replace [Std.Irrefl beats] [IsTrans A beats] (running : RunningBest beats list best) (better : beats next best) :
    RunningBest beats (list ++ [next]) next := by
  refine ⟨fun other member => ?_, list, [], rfl, fun other member => ⟨best, better, running.unbeaten other member⟩⟩
  rcases List.mem_append.mp member with earlier | last
  · intro beaten
    exact running.unbeaten other earlier (IsTrans.trans other next best beaten better)
  · rw [List.mem_singleton.mp last]
    exact Std.Irrefl.irrefl next

end RunningBest

end RunningBest

end Nut
