import Nut.Common.ParseConf

set_option autoImplicit false

namespace Nut

def fileLines (ctx : PconfCtx) : CString -> List (List CString)
  | [] =>
    if ctx.arglist ≠ [] then [(if ctx.wordbuf ≠ [] then endofword ctx else ctx).arglist] else []
  | b :: rest =>
    let next := parseChar ctx (fgetcToInt b)
    if lineDone next then next.arglist :: fileLines (startLine next) rest else fileLines next rest

section Lengths

structure Limited (ctx : PconfCtx) : Prop where
  positive : ctx.wordlenLimit ≠ 0
  word : ctx.wordbuf.length ≤ ctx.wordlenLimit
  args : ∀ arg ∈ ctx.arglist, arg.length ≤ ctx.wordlenLimit

variable {ctx : PconfCtx}

theorem Limited.addchar (limited : Limited ctx) (ch : Int) :
    Limited (addchar ctx ch) ∧ (Nut.addchar ctx ch).wordlenLimit = ctx.wordlenLimit := by
  unfold Nut.addchar
  split
  · exact ⟨limited, rfl⟩
  · split
    next => exact ⟨limited, rfl⟩
    next room =>
      refine ⟨⟨limited.positive, ?_, limited.args⟩, rfl⟩
      rw [List.length_append, List.length_singleton]
      have less : ¬ ctx.wordbuf.length ≥ ctx.wordlenLimit := fun full => room ⟨limited.positive, full⟩
      dsimp only
      omega

theorem Limited.endofword (limited : Limited ctx) :
    Limited (endofword ctx) ∧ (Nut.endofword ctx).wordlenLimit = ctx.wordlenLimit := by
  unfold Nut.endofword
  split
  · exact ⟨⟨limited.positive, Nat.zero_le _, limited.args⟩, rfl⟩
  · refine ⟨⟨limited.positive, Nat.zero_le _, ?_⟩, rfl⟩
    intro arg member
    rcases List.mem_append.mp member with earlier | last
    · exact limited.args arg earlier
    · rw [List.mem_singleton.mp last]
      exact limited.word

theorem Limited.state (limited : Limited ctx) (state : PconfState) : Limited { ctx with state } :=
  { limited with }

theorem Limited.findwordstart (limited : Limited ctx) (ch : Int) :
    Limited (findwordstart ctx ch).1 ∧ (Nut.findwordstart ctx ch).1.wordlenLimit = ctx.wordlenLimit := by
  obtain ⟨added, same⟩ := limited.addchar ch
  obtain ⟨ended, again⟩ := added.endofword
  unfold Nut.findwordstart
  repeat' split
  all_goals
    first
    | exact ⟨limited, rfl⟩
    | exact ⟨ended, again.trans same⟩
    | exact ⟨added, same⟩

theorem Limited.parseChar (limited : Limited ctx) (ch : Int) :
    Limited (parseChar ctx ch) ∧ (Nut.parseChar ctx ch).wordlenLimit = ctx.wordlenLimit := by
  have entered {next : PconfCtx × PconfState} (kept : Limited next.1 ∧ next.1.wordlenLimit = ctx.wordlenLimit) :
      Limited (enter next) ∧ (enter next).wordlenLimit = ctx.wordlenLimit := ⟨kept.1.state _, kept.2⟩
  have same : Limited ctx ∧ ctx.wordlenLimit = ctx.wordlenLimit := ⟨limited, rfl⟩
  have ended := limited.endofword
  have split_ := ended.1.findwordstart ch
  unfold Nut.parseChar
  split
  · exact entered (limited.findwordstart ch)
  · unfold findeol
    split <;> exact entered same
  · unfold quotecollect
    split
    · exact entered ended
    · split
      · exact entered same
      · exact entered (limited.addchar ch)
  · unfold qcLiteral
    split
    · exact entered same
    · exact entered (limited.addchar ch)
  · unfold collect
    repeat' split
    all_goals
      first
      | exact entered ended
      | exact entered ⟨split_.1, split_.2.trans ended.2⟩
      | exact entered same
      | exact entered (limited.addchar ch)
  · unfold collectliteral
    split
    · exact entered same
    · exact entered (limited.addchar ch)
  · exact same
  · exact same

theorem fileLines_short (limited : Limited ctx) (file : CString) :
    ∀ line ∈ fileLines ctx file, ∀ word ∈ line, word.length ≤ ctx.wordlenLimit := by
  induction file generalizing ctx with
  | nil =>
    intro line member
    unfold fileLines at member
    split at member
    · rw [List.mem_singleton.mp member]
      split
      · obtain ⟨ended, same⟩ := limited.endofword
        rw [<- same]
        exact ended.args
      · exact limited.args
    · cases member
  | cons b rest ih =>
    obtain ⟨next, same⟩ := limited.parseChar (fgetcToInt b)
    have started : Limited (startLine (Nut.parseChar ctx (fgetcToInt b))) :=
      ⟨next.positive, next.word, by simp [startLine]⟩
    intro line member
    unfold fileLines at member
    dsimp only at member
    rw [<- same]
    split at member
    · rcases List.mem_cons.mp member with first | later
      · rw [first]
        exact next.args
      · exact ih started line later
    · exact ih next line member

theorem limited_init : Limited (startLine pconfInit) := ⟨by decide, Nat.zero_le _, by simp [startLine]⟩

end Lengths

end Nut
