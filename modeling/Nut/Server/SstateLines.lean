import Nut.Drivers.DstateLines
import Nut.Server.Sstate

set_option autoImplicit false

namespace Nut

-- upsd between two lines of the driver, with a socket context as `pconf_init` sets it up.
def Listening (ups : Upstype) : Prop :=
  AtLineStart ups.sockCtx ∧ ups.sockCtx.argLimit = pconfDefaultArgLimit ∧
    ups.sockCtx.wordlenLimit = pconfDefaultWordlenLimit

def Stable (Q : Upstype -> Prop) : Prop :=
  ∀ ups lastHeard sockCtx, Q ups -> Q { ups with lastHeard, sockCtx }

-- upsd comes from `P` to `Q` by reading these lines, which are complete and within its limits.
def Hears (P : Upstype -> Prop) (lines : List CString) (Q : Upstype -> Prop) : Prop :=
  ∀ now tracking ups, P ups -> ∃ words, List.Forall₂ (IsLine 32 512) lines words ∧
    Q (words.foldl (sstateLine now) (ups, tracking)).1

section Rules

variable {P Q R : Upstype -> Prop}

theorem hears_nil (weaker : ∀ ups, P ups -> Q ups) : Hears P [] Q := by
  intro now tracking ups before
  exact ⟨[], .nil, weaker ups before⟩

theorem hears_append {lines more : List CString} (first : Hears P lines Q) (second : Hears Q more R) :
    Hears P (lines ++ more) R := by
  intro now tracking ups before
  obtain ⟨words, areLines, between⟩ := first now tracking ups before
  obtain ⟨words', areLines', after⟩ := second now (words.foldl (sstateLine now) (ups, tracking)).2 _ between
  refine ⟨words ++ words', List.rel_append areLines areLines', ?_⟩
  rw [List.foldl_append]
  exact after

theorem hears_line {text : CString} {words : List CString}
    (line : IsLine 32 512 text words ∧ text.length < stSockBufLen) (stable : Stable Q)
    (effect : ∀ now tracking ups, P ups -> Q (parseArgs now ups tracking words).1) : Hears P (sockLine text) Q := by
  obtain ⟨isLine, fits⟩ := line
  have some : text ≠ [] := by
    obtain ⟨body, rfl, _⟩ := isLine
    simp
  intro now tracking ups before
  rw [sockLine_fits some fits]
  refine ⟨[words], .cons isLine .nil, ?_⟩
  have after := effect now tracking ups before
  simp only [List.foldl_cons, List.foldl_nil, sstateLine]
  split
  · exact stable _ now _ after
  · exact after

theorem sstateReadline_hears {lines : List CString} (hears : Hears P lines Q) (stable : Stable Q)
    {ups : Upstype} (listening : Listening ups) (before : P ups) (now : Int) (tracking : TrackingList) :
    Q (sstateReadline now ups tracking lines.flatten).1 ∧
      Listening (sstateReadline now ups tracking lines.flatten).1 := by
  obtain ⟨words, areLines, after⟩ := hears now tracking ups before
  obtain ⟨start, args, wordlen⟩ := listening
  have areLines' : List.Forall₂ (IsLine ups.sockCtx.argLimit ups.sockCtx.wordlenLimit) lines words := by
    rw [args, wordlen]
    exact areLines
  obtain ⟨reached, read, start', args', wordlen'⟩ := readChars_lines (sstateLine now) start (ups, tracking) areLines'
  simp only [sstateReadline, read]
  exact ⟨stable _ _ reached after, start', args'.trans args, wordlen'.trans wordlen⟩

end Rules

theorem isLine_keyword (keyword : CString) (bare : BareWord keyword) (short : keyword.length ≤ 9) :
    IsLine 32 512 (keyword ++ [10]) [keyword] ∧ (keyword ++ [10]).length < stSockBufLen := by
  refine ⟨⟨keyword, rfl, .last bare.token, by simp, ?_⟩, ?_⟩
  · simp only [List.forall_mem_cons, List.not_mem_nil, false_imp_iff, implies_true, and_true]
    omega
  · simp only [List.length_append, List.length_cons, List.length_nil, stSockBufLen]
    omega

end Nut
