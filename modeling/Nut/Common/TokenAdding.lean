import Nut.Common.TokenList

set_option autoImplicit false

namespace Nut

def intMax : Nat := 2 ^ 31 - 1

def vsnprintfcat (dst : CString) (size : Nat) (text : CString) : CString × Int :=
  if dst.length > size - 1 then (dst, -1)
  else if dst.length + text.length ≥ intMax then (snprintfcat dst size text, -1)
  else (snprintfcat dst size text, (dst.length + text.length : Nat))

def withToken (tgt token : CString) : CString :=
  tgt ++ ((if tgt = [] then [] else [32]) ++ token)

def addWord (tgtsize : Nat) (tgt token : CString) : CString × Int :=
  if token = [] then (tgt, -2)
  else if strContainsToken tgt token then (tgt, 0)
  else if tgtsize < tgt.length + (if tgt = [] then 0 else 1) + token.length + 1 then (tgt, -1)
  else
    let added := vsnprintfcat tgt tgtsize ((if tgt = [] then [] else [32]) ++ token)
    if added.2 < 0 then (added.1, -1) else (added.1, 1)

def addNext (tgtsize : Nat) (before : CString × Int) (word : CString) : CString × Int :=
  let (tgt, ret) := addWord tgtsize before.1 word
  (tgt, if before.2 = -2 ∨ ret < 0 ∨ (before.2 ≥ 0 ∧ ret ≥ before.2) then ret else before.2)

-- The loop over the bytes of a token with spaces; `word` is what stands between `s` and `p`.
def addSplit (tgtsize : Nat) (word : CString) : CString -> CString × Int -> CString × Int
  | [], before => if word = [] then before else addNext tgtsize before word
  | b :: rest, before =>
    if b = 32 then addSplit tgtsize [] rest (if word = [] then before else addNext tgtsize before word)
    else addSplit tgtsize (word ++ [b]) rest before

def addUniqueToken (tgt : CString) (tgtsize : Nat) (token : CString) : CString × Int :=
  if token = [] then (tgt, -2)
  else if strstr token (cstr " ") then addSplit tgtsize [] token (tgt, -2)
  else addWord tgtsize tgt token

section Loop

variable {tgtsize : Nat} {tgt token : CString}

theorem strstr_space (token : CString) : strstr token (cstr " ") = true ↔ 32 ∈ token := by
  have space : cstr " " = [32] := rfl
  rw [strstr, space]
  induction token with
  | nil => decide
  | cons b rest ih =>
    have tails : (b :: rest).tails = (b :: rest) :: rest.tails := rfl
    rw [tails, List.any_cons, Bool.or_eq_true, List.mem_cons]
    exact or_congr (by simp) ih

theorem addSplit_eq (word rest : CString) (before : CString × Int) : addSplit tgtsize word rest before =
      (((rest.splitOn 32).modifyHead (word ++ ·)).filter (· ≠ [])).foldl (addNext tgtsize) before := by
  have first (word : CString) (later : List CString) (before : CString × Int) :
      ((word :: later).filter (· ≠ [])).foldl (addNext tgtsize) before =
        (later.filter (· ≠ [])).foldl (addNext tgtsize) (if word = [] then before else addNext tgtsize before word) := by
    by_cases empty : word = [] <;> simp [empty]
  induction rest generalizing word before with
  | nil => simpa [addSplit] using (first word [] before).symm
  | cons b rest ih =>
    rw [addSplit, List.splitOn_cons_eq_if_modifyHead]
    by_cases space : b = 32
    · have whole : (rest.splitOn 32).modifyHead (([] : CString) ++ ·) = rest.splitOn 32 := by
        cases rest.splitOn 32 <;> rfl
      simp only [space, beq_self_eq_true, if_true]
      rw [ih, whole, List.modifyHead_cons, List.append_nil, first]
    · have other : (b == 32) = false := beq_eq_false_iff_ne.mpr space
      simp only [space, other, Bool.false_eq_true, if_false]
      rw [ih, List.modifyHead_modifyHead]
      congr 3
      funext piece
      simp

theorem addUniqueToken_spaces (spaces : 32 ∈ token) :
    addUniqueToken tgt tgtsize token = (strtok 32 token).foldl (addNext tgtsize) (tgt, -2) := by
  have whole : (token.splitOn 32).modifyHead (([] : CString) ++ ·) = token.splitOn 32 := by
    cases token.splitOn 32 <;> rfl
  rw [addUniqueToken, if_neg (List.ne_nil_of_mem spaces), if_pos ((strstr_space token).mpr spaces), addSplit_eq, whole]
  rfl

theorem addUniqueToken_spaceless (spaceless : 32 ∉ token) :
    addUniqueToken tgt tgtsize token = addWord tgtsize tgt token := by
  have none_ : ¬ strstr token (cstr " ") = true := fun found => spaceless ((strstr_space token).mp found)
  rw [addUniqueToken, if_neg none_]
  split
  next empty => rw [addWord, if_pos empty]
  next => rfl

end Loop

def addedWhole (tgt : CString) (tgtsize : Nat) (token : CString) : CString × Int :=
  if token = [] then (tgt, -2)
  else if token ∈ strtok 32 tgt then (tgt, 0)
  else if (withToken tgt token).length < tgtsize then (withToken tgt token, 1)
  else (tgt, -1)

structure AddsRight (tgt : CString) (tgtsize : Nat) (token : CString) : Prop where
  single : 32 ∉ token -> addUniqueToken tgt tgtsize token = addedWhole tgt tgtsize token
  words : 32 ∈ token -> (addUniqueToken tgt tgtsize token).1 =
    (strtok 32 token).foldl (fun tgt word => (addUniqueToken tgt tgtsize word).1) tgt

-- The new token fits, but it leaves no byte to spare, or no `int` holds the length.
def CutShort (tgt : CString) (tgtsize : Nat) (token : CString) : Prop :=
  32 ∉ token ∧ token ≠ [] ∧ token ∉ strtok 32 tgt ∧ (withToken tgt token).length < tgtsize ∧
    ((withToken tgt token).length + 1 = tgtsize ∨ intMax ≤ (withToken tgt token).length)

section Adding

variable {tgt token : CString} {tgtsize : Nat}

theorem withToken_length (tgt token : CString) :
    (withToken tgt token).length = tgt.length + (if tgt = [] then 0 else 1) + token.length := by
  rw [withToken, List.length_append, List.length_append]
  split
  · simp
  · simp only [List.length_cons, List.length_nil]
    omega

theorem snprintfcat_whole {text : CString} (some_ : text ≠ []) (fits : tgt.length + text.length < tgtsize) :
    snprintfcat tgt tgtsize text = tgt ++ text ↔ tgt.length + text.length + 1 ≠ tgtsize := by
  have positive := List.length_pos_iff.mpr some_
  constructor
  · intro whole exact_
    have room : ¬ tgt.length > tgtsize - 1 := by omega
    rw [snprintfcat, if_neg room] at whole
    have length := congrArg List.length (List.append_cancel_left whole)
    rw [List.length_take] at length
    omega
  · intro spare
    exact snprintfcat_fits (by omega)

theorem vsnprintfcat_iff {text : CString} (some_ : text ≠ []) (fits : (tgt ++ text).length < tgtsize) :
    (vsnprintfcat tgt tgtsize text).1 = tgt ++ text ∧ 0 ≤ (vsnprintfcat tgt tgtsize text).2 ↔
      ¬ ((tgt ++ text).length + 1 = tgtsize ∨ intMax ≤ (tgt ++ text).length) := by
  have room : ¬ tgt.length > tgtsize - 1 := by
    rw [List.length_append] at fits
    omega
  rw [List.length_append] at fits ⊢
  have whole := snprintfcat_whole some_ fits
  rw [vsnprintfcat, if_neg room]
  by_cases long : tgt.length + text.length ≥ intMax
  · rw [if_pos long]
    exact iff_of_false (fun both => absurd both.2 (show ¬ (0 : Int) ≤ -1 by decide)) fun spare => spare (Or.inr long)
  · rw [if_neg long, whole]
    simp only [Int.natCast_nonneg, and_true, not_or]
    exact ⟨fun spare => ⟨spare, long⟩, fun spare => spare.1⟩

theorem addWord_iff (some_ : token ≠ []) (spaceless : 32 ∉ token) :
    addWord tgtsize tgt token = addedWhole tgt tgtsize token ↔ ¬ CutShort tgt tgtsize token := by
  have fitTest : tgtsize < tgt.length + (if tgt = [] then 0 else 1) + token.length + 1 ↔
      ¬ (withToken tgt token).length < tgtsize := by
    rw [withToken_length]
    omega
  have contained := strContainsToken_iff some_ spaceless tgt
  rw [addWord, addedWhole, if_neg some_, if_neg some_]
  simp only [contained, fitTest]
  by_cases present : token ∈ strtok 32 tgt
  · rw [if_pos present, if_pos present]
    exact iff_of_true rfl fun cut => cut.2.2.1 present
  · rw [if_neg present, if_neg present]
    by_cases fits : (withToken tgt token).length < tgtsize
    · have appended : _ ↔ ¬ ((withToken tgt token).length + 1 = tgtsize ∨ intMax ≤ (withToken tgt token).length) :=
        vsnprintfcat_iff (show (if tgt = [] then [] else [32]) ++ token ≠ [] by simp [some_]) fits
      have cut : CutShort tgt tgtsize token ↔
          (withToken tgt token).length + 1 = tgtsize ∨ intMax ≤ (withToken tgt token).length :=
        ⟨fun cut => cut.2.2.2.2, fun short => ⟨spaceless, some_, present, fits, short⟩⟩
      rw [if_neg (not_not.mpr fits), if_pos fits, cut, <- appended]
      generalize vsnprintfcat tgt tgtsize ((if tgt = [] then [] else [32]) ++ token) = added
      by_cases failed : added.2 < 0
      · rw [if_pos failed]
        exact iff_of_false (by simp) fun both => absurd failed (Int.not_lt.mpr both.2)
      · rw [if_neg failed, withToken]
        simp [Int.not_lt.mp failed]
    · rw [if_pos fits, if_neg fits]
      exact iff_of_true rfl fun cut => fits cut.2.2.2.1

theorem foldl_addNext (words : List CString) (before : CString × Int) : (words.foldl (addNext tgtsize) before).1 =
      words.foldl (fun tgt word => (addWord tgtsize tgt word).1) before.1 := by
  induction words generalizing before with
  | nil => rfl
  | cons word rest ih => exact ih _

theorem addUniqueToken_words (spaces : 32 ∈ token) : (addUniqueToken tgt tgtsize token).1 =
      (strtok 32 token).foldl (fun tgt word => (addUniqueToken tgt tgtsize word).1) tgt := by
  have same (words : List CString) (spaceless : ∀ word ∈ words, 32 ∉ word) (tgt : CString) :
      words.foldl (fun tgt word => (addWord tgtsize tgt word).1) tgt =
        words.foldl (fun tgt word => (addUniqueToken tgt tgtsize word).1) tgt := by
    induction words generalizing tgt with
    | nil => rfl
    | cons word rest ih =>
      rw [List.foldl_cons, List.foldl_cons, addUniqueToken_spaceless (spaceless word List.mem_cons_self)]
      exact ih (fun other member => spaceless other (List.mem_cons_of_mem word member)) _
  rw [addUniqueToken_spaces spaces, foldl_addNext]
  exact same _ (fun word member => (strtok_spaceless 32 token word member).2) tgt

-- Tokens are added right, except where the last byte of the result is the last but one of the buffer.
theorem addUniqueToken_iff (tgt : CString) (tgtsize : Nat) (token : CString) :
    AddsRight tgt tgtsize token ↔ ¬ CutShort tgt tgtsize token := by
  have single (spaceless : 32 ∉ token) :
      addUniqueToken tgt tgtsize token = addedWhole tgt tgtsize token ↔ ¬ CutShort tgt tgtsize token := by
    rw [addUniqueToken_spaceless spaceless]
    by_cases empty : token = []
    · rw [addWord, addedWhole, if_pos empty, if_pos empty]
      exact iff_of_true rfl fun cut => cut.2.1 empty
    · exact addWord_iff empty spaceless
  constructor
  · intro right cut
    exact (single cut.1).mp (right.single cut.1) cut
  · intro uncut
    exact ⟨fun spaceless => (single spaceless).mpr uncut, addUniqueToken_words⟩

-- The buffer has room for six bytes and the NUL, and the token loses its last byte.
theorem addUniqueToken_cut : (cstr "OL").length < 7 ∧ addUniqueToken (cstr "OL") 7 (cstr "CHR") = (cstr "OL CH", 1) ∧
      ¬ AddsRight (cstr "OL") 7 (cstr "CHR") := by
  refine ⟨by decide, by decide +kernel, fun right => ?_⟩
  have whole := right.single (by decide)
  revert whole
  decide +kernel

end Adding

end Nut
