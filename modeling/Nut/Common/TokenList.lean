import Mathlib.Data.List.Nodup
import Nut.Common.CString

set_option autoImplicit false

namespace Nut


def startsWithToken (token s : CString) : Bool :=
  token.isPrefixOf s && (s.drop token.length).head?.all (· == 32)

def findToken (token : CString) (atStart : Bool) : CString -> Bool
  | [] => false
  | b :: s => (atStart && startsWithToken token (b :: s)) || findToken token (b == 32) s

def strContainsToken (string token : CString) : Bool :=
  token ≠ [] && findToken token true string

def addToken (tgtsize : Nat) (accept : CString -> Bool) (tgt token : CString) : CString × Int :=
  if !accept token then (tgt, -3)
  else if strContainsToken tgt token then (tgt, 0)
  else if tgtsize < tgt.length + (if tgt = [] then 0 else 1) + token.length + 1 then (tgt, -1)
  else (snprintfcat tgt tgtsize ((if tgt = [] then [] else [32]) ++ token), 1)

def addEach (tgtsize : Nat) (accept : CString -> Bool) (before : CString × Int) (token : CString) : CString × Int :=
  let (tgt, ret) := addToken tgtsize accept before.1 token
  (tgt, if before.2 = -2 ∨ ret < 0 ∨ (before.2 ≥ 0 ∧ ret ≥ before.2) then ret else before.2)

def strAddUniqueToken (tgt : CString) (tgtsize : Nat) (token : CString) (accept : CString -> Bool) : CString × Int :=
  (strtok 32 token).foldl (addEach tgtsize accept) (tgt, -2)

section Splitting

variable {tokens : List CString}

theorem strtok_intercalate {delimiter : UInt8} (parts : ∀ token ∈ tokens, token ≠ [] ∧ delimiter ∉ token) :
    strtok delimiter ([delimiter].intercalate tokens) = tokens := by
  cases tokens with
  | nil => rfl
  | cons first rest =>
    have split := List.splitOn_intercalate delimiter (fun token member => (parts token member).2) (List.cons_ne_nil first rest)
    rw [strtok, split, List.filter_eq_self]
    intro token member
    simpa using (parts token member).1

theorem strtok_spaceless (delimiter : UInt8) (s : CString) :
    ∀ token ∈ strtok delimiter s, token ≠ [] ∧ delimiter ∉ token := by
  have pieces : ∀ piece ∈ s.splitOn delimiter, delimiter ∉ piece := by
    induction s with
    | nil => simp
    | cons b s ih =>
      intro piece member
      rw [List.splitOn_cons_eq_if_modifyHead] at member
      by_cases here : b = delimiter
      · rcases List.mem_cons.mp (by simpa [here] using member) with first | later
        · simp [first]
        · exact ih piece later
      · cases split : s.splitOn delimiter with
        | nil => exact absurd split (List.splitOn_ne_nil delimiter s)
        | cons head tail =>
          rw [split] at ih
          rcases List.mem_cons.mp (by simpa [here, split] using member) with first | later
          · have rest := ih head List.mem_cons_self
            simp [first, rest, Ne.symm here]
          · exact ih piece (List.mem_cons_of_mem _ later)
  intro token member
  obtain ⟨inside, some_⟩ := List.mem_filter.mp member
  exact ⟨by simpa using some_, pieces token inside⟩

theorem intercalate_cons_map {separator first : CString} (rest : List CString) :
    separator.intercalate (first :: rest) = first ++ (rest.map (separator ++ ·)).flatten := by
  induction rest generalizing first with
  | nil => simp
  | cons second rest ih =>
    rw [List.intercalate_cons_cons, ih, List.map_cons, List.flatten_cons]
    simp

theorem intercalate_dropLast {separator last : CString} (some_ : last ≠ []) (front : List CString) :
    (separator.intercalate (front ++ [last])).dropLast = separator.intercalate (front ++ [last.dropLast]) := by
  induction front with
  | nil => simp
  | cons first front ih =>
    have rest : separator.intercalate (front ++ [last]) ≠ [] := by
      cases front with
      | nil => simpa using some_
      | cons second front =>
        rw [List.cons_append, intercalate_cons_map, List.map_append, List.flatten_append]
        simp [some_]
    rw [List.cons_append, List.cons_append, List.intercalate_cons_of_ne_nil (by simp),
      List.intercalate_cons_of_ne_nil (by simp), List.dropLast_append_of_ne_nil rest, ih]

theorem intercalate_length {separator : CString} {width : Nat} (short : ∀ token ∈ tokens, token.length ≤ width) :
    (separator.intercalate tokens).length ≤ tokens.length * (width + separator.length) := by
  induction tokens with
  | nil => simp
  | cons first rest ih =>
    have own := short first List.mem_cons_self
    have later := ih fun token member => short token (List.mem_cons_of_mem _ member)
    rw [List.length_cons, Nat.succ_mul]
    cases rest with
    | nil => simp; omega
    | cons second rest =>
      rw [List.intercalate_cons_cons, List.length_append, List.length_append]
      omega

end Splitting

section Search

variable {token : CString}

theorem startsWithToken_iff (spaceless : 32 ∉ token) (s : CString) :
    startsWithToken token s = true ↔ (s.splitOn 32).head? = some token := by
  induction token generalizing s with
  | nil =>
    cases s with
    | nil => simp [startsWithToken]
    | cons b s =>
      rw [List.splitOn_cons_eq_if_modifyHead]
      by_cases space : b = 32
      · simp [startsWithToken, space]
      · cases pieces : s.splitOn 32 <;> simp [startsWithToken, space]
  | cons c token ih =>
    have apart : c ≠ 32 ∧ 32 ∉ token := by
      simp only [List.mem_cons, not_or] at spaceless
      exact ⟨fun same => spaceless.1 same.symm, spaceless.2⟩
    cases s with
    | nil => simp [startsWithToken]
    | cons b s =>
      rw [List.splitOn_cons_eq_if_modifyHead]
      by_cases space : b = 32
      · simp [startsWithToken, space, apart.1]
      · have rest := ih apart.2 s
        have some_ := List.splitOn_ne_nil 32 s
        cases pieces : s.splitOn 32 with
        | nil => exact absurd pieces some_
        | cons head tail =>
          rw [pieces] at rest
          simp only [startsWithToken, List.head?_cons, Option.some.injEq, Bool.and_eq_true] at rest
          simp only [startsWithToken, List.isPrefixOf_cons_cons, List.length_cons, List.drop_succ_cons, Bool.and_eq_true,
            beq_iff_eq, and_assoc, rest, space, if_false, List.modifyHead_cons, List.head?_cons, Option.some.injEq,
            List.cons.injEq]
          constructor
          · rintro ⟨same, tail_⟩
            exact ⟨same.symm, tail_⟩
          · rintro ⟨same, tail_⟩
            exact ⟨same.symm, tail_⟩

theorem findToken_iff (some_ : token ≠ []) (spaceless : 32 ∉ token) (atStart : Bool) (s : CString) :
    findToken token atStart s = true ↔ token ∈ if atStart then s.splitOn 32 else (s.splitOn 32).tail := by
  induction s generalizing atStart with
  | nil => cases atStart <;> simp [findToken, some_]
  | cons b s ih =>
    have first := startsWithToken_iff spaceless (b :: s)
    rw [List.splitOn_cons_eq_if_modifyHead] at first ⊢
    unfold findToken
    by_cases space : b = 32
    · have rest := ih true
      simp only [space, beq_self_eq_true, if_true, List.head?_cons, Option.some.injEq] at first rest ⊢
      cases atStart <;> simp [rest, first, some_, Ne.symm some_]
    · have rest := ih false
      have pieces := List.splitOn_ne_nil 32 s
      cases split : s.splitOn 32 with
      | nil => exact absurd split pieces
      | cons head tail =>
        rw [split] at first rest
        simp only [beq_eq_false_iff_ne.mpr space, Bool.false_eq_true, if_false, List.modifyHead_cons, List.head?_cons,
          Option.some.injEq, List.tail_cons] at first rest ⊢
        cases atStart with
        | false => simpa using rest
        | true => simp [first, rest, @eq_comm _ token]

theorem strContainsToken_iff (some_ : token ≠ []) (spaceless : 32 ∉ token) (s : CString) :
    strContainsToken s token = true ↔ token ∈ strtok 32 s := by
  have found := findToken_iff some_ spaceless true s
  simp only [if_true] at found
  simp [strContainsToken, strtok, some_, found]

end Search

structure Words where
  list : List CString
  spaceless : ∀ word ∈ list, word ≠ [] ∧ 32 ∉ word
  nodup : list.Nodup

namespace Words

def empty : Words :=
  ⟨[], by simp, List.nodup_nil⟩

def text (w : Words) : CString :=
  ([32] : CString).intercalate w.list

def insert (w : Words) (word : CString) : Words :=
  if new : (word ≠ [] ∧ 32 ∉ word) ∧ word ∉ w.list then
    { list := w.list ++ [word]
      spaceless := by
        intro other member
        rcases List.mem_append.mp member with earlier | last
        · exact w.spaceless other earlier
        · rw [List.mem_singleton.mp last]
          exact new.1
      nodup := List.nodup_append.mpr ⟨w.nodup, List.nodup_singleton word, fun other member last isLast same =>
        new.2 (List.mem_singleton.mp isLast ▸ same ▸ member)⟩ }
  else w

def insertAll (w : Words) (accept : CString -> Bool) (words : List CString) : Words :=
  words.foldl (fun w word => if accept word then w.insert word else w) w

variable {w : Words} {word : CString} {accept : CString -> Bool}

theorem text_nil : w.text = [] ↔ w.list = [] := by
  unfold text
  cases list : w.list with
  | nil => simp
  | cons first rest =>
    have some_ := (w.spaceless first (by simp [list])).1
    rw [intercalate_cons_map]
    simp [some_]

theorem strtok_text (w : Words) : strtok 32 w.text = w.list := strtok_intercalate w.spaceless

theorem contains_text (some_ : word ≠ []) (spaceless : 32 ∉ word) :
    strContainsToken w.text word = true ↔ word ∈ w.list := by
  rw [strContainsToken_iff some_ spaceless, strtok_text]

theorem insert_present (present : word ∈ w.list) : w.insert word = w := by
  rw [insert, dif_neg]
  exact fun new => new.2 present

theorem insert_list (some_ : word ≠ []) (spaceless : 32 ∉ word) (new : word ∉ w.list) :
    (w.insert word).list = w.list ++ [word] := by
  rw [insert, dif_pos ⟨⟨some_, spaceless⟩, new⟩]

theorem intercalate_append_one {separator last : CString} (front : List CString) :
    separator.intercalate (front ++ [last]) =
      separator.intercalate front ++ ((if front = [] then [] else separator) ++ last) := by
  cases front with
  | nil => simp
  | cons first rest =>
    rw [List.cons_append, intercalate_cons_map, intercalate_cons_map]
    simp

theorem insert_text (some_ : word ≠ []) (spaceless : 32 ∉ word) (new : word ∉ w.list) :
    (w.insert word).text = w.text ++ ((if w.text = [] then [] else [32]) ++ word) := by
  rw [text, insert_list some_ spaceless new, intercalate_append_one]
  simp only [text_nil]
  rfl

theorem insert_longer (w : Words) (word : CString) : w.text.length ≤ (w.insert word).text.length := by
  by_cases new : (word ≠ [] ∧ 32 ∉ word) ∧ word ∉ w.list
  · rw [insert_text new.1.1 new.1.2 new.2, List.length_append]
    omega
  · simp only [insert, dif_neg new, Nat.le_refl]

theorem insertAll_longer (w : Words) (accept : CString -> Bool) (words : List CString) :
    w.text.length ≤ (w.insertAll accept words).text.length := by
  unfold insertAll
  induction words generalizing w with
  | nil => exact Nat.le_refl _
  | cons word words ih =>
    rw [List.foldl_cons]
    refine Nat.le_trans ?_ (ih _)
    split
    · exact insert_longer w word
    · exact Nat.le_refl _

theorem addToken_text {tgtsize : Nat} (some_ : word ≠ []) (spaceless : 32 ∉ word)
    (fits : (if accept word then w.insert word else w).text.length + 1 < tgtsize) :
    (addToken tgtsize accept w.text word).1 = (if accept word then w.insert word else w).text := by
  unfold addToken
  by_cases accepted : accept word = true
  · simp only [accepted, if_true] at fits ⊢
    by_cases present : word ∈ w.list
    · rw [insert_present present]
      simp [(contains_text some_ spaceless).mpr present]
    · have absent : strContainsToken w.text word = false := by
        rw [Bool.eq_false_iff, ne_eq, contains_text some_ spaceless]
        exact present
      rw [insert_text some_ spaceless present] at fits ⊢
      have room := fits
      rw [List.length_append, List.length_append] at room
      have small : ¬ tgtsize < w.text.length + (if w.text = [] then 0 else 1) + word.length + 1 := by
        split at room <;> simp_all <;> omega
      simp only [absent, small, Bool.not_true, Bool.false_eq_true, if_false]
      apply snprintfcat_fits
      rw [List.length_append]
      omega
  · simp [accepted]

theorem addEach_text {tgtsize : Nat} {words : List CString} (spaceless : ∀ word ∈ words, word ≠ [] ∧ 32 ∉ word)
    (fits : (w.insertAll accept words).text.length + 1 < tgtsize) (retval : Int) :
    (words.foldl (addEach tgtsize accept) (w.text, retval)).1 = (w.insertAll accept words).text := by
  induction words generalizing w retval with
  | nil => rfl
  | cons word words ih =>
    obtain ⟨some_, apart⟩ := spaceless word List.mem_cons_self
    have later : ∀ word ∈ words, word ≠ [] ∧ 32 ∉ word :=
      fun word member => spaceless word (List.mem_cons_of_mem _ member)
    have longer := insertAll_longer (if accept word then w.insert word else w) accept words
    have whole : w.insertAll accept (word :: words) =
        (if accept word then w.insert word else w).insertAll accept words := rfl
    rw [whole] at fits ⊢
    have added := addToken_text some_ apart (Nat.lt_of_le_of_lt (Nat.add_le_add_right longer 1) fits)
    rw [List.foldl_cons]
    simp only [addEach, added]
    exact ih later fits _

theorem strAddUniqueToken_text {tgtsize : Nat} (token : CString)
    (fits : (w.insertAll accept (strtok 32 token)).text.length + 1 < tgtsize) :
    (strAddUniqueToken w.text tgtsize token accept).1 = (w.insertAll accept (strtok 32 token)).text :=
  addEach_text (strtok_spaceless 32 token) fits (-2)

end Words

end Nut
