import Nut.Drivers.StatusTokens

set_option autoImplicit false

namespace Nut

theorem strtok_append_space (delimiter : UInt8) (front rest : CString) :
    strtok delimiter (front ++ delimiter :: rest) = strtok delimiter front ++ strtok delimiter rest := by
  simp [strtok, List.splitOn_append_cons_self]

def Spaced (text : CString) : Prop :=
  text = [] ∨ ∃ more, text = 32 :: more

theorem Spaced.take {text : CString} (spaced : Spaced text) (n : Nat) : Spaced (text.take n) := by
  rcases spaced with rfl | ⟨more, rfl⟩
  · exact Or.inl (by simp)
  · cases n with
    | zero => exact Or.inl rfl
    | succ n => exact Or.inr ⟨more.take n, rfl⟩

theorem Spaced.append {text rest : CString} (spaced : Spaced text) (more : Spaced rest) : Spaced (text ++ rest) := by
  rcases spaced with rfl | ⟨tail, rfl⟩
  · exact more
  · exact Or.inr ⟨tail ++ rest, rfl⟩

theorem strtok_spaced {front rest word : CString} (member : word ∈ strtok 32 front) (spaced : Spaced rest) :
    word ∈ strtok 32 (front ++ rest) := by
  rcases spaced with rfl | ⟨more, rfl⟩
  · simpa using member
  · rw [strtok_append_space]
    exact List.mem_append_left _ member

section Buffers

variable {tgt : CString} {tgtsize : Nat} {accept : CString -> Bool}

theorem snprintfcat_spaced (dst : CString) (size : Nat) {text : CString} (spaced : Spaced text) :
    ∃ more, snprintfcat dst size text = dst ++ more ∧ Spaced more := by
  unfold snprintfcat
  split
  · exact ⟨[], by simp, Or.inl rfl⟩
  · exact ⟨_, rfl, spaced.take _⟩

theorem addToken_spaced (some_ : tgt ≠ []) (token : CString) :
    ∃ more, (addToken tgtsize accept tgt token).1 = tgt ++ more ∧ Spaced more := by
  have kept : ∃ more, tgt = tgt ++ more ∧ Spaced more := ⟨[], by simp, Or.inl rfl⟩
  unfold addToken
  split
  · exact kept
  · split
    · exact kept
    · split
      · exact kept
      · exact snprintfcat_spaced tgt tgtsize (Or.inr ⟨token, rfl⟩)

theorem addEach_spaced (some_ : tgt ≠ []) (tokens : List CString) (retval : Int) :
    ∃ more, (tokens.foldl (addEach tgtsize accept) (tgt, retval)).1 = tgt ++ more ∧ Spaced more := by
  induction tokens generalizing tgt retval with
  | nil => exact ⟨[], by simp, Or.inl rfl⟩
  | cons token tokens ih =>
    obtain ⟨added, first, spaced⟩ := @addToken_spaced tgt tgtsize accept some_ token
    have more : tgt ++ added ≠ [] := by simp [some_]
    obtain ⟨others, rest, later⟩ := @ih (tgt ++ added) more (addEach tgtsize accept (tgt, retval) token).2
    refine ⟨added ++ others, ?_, spaced.append later⟩
    rw [List.foldl_cons, <- List.append_assoc, <- rest, <- first]
    rfl

theorem strAddUniqueToken_mem {word : CString} (single : strtok 32 word = [word]) (accepted : accept word = true)
    (fits : tgt.length + word.length + 2 < tgtsize) : word ∈ strtok 32 (strAddUniqueToken tgt tgtsize word accept).1 ∧
      (strAddUniqueToken tgt tgtsize word accept).1.length ≤ tgt.length + word.length + 1 := by
  have itself : word ∈ strtok 32 word := by simp [single]
  obtain ⟨some_, spaceless⟩ := strtok_spaceless 32 word word itself
  have sizes : ¬ tgtsize < tgt.length + (if tgt = [] then 0 else 1) + word.length + 1 := by
    split <;> omega
  rw [strAddUniqueToken, single]
  simp only [List.foldl_cons, List.foldl_nil, addEach, addToken, accepted, sizes, Bool.not_true, Bool.false_eq_true,
    if_false]
  split
  next present => exact ⟨(strContainsToken_iff some_ spaceless tgt).mp present, by dsimp only; omega⟩
  next absent =>
    by_cases empty : tgt = []
    · subst empty
      have whole : snprintfcat [] tgtsize ([] ++ word) = word := by
        apply snprintfcat_fits
        simp only [List.length_nil, List.nil_append] at fits ⊢
        omega
      simp only [if_true, whole]
      exact ⟨itself, by simp⟩
    · have whole : snprintfcat tgt tgtsize ([32] ++ word) = tgt ++ ([32] ++ word) := by
        apply snprintfcat_fits
        simp only [List.length_append, List.length_singleton]
        omega
      simp only [empty, if_false, whole]
      refine ⟨?_, by simp; omega⟩
      rw [List.singleton_append, strtok_append_space, single]
      simp

end Buffers

namespace Status

variable {s : Status}

def RoomForFsd (s : Status) : Prop :=
  s.statusBuf.length ≤ if s.alarmActive || s.alarmLegacyStatus then 245 else 250

instance (s : Status) : Decidable s.RoomForFsd :=
  inferInstanceAs (Decidable (_ ≤ _))

-- `FSD` stands so far in front in the buffer that it is published.
def CarriesFsd (s : Status) : Prop :=
  ∃ front rest, s.statusBuf = front ++ rest ∧ cstr "FSD" ∈ strtok 32 front ∧ Spaced rest ∧
    front.length ≤ if s.alarmActive || s.alarmLegacyStatus then 249 else 254

theorem statusSet_fsd (room : s.RoomForFsd) : (s.statusSet (cstr "FSD")).CarriesFsd := by
  have single : strtok 32 (cstr "FSD") = [cstr "FSD"] := by decide
  have accepted : statusAccepts s.ignorelb (cstr "FSD") = true := by
    cases s.ignorelb <;> decide
  have same : (s.statusSet (cstr "FSD")).alarmLegacyStatus = s.alarmLegacyStatus := by
    have plain : (strtok 32 (cstr "FSD")).any (fun token => isCommand token "ALARM") = false := by decide
    simp [statusSet, plain]
  have short : (cstr "FSD").length = 3 := rfl
  have small : s.statusBuf.length ≤ 250 := by
    unfold RoomForFsd at room
    split at room <;> omega
  obtain ⟨member, length⟩ := @strAddUniqueToken_mem s.statusBuf stMaxValueLen (statusAccepts s.ignorelb) _ single
    accepted (by rw [short]; simp only [stMaxValueLen]; omega)
  refine ⟨_, [], (List.append_nil _).symm, member, Or.inl rfl, ?_⟩
  change (strAddUniqueToken s.statusBuf stMaxValueLen (cstr "FSD") (statusAccepts s.ignorelb)).1.length ≤ _
  rw [same]
  change _ ≤ if s.alarmActive || s.alarmLegacyStatus then 249 else 254
  unfold RoomForFsd at room
  rw [short] at length
  split at room <;> simp_all <;> omega

theorem CarriesFsd.append (carries : s.CarriesFsd) {more : CString} (spaced : Spaced more) {s' : Status}
    (text : s'.statusBuf = s.statusBuf ++ more)
    (alarm : (s'.alarmActive || s'.alarmLegacyStatus) = (s.alarmActive || s.alarmLegacyStatus)) : s'.CarriesFsd := by
  obtain ⟨front, rest, buf, member, behind, short⟩ := carries
  refine ⟨front, rest ++ more, ?_, member, behind.append spaced, alarm ▸ short⟩
  rw [text, buf, List.append_assoc]

theorem CarriesFsd.nonempty (carries : s.CarriesFsd) : s.statusBuf ≠ [] := by
  obtain ⟨front, rest, buf, member, _⟩ := carries
  rintro empty
  obtain ⟨rfl, rfl⟩ := List.append_eq_nil_iff.mp (buf.symm.trans empty)
  revert member
  decide

theorem CarriesFsd.appendLB (carries : s.CarriesFsd) : s.appendLB.CarriesFsd := by
  unfold Status.appendLB
  split
  · obtain ⟨more, text, spaced⟩ :=
      snprintfcat_spaced s.statusBuf stMaxValueLen (show Spaced (cstr " LB") from Or.inr ⟨_, rfl⟩)
    exact carries.append spaced text rfl
  · exact carries

theorem CarriesFsd.addCharge (carries : s.CarriesFsd) (trend : Trend) : (s.addCharge trend).CarriesFsd := by
  unfold Status.addCharge
  split
  · split
    next word known =>
      obtain ⟨single, plain⟩ := chargeWord_plain (chargeWord_some known)
      obtain ⟨more, text, spaced⟩ := @addEach_spaced s.statusBuf stMaxValueLen (statusAccepts s.ignorelb)
        carries.nonempty (strtok 32 word) (-2)
      refine carries.append spaced text ?_
      simp [statusSet, single, plain]
    next => exact carries
  · exact carries

theorem CarriesFsd.text (carries : s.CarriesFsd) :
    strContainsToken (snprintf stMaxValueLen s.statusText) (cstr "FSD") = true := by
  have some_ := carries.nonempty
  obtain ⟨front, rest, buf, member, spaced, short⟩ := carries
  -- What is cut off stands behind the word.
  have cut {lead : CString} (inside : cstr "FSD" ∈ strtok 32 lead) (fits : lead.length ≤ stMaxValueLen - 1) :
      cstr "FSD" ∈ strtok 32 ((lead ++ rest).take (stMaxValueLen - 1)) := by
    rw [List.take_append, List.take_of_length_le fits]
    exact strtok_spaced inside (spaced.take _)
  rw [strContainsToken_iff (by decide) (by decide), snprintf, statusText]
  split
  next alarm =>
    rw [if_pos alarm] at short
    have lead : cstr "ALARM " ++ front = cstr "ALARM" ++ 32 :: front := rfl
    rw [buf, <- List.append_assoc]
    apply cut
    · rw [lead, strtok_append_space]
      exact List.mem_append_right _ member
    · have width : (cstr "ALARM ").length = 6 := rfl
      rw [List.length_append, width]
      simp only [stMaxValueLen]
      omega
  next plain =>
    rw [if_neg plain] at short
    rw [buf]
    exact cut member (by simp only [stMaxValueLen]; omega)

theorem CarriesFsd.statusCommit (carries : s.CarriesFsd) (now : Int) (trend : Trend) :
    (s.statusCommit now trend).CarriesFsd ∧ ∃ value, (s.statusCommit now trend).published = s.published ++ [value] ∧
        strContainsToken value (cstr "FSD") = true := by
  have whole := carries.appendLB.addCharge trend
  refine ⟨whole, _, ?_, whole.text⟩
  rw [Status.statusCommit, addCharge_published, appendLB_published]

end Status

end Nut
