import Nut.Common.FormattingArgs

set_option autoImplicit false

namespace Nut

def minimizeWrites (buflen : Nat) : (b i : Nat) -> (escaped : Bool) -> CString -> List (UInt8 × Nat)
  | b, _, _, [] => [(0, b)]
  | b, i, escaped, 37 :: 37 :: fmt => if i < buflen then minimizeWrites buflen b i escaped fmt else [(0, b)]
  | b, i, escaped, p :: fmt =>
    if i < buflen then
      if p = 37 then (p, b) :: minimizeWrites buflen (b + 1) (i + 1) true fmt
      else if escaped then
        match inEscape p with
        | .copied => (p, b) :: minimizeWrites buflen (b + 1) (i + 1) true fmt
        | .converts as => (as, b) :: minimizeWrites buflen (b + 1) (i + 1) false fmt
        | .skipped => minimizeWrites buflen b i true fmt
      else minimizeWrites buflen b i false fmt
    else [(0, b)]

-- NULL without writing anything, or `buf`.
def minimizeInto (buf : List UInt8) (fmt : CString) : Option (List (UInt8 × Nat)) :=
  if buf.length = 0 then none else some (minimizeWrites buf.length 0 0 false fmt)

def written (buf : List UInt8) (writes : List (UInt8 × Nat)) : List UInt8 :=
  writes.foldl (fun buf write => buf.set write.2 write.1) buf

def significant (escaped : Bool) : CString -> CString
  | [] => []
  | 37 :: 37 :: fmt => significant escaped fmt
  | p :: fmt =>
    if p = 37 then p :: significant true fmt
    else if escaped then
      match inEscape p with
      | .copied => p :: significant true fmt
      | .converts _ => p :: significant false fmt
      | .skipped => significant true fmt
    else significant false fmt

def collapse (p : UInt8) : UInt8 :=
  match inEscape p with
  | .converts as => as
  | _ => p

-- Only the array is written to, what it holds ends within it, and it is all of the minimised form where the format is shorter than
-- the array.
def StaysInBuffer (buf : List UInt8) (fmt : CString) : Prop :=
  ∃ writes, minimizeInto buf fmt = some writes ∧ (∀ write ∈ writes, write.2 < buf.length) ∧ 0 ∈ written buf writes ∧
    (fmt.length < buf.length -> (written buf writes).takeWhile (· ≠ 0) = (significant false fmt).map collapse)

section Forms

theorem bareBone_significant (escaped : Bool) (fmt : CString) :
    bareBone escaped fmt = (significant escaped fmt).map collapse := by
  fun_induction significant escaped fmt with
  | case1 => rfl
  | case2 escaped fmt ih => exact ih
  | case3 escaped fmt pair ih =>
    rw [bareBone.eq_3 _ _ _ pair, if_pos rfl, ih, List.map_cons]
    rfl
  | case4 p fmt pair plain kind ih =>
    rw [bareBone.eq_3 _ _ _ pair, if_neg plain, if_pos rfl, kind, List.map_cons, collapse, kind]
    exact congrArg _ ih
  | case5 p fmt pair plain as kind ih =>
    rw [bareBone.eq_3 _ _ _ pair, if_neg plain, if_pos rfl, kind, List.map_cons, collapse, kind]
    exact congrArg _ ih
  | case6 p fmt pair plain kind ih =>
    rw [bareBone.eq_3 _ _ _ pair, if_neg plain, if_pos rfl, kind]
    exact ih
  | case7 escaped p fmt pair plain outside ih =>
    rw [bareBone.eq_3 _ _ _ pair, if_neg plain, if_neg outside]
    exact ih

theorem minimizeLoop_full (escaped : Bool) (fmt : CString) : minimizeLoop 0 escaped fmt = [] := by
  fun_cases significant escaped fmt with
  | case1 => rfl
  | case2 => rw [minimizeLoop, if_pos rfl]
  | _ => rw [minimizeLoop.eq_3 _ _ _ _ (by assumption), if_pos rfl]

theorem minimizeLoop_take (room : Nat) (escaped : Bool) (fmt : CString) :
    minimizeLoop room escaped fmt = (bareBone escaped fmt).take room := by
  fun_induction bareBone escaped fmt generalizing room with
  | case1 => rw [minimizeLoop, List.take_nil]
  | case2 escaped fmt ih =>
    cases room with
    | zero => rw [minimizeLoop_full, List.take_zero]
    | succ room =>
      rw [minimizeLoop, if_neg (Nat.succ_ne_zero room)]
      exact ih (room + 1)
  | case3 escaped fmt pair ih =>
    cases room with
    | zero => rw [minimizeLoop_full, List.take_zero]
    | succ room =>
      rw [minimizeLoop.eq_3 _ _ _ _ pair, if_neg (Nat.succ_ne_zero room), if_pos rfl, List.take_succ_cons]
      exact congrArg _ (ih room)
  | case4 p fmt pair plain kind ih =>
    cases room with
    | zero => rw [minimizeLoop_full, List.take_zero]
    | succ room =>
      rw [minimizeLoop.eq_3 _ _ _ _ pair, if_neg (Nat.succ_ne_zero room), if_neg plain, if_pos rfl, kind, List.take_succ_cons]
      exact congrArg _ (ih room)
  | case5 p fmt pair plain as kind ih =>
    cases room with
    | zero => rw [minimizeLoop_full, List.take_zero]
    | succ room =>
      rw [minimizeLoop.eq_3 _ _ _ _ pair, if_neg (Nat.succ_ne_zero room), if_neg plain, if_pos rfl, kind, List.take_succ_cons]
      exact congrArg _ (ih room)
  | case6 p fmt pair plain kind ih =>
    cases room with
    | zero => rw [minimizeLoop_full, List.take_zero]
    | succ room =>
      rw [minimizeLoop.eq_3 _ _ _ _ pair, if_neg (Nat.succ_ne_zero room), if_neg plain, if_pos rfl, kind]
      exact ih (room + 1)
  | case7 escaped p fmt pair plain outside ih =>
    cases room with
    | zero => rw [minimizeLoop_full, List.take_zero]
    | succ room =>
      rw [minimizeLoop.eq_3 _ _ _ _ pair, if_neg (Nat.succ_ne_zero room), if_neg plain, if_neg outside]
      exact ih (room + 1)

theorem minimizeWrites_loop {buflen : Nat} (i : Nat) (escaped : Bool) (fmt : CString) :
    minimizeWrites buflen i i escaped fmt = (minimizeLoop (buflen - i) escaped fmt ++ [0]).zipIdx i := by
  fun_induction significant escaped fmt generalizing i with
  | case1 => rfl
  | case2 escaped fmt ih =>
    rw [minimizeWrites, minimizeLoop]
    split
    next goes =>
      rw [if_neg (Nat.sub_ne_zero_of_lt goes)]
      exact ih i
    next full =>
      rw [if_pos (Nat.sub_eq_zero_of_le (Nat.not_lt.mp full))]
      rfl
  | case3 escaped fmt pair ih =>
    rw [minimizeWrites.eq_3 _ _ _ _ _ _ pair, minimizeLoop.eq_3 _ _ _ _ pair]
    split
    next goes =>
      rw [if_neg (Nat.sub_ne_zero_of_lt goes), if_pos rfl, if_pos rfl]
      exact congrArg _ (ih (i + 1))
    next full =>
      rw [if_pos (Nat.sub_eq_zero_of_le (Nat.not_lt.mp full))]
      rfl
  | case4 p fmt pair plain kind ih =>
    rw [minimizeWrites.eq_3 _ _ _ _ _ _ pair, minimizeLoop.eq_3 _ _ _ _ pair]
    split
    next goes =>
      rw [if_neg (Nat.sub_ne_zero_of_lt goes), if_pos rfl, if_pos rfl, kind]
      exact congrArg _ (ih (i + 1))
    next full =>
      rw [if_pos (Nat.sub_eq_zero_of_le (Nat.not_lt.mp full))]
      rfl
  | case5 p fmt pair plain as kind ih =>
    rw [minimizeWrites.eq_3 _ _ _ _ _ _ pair, minimizeLoop.eq_3 _ _ _ _ pair]
    split
    next goes =>
      rw [if_neg (Nat.sub_ne_zero_of_lt goes), if_pos rfl, if_pos rfl, kind]
      exact congrArg _ (ih (i + 1))
    next full =>
      rw [if_pos (Nat.sub_eq_zero_of_le (Nat.not_lt.mp full))]
      rfl
  | case6 p fmt pair plain kind ih =>
    rw [minimizeWrites.eq_3 _ _ _ _ _ _ pair, minimizeLoop.eq_3 _ _ _ _ pair]
    split
    next goes =>
      rw [if_neg (Nat.sub_ne_zero_of_lt goes), if_pos rfl, if_pos rfl, kind]
      exact ih i
    next full =>
      rw [if_pos (Nat.sub_eq_zero_of_le (Nat.not_lt.mp full))]
      rfl
  | case7 escaped p fmt pair plain outside ih =>
    rw [minimizeWrites.eq_3 _ _ _ _ _ _ pair, minimizeLoop.eq_3 _ _ _ _ pair]
    split
    next goes =>
      rw [if_neg (Nat.sub_ne_zero_of_lt goes)]
      exact ih i
    next full =>
      rw [if_pos (Nat.sub_eq_zero_of_le (Nat.not_lt.mp full))]
      rfl

theorem inEscape_nonzero {p as : UInt8} (converts : inEscape p = .converts as) (some_ : p ≠ 0) : as ≠ 0 := by
  unfold inEscape at converts
  split at converts <;> cases converts <;> first | exact some_ | decide

theorem collapse_nonzero {p : UInt8} (some_ : p ≠ 0) : collapse p ≠ 0 := by
  unfold collapse
  split
  next as converts => exact inEscape_nonzero converts some_
  next => exact some_

theorem significant_nonzero (escaped : Bool) (fmt : CString) : ∀ p ∈ significant escaped fmt, p ≠ 0 := by
  have none_ : inEscape 0 = .skipped := rfl
  fun_induction significant escaped fmt with
  | case1 => simp
  | case2 escaped fmt ih => exact ih
  | case3 escaped fmt pair ih => exact List.forall_mem_cons.mpr ⟨by decide, ih⟩
  | case4 p fmt pair plain kind ih =>
    refine List.forall_mem_cons.mpr ⟨?_, ih⟩
    rintro rfl
    rw [none_] at kind
    cases kind
  | case5 p fmt pair plain as kind ih =>
    refine List.forall_mem_cons.mpr ⟨?_, ih⟩
    rintro rfl
    rw [none_] at kind
    cases kind
  | case6 p fmt pair plain kind ih => exact ih
  | case7 escaped p fmt pair plain outside ih => exact ih

theorem form_nonzero (fmt : CString) : ∀ p ∈ (significant false fmt).map collapse, p ≠ 0 := by
  intro p member
  obtain ⟨old, inside, rfl⟩ := List.mem_map.mp member
  exact collapse_nonzero (significant_nonzero false fmt old inside)

end Forms

section Buffers

variable {buf : List UInt8}

theorem written_zipIdx {bytes : List UInt8} {i : Nat} (fits : i + bytes.length ≤ buf.length) :
    written buf (bytes.zipIdx i) = buf.take i ++ bytes ++ buf.drop (i + bytes.length) := by
  induction bytes generalizing i buf with
  | nil => simp [written]
  | cons b bytes ih =>
    rw [List.length_cons] at fits
    have later := @ih (buf.set i b) (i + 1) (by rw [List.length_set]; omega)
    have first : (buf.set i b).take (i + 1) = buf.take i ++ [b] := by
      rw [List.take_add_one, List.take_set_of_le (Nat.le_refl i), List.getElem?_set_self (by omega)]
      rfl
    have rest : (buf.set i b).drop (i + 1 + bytes.length) = buf.drop (i + (bytes.length + 1)) := by
      rw [List.drop_set_of_lt (by omega)]
      congr 1
      omega
    rw [List.zipIdx_cons, List.length_cons, <- rest]
    refine Eq.trans later ?_
    rw [first, List.append_assoc, List.append_assoc, List.append_assoc]
    rfl

theorem minimizeInto_eq (some_ : 0 < buf.length) (fmt : CString) :
    minimizeInto buf fmt = some ((((significant false fmt).map collapse).take buf.length ++ [0]).zipIdx) := by
  rw [minimizeInto, if_neg (Nat.ne_of_gt some_), minimizeWrites_loop, minimizeLoop_take, bareBone_significant]
  rfl

theorem minimize_fits {fmt : CString} (fits : (significant false fmt).length < buf.length) : StaysInBuffer buf fmt := by
  have nonzero := form_nonzero fmt
  rw [<- List.length_map collapse] at fits
  unfold StaysInBuffer
  rw [minimizeInto_eq (Nat.zero_lt_of_lt fits)]
  generalize (significant false fmt).map collapse = form at nonzero fits ⊢
  have whole : form.take buf.length = form := List.take_of_length_le (Nat.le_of_lt fits)
  have stored : written buf ((form ++ [0]).zipIdx) = form ++ 0 :: buf.drop (form.length + 1) := by
    rw [written_zipIdx (by rw [List.length_append, List.length_singleton]; omega)]
    simp
  rw [whole]
  refine ⟨_, rfl, ?_, ?_, fun _ => ?_⟩
  · intro write member
    have place := List.snd_lt_of_mem_zipIdx member
    rw [List.length_append, List.length_singleton] at place
    omega
  · rw [stored]
    simp
  · rw [stored, List.takeWhile_append_of_pos (by simpa using nonzero), List.takeWhile_cons_of_neg (by simp), List.append_nil]

-- The minimised form and its NUL have to fit.
theorem minimize_inside_iff (some_ : 0 < buf.length) (fmt : CString) :
    StaysInBuffer buf fmt ↔ (significant false fmt).length < buf.length := by
  refine ⟨?_, minimize_fits⟩
  rintro ⟨writes, made, within, -⟩
  rw [minimizeInto_eq some_, Option.some.injEq] at made
  have last := within (0, (((significant false fmt).map collapse).take buf.length).length) (by simp [<- made, List.zipIdx_append])
  rw [List.length_take, List.length_map] at last
  dsimp only at last
  omega

theorem minimize_inside_sample : StaysInBuffer (List.replicate 5 0) (cstr "%5d%%: %s") :=
  (minimize_inside_iff (by decide) _).mpr (by decide)

theorem minimize_outside : ¬ StaysInBuffer [0, 0] (cstr "%d") := by
  rintro ⟨writes, made, within, -⟩
  cases made
  exact absurd (within (0, 2) (by decide)) (by decide)

end Buffers

end Nut
