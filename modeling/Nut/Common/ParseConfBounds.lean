import Nut.Library.Checked
import Nut.Common.ParseConfEncode

set_option autoImplicit false

namespace Nut

def encodeInto (maxlen : Nat) : CString -> List UInt8 -> Nat -> Checked (List UInt8)
  | [], dest, _ => .ok dest
  | b :: src, dest, destlen =>
    if pconfEscape b then
      -- if they both won't fit, we're done
      if destlen ≥ sizePred maxlen then .ok dest
      else do
        let dest <- writeAt dest destlen 92
        if destlen + 1 ≥ maxlen then .ok dest
        else do
          let dest <- writeAt dest (destlen + 1) b
          encodeInto maxlen src dest (destlen + 2)
    else if destlen ≥ maxlen then .ok dest
    else do
      let dest <- writeAt dest destlen b
      encodeInto maxlen src dest (destlen + 1)

def pconfEncodeInto (src : CString) (memory : List UInt8) (destsize : Nat) : Checked (List UInt8) :=
  if destsize < 1 then .ok memory
  else do
    let dest <- overwrite memory (List.replicate destsize 0)
    encodeInto (destsize - 1) src dest 0

theorem pconfEncodeLoop_longer (maxlen : Nat) (src dest : CString) :
    dest.length ≤ (pconfEncodeLoop maxlen src dest).length := by
  induction src generalizing dest with
  | nil => exact Nat.le_refl _
  | cons b src ih =>
    simp only [pconfEncodeLoop]
    split_ifs
    · exact Nat.le_refl _
    · simp
    · exact Nat.le_trans (by simp) (ih (dest ++ [92, b]))
    · exact Nat.le_refl _
    · exact Nat.le_trans (by simp) (ih (dest ++ [b]))

-- One byte more than `maxlen` is there, so the odd backslash of `maxlen = 0` has its place too.
theorem encodeInto_eq {maxlen : Nat} (src text rest : CString) (room : text.length ≤ maxlen)
    (fits : maxlen < text.length + rest.length) : encodeInto maxlen src (text ++ rest) text.length =
      .ok (pconfEncodeLoop maxlen src text ++ rest.drop ((pconfEncodeLoop maxlen src text).length - text.length)) := by
  induction src generalizing text rest with
  | nil => simp [encodeInto, pconfEncodeLoop]
  | cons b src ih =>
    obtain ⟨old, rest, rfl⟩ : ∃ old rest', rest = old :: rest' := List.exists_cons_of_length_pos (by omega)
    rw [List.length_cons] at fits
    by_cases special : pconfEscape b = true
    · simp only [encodeInto, pconfEncodeLoop, special, if_true, writeAt_behind, ok_bind]
      by_cases full : text.length ≥ sizePred maxlen
      · simp [full]
      · by_cases last : text.length + 1 ≥ maxlen
        · simp [full, last]
        · obtain ⟨old', rest, rfl⟩ : ∃ old' rest', rest = old' :: rest' :=
            List.exists_cons_of_length_pos (by omega)
          rw [List.length_cons] at fits
          have longer := pconfEncodeLoop_longer maxlen src (text ++ [92, b])
          have second := writeAt_behind (text ++ [92]) old' b rest
          have next := ih (text ++ [92, b]) rest (by simp; omega) (by simp; omega)
          simp only [List.append_assoc, List.cons_append, List.nil_append, List.length_append, List.length_cons,
            List.length_nil, Nat.zero_add, Nat.reduceAdd] at second next longer
          simp only [full, last, if_false, second, ok_bind, next]
          have count : (pconfEncodeLoop maxlen src (text ++ [92, b])).length - text.length =
              (pconfEncodeLoop maxlen src (text ++ [92, b])).length - (text.length + 2) + 2 := by omega
          rw [count]
          rfl
    · simp only [encodeInto, pconfEncodeLoop, special, if_false, Bool.false_eq_true, writeAt_behind, ok_bind]
      by_cases full : text.length ≥ maxlen
      · simp [full]
      · have longer := pconfEncodeLoop_longer maxlen src (text ++ [b])
        have next := ih (text ++ [b]) rest (by simp; omega) (by simp; omega)
        simp only [List.append_assoc, List.cons_append, List.nil_append, List.length_append, List.length_cons,
          List.length_nil, Nat.zero_add] at next longer
        simp only [full, if_false, next]
        have count : (pconfEncodeLoop maxlen src (text ++ [b])).length - text.length =
            (pconfEncodeLoop maxlen src (text ++ [b])).length - (text.length + 1) + 1 := by omega
        rw [count]
        rfl

-- What `destsize = 1` leaves no room for: a backslash, and then the NUL behind it.
def LoneEscape (src : CString) (destsize : Nat) : Prop :=
  destsize = 1 ∧ src.head?.any pconfEscape = true

instance (src : CString) (destsize : Nat) : Decidable (LoneEscape src destsize) :=
  inferInstanceAs (Decidable (_ ∧ _))

theorem pconfEncode_lone {src : CString} {destsize : Nat} (lone : LoneEscape src destsize) :
    pconfEncode src [] destsize = [92] := by
  obtain ⟨rfl, escaped⟩ := lone
  cases src with
  | nil => simp at escaped
  | cons b src =>
    have special : pconfEscape b = true := by simpa using escaped
    simp [pconfEncode, pconfEncodeLoop, special, sizePred, sizeMax]

theorem pconfEncode_shorter {src : CString} {destsize : Nat} (room : 1 ≤ destsize) (other : ¬ LoneEscape src destsize) :
    (pconfEncode src [] destsize).length < destsize := by
  obtain rfl | large : destsize = 1 ∨ 2 ≤ destsize := by omega
  · cases src with
    | nil => simp [pconfEncode, pconfEncodeLoop]
    | cons b src =>
      have plain : ¬ pconfEscape b = true := fun special => other ⟨rfl, by simpa using special⟩
      simp [pconfEncode, pconfEncodeLoop, plain]
  · have fits := pconfEncode_length large src []
    omega

theorem pconfEncode_fits (src : CString) {destsize : Nat} (room : 1 ≤ destsize) :
    (pconfEncode src [] destsize).length ≤ destsize := by
  by_cases lone : LoneEscape src destsize
  · rw [pconfEncode_lone lone, lone.1]
    exact Nat.le_refl _
  · exact Nat.le_of_lt (pconfEncode_shorter room lone)

theorem pconfEncodeInto_eq (src : CString) {memory : List UInt8} {destsize : Nat} (room : 1 ≤ destsize)
    (there : destsize ≤ memory.length) : pconfEncodeInto src memory destsize = .ok (pconfEncode src [] destsize ++
        (List.replicate (destsize - (pconfEncode src [] destsize).length) 0 ++ memory.drop destsize)) := by
  have zeros : (List.replicate destsize (0 : UInt8)).length = destsize := List.length_replicate
  have cleared : overwrite memory (List.replicate destsize 0) =
      .ok (List.replicate destsize 0 ++ memory.drop destsize) := by
    rw [overwrite_fits (by rw [zeros]; exact there), zeros]
  have short := pconfEncode_fits src room
  have loop := encodeInto_eq src [] (List.replicate destsize 0 ++ memory.drop destsize)
    (Nat.zero_le (destsize - 1)) (by simp; omega)
  simp only [pconfEncodeInto, pconfEncode, if_neg (show ¬ destsize < 1 by omega)] at short ⊢
  rw [cleared, ok_bind]
  refine loop.trans ?_
  rw [List.length_nil, Nat.sub_zero, List.drop_append_of_le_length (by rw [zeros]; exact short), List.drop_replicate]

-- Nothing is written out of `destsize` bytes, and one of them is a NUL afterwards.
def EncodedSafely (src : CString) (memory : List UInt8) (destsize : Nat) : Prop :=
  ∃ after, pconfEncodeInto src memory destsize = .ok after ∧ after.drop destsize = memory.drop destsize ∧
    ∃ i < destsize, after[i]? = some 0

-- The writes stay in the buffer for every source; a NUL stays unless its only byte takes a backslash.
theorem encodedSafely_iff (src : CString) {memory : List UInt8} {destsize : Nat} (room : 1 ≤ destsize)
    (there : destsize ≤ memory.length) :
    (∃ after, pconfEncodeInto src memory destsize = .ok after ∧ after.drop destsize = memory.drop destsize) ∧
    (EncodedSafely src memory destsize ↔ ¬ LoneEscape src destsize) := by
  have made := pconfEncodeInto_eq src room there
  have fits := pconfEncode_fits src room
  have behind : (pconfEncode src [] destsize ++
      (List.replicate (destsize - (pconfEncode src [] destsize).length) 0 ++ memory.drop destsize)).drop destsize =
        memory.drop destsize := by
    rw [<- List.append_assoc, List.drop_left']
    simp
    omega
  refine ⟨⟨_, made, behind⟩, ?_, ?_⟩
  · rintro ⟨after, done, _, i, inside, zero⟩ lone
    rw [made, pconfEncode_lone lone] at done
    obtain rfl : i = 0 := by
      have := lone.1
      omega
    cases done
    simp at zero
  · intro other
    have short := pconfEncode_shorter room other
    refine ⟨_, made, behind, (pconfEncode src [] destsize).length, short, ?_⟩
    have left : 0 < destsize - (pconfEncode src [] destsize).length := by omega
    rw [List.getElem?_append_right (Nat.le_refl _), Nat.sub_self, List.getElem?_append_left (by simpa using left)]
    simp [left]

theorem encodedSafely_short : (∃ after, pconfEncodeInto (cstr "a#b") [7, 7, 7, 7] 3 = .ok after ∧ after.drop 3 = [7]) ∧
    (EncodedSafely (cstr "a#b") [7, 7, 7, 7] 3 ↔ ¬ LoneEscape (cstr "a#b") 3) :=
  encodedSafely_iff (cstr "a#b") (by decide) (by decide)

theorem not_encodedSafely : pconfEncodeInto (cstr "#") [0] 1 = .ok [92] ∧ ¬ EncodedSafely (cstr "#") [0] 1 := by
  have done : pconfEncodeInto (cstr "#") [0] 1 = .ok [92] := by decide
  refine ⟨done, ?_⟩
  rintro ⟨after, same, _, i, inside, zero⟩
  obtain rfl : i = 0 := by omega
  rw [done] at same
  cases same
  simp at zero

end Nut
