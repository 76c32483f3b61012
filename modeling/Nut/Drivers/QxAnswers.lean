import Nut.Common.CString

set_option autoImplicit false

namespace Nut.Qx

abbrev AnswerArray : Type :=
  { bytes : List UInt8 // bytes.length < smallbuf }

def AnswerArray.text (answer : AnswerArray) (start : Nat) : CString :=
  (answer.val.drop start).takeWhile (· ≠ 0)

def AnswerArray.cleared : AnswerArray :=
  ⟨[], by decide⟩

-- The part of `item_t` that a reply goes through; `leading` is 0 for none.
structure Item where
  command : CString
  answer : AnswerArray
  answerLen : Nat
  leading : UInt8
  value : CString
  from_ : Nat
  to_ : Nat
  preprocessCommand : Option (CString -> Option CString)
  preprocessAnswer : Option (AnswerArray -> Nat -> Option (AnswerArray × Nat))

def strcspnCr (text : CString) : Nat :=
  (text.takeWhile (· ≠ 13)).length

def printString (precision : Int) (text : CString) : CString :=
  if precision < 0 then text else text.take precision.toNat

def Item.extract (item : Item) : CString :=
  if (item.answer.text 0).length ≠ 0 then
    snprintf smallbuf
      (printString (if item.to_ ≠ 0 then 1 + item.to_ - item.from_ else (strcspnCr (item.answer.text 0) : Int) - item.from_)
        (item.answer.text item.from_))
  else []

def processAnswer (rejected : Option CString) (item : Item) (len : Nat) : Int × Item :=
  if rejected.any fun rejected => strcasecmp (item.answer.text 0) rejected = .eq then (-1, item)
  else if item.answerLen ≠ 0 ∧ len < item.answerLen then (-1, item)
  else if item.leading ≠ 0 ∧ item.answer.val.getD 0 0 ≠ item.leading then (-1, item)
  else if item.to_ ≠ 0 ∧ item.to_ < item.from_ then (-1, item)
  else (0, { item with value := item.extract })

-- What `qx_command` has read for what was sent, or nothing where it failed; the rest of the buffer is still zero.
abbrev Device : Type :=
  CString -> Option AnswerArray

-- The answer that `qx_process` comes to and its length, the item otherwise.
def receive (device : Device) (item : Item) (command : Option CString) : Except Item (AnswerArray × Nat) :=
  let cmd := command.getD item.command
  match (item.preprocessCommand.map fun preprocess => preprocess cmd).getD (some cmd) with
  | none => .error item
  | some cmd =>
    match device cmd with
    | none => .error { item with answer := .cleared }
    | some answer =>
      match item.preprocessAnswer with
      | none => .ok (answer, answer.val.length)
      | some preprocess =>
        match preprocess answer answer.val.length with
        | none => .error { item with answer := .cleared }
        | some received => .ok received

def process (rejected : Option CString) (device : Device) (item : Item) (command : Option CString) : Int × Item :=
  match receive device item command with
  | .error item => (-1, item)
  | .ok (answer, len) => processAnswer rejected { item with answer := answer } len

section Fields

def field (reply : List UInt8) (from_ to_ : Nat) : CString :=
  if to_ = 0 then ((reply.takeWhile (· ≠ 13)).drop from_).takeWhile (· ≠ 0)
  else ((reply.take (to_ + 1)).drop from_).takeWhile (· ≠ 0)

structure Extracts (from_ to_ : Nat) (answer : AnswerArray) (len : Nat) (value : CString) : Prop where
  exact : value = (field (answer.val.take len) from_ to_).take (smallbuf - 1)
  beforeCr : ∀ cr, (answer.val.take len).idxOf? 13 = some cr -> value ≠ [] -> from_ + value.length ≤ cr + 1

def lineEnd (answer : AnswerArray) (len : Nat) : Nat :=
  ((answer.val.take len).takeWhile (· ≠ 13)).length

def Clear (from_ to_ : Nat) (answer : AnswerArray) (len : Nat) : Prop :=
  if answer.text 0 = [] then
    answer.text from_ = [] ∨ (if to_ = 0 then lineEnd answer len else min len (to_ + 1)) ≤ from_
  else if to_ ≠ 0 then
    answer.text from_ = [] ∨
      (to_ < len ∨ from_ + (answer.text from_).length ≤ len) ∧
        ∀ cr, (answer.val.take len).idxOf? 13 = some cr -> to_ ≤ cr ∨ from_ + (answer.text from_).length ≤ cr + 1
  else if from_ ≤ strcspnCr (answer.text 0) then strcspnCr (answer.text 0) ≤ len ∨ strcspnCr (answer.text 0) = from_
  else answer.text from_ = [] ∨ from_ + (answer.text from_).length ≤ lineEnd answer len

end Fields

section Lengths

variable {α : Type} (p q : α -> Bool) (l : List α)

theorem takeWhile_take (n : Nat) : (l.take n).takeWhile p = (l.takeWhile p).take n := by
  induction l generalizing n with
  | nil => simp
  | cons a l ih =>
    cases n with
    | zero => simp
    | succ n =>
      rw [List.take_succ_cons, List.takeWhile_cons, List.takeWhile_cons, ih]
      cases p a <;> simp

theorem takeWhile_both : ((l.takeWhile p).takeWhile q).length = min (l.takeWhile p).length (l.takeWhile q).length := by
  induction l with
  | nil => rfl
  | cons a l ih =>
    rw [List.takeWhile_cons, List.takeWhile_cons]
    cases p a
    · simp
    · rw [if_pos rfl, List.takeWhile_cons]
      cases q a
      · simp
      · simp only [if_true, List.length_cons, ih]
        omega

theorem takeWhile_drop {n : Nat} (within : n ≤ (l.takeWhile p).length) : (l.drop n).takeWhile p = (l.takeWhile p).drop n := by
  induction l generalizing n with
  | nil => simp
  | cons a l ih =>
    cases n with
    | zero => simp
    | succ n =>
      rw [List.takeWhile_cons] at within ⊢
      cases holds : p a with
      | false => simp [holds] at within
      | true =>
        rw [holds, if_pos rfl, List.length_cons] at within
        rw [if_pos rfl, List.drop_succ_cons, List.drop_succ_cons, ih (by omega)]

theorem idxOf_takeWhile (bytes : List UInt8) (b : UInt8) {i : Nat} (found : bytes.idxOf? b = some i) :
    (bytes.takeWhile (· ≠ b)).length = i := by
  induction bytes generalizing i with
  | nil => simp at found
  | cons c bytes ih =>
    rw [List.idxOf?_cons] at found
    by_cases same : c = b
    · simp_all
    · obtain ⟨j, later, rfl⟩ : ∃ j, bytes.idxOf? b = some j ∧ j + 1 = i := by simpa [same] using found
      simpa [same] using ih later

end Lengths

section Extracting

variable {item : Item} {answer : AnswerArray} {len : Nat}

theorem text_length (answer : AnswerArray) (start : Nat) : (answer.text start).length < smallbuf := by
  have suffix := (answer.val.drop_suffix start).length_le
  have shorter := (List.takeWhile_prefix (· ≠ (0 : UInt8)) (l := answer.val.drop start)).length_le
  rw [AnswerArray.text]
  omega

theorem take_takeWhile (answer : AnswerArray) (limit start : Nat) :
    ((answer.val.take limit).drop start).takeWhile (· ≠ 0) = (answer.text start).take (limit - start) := by
  rw [List.drop_take, takeWhile_take, AnswerArray.text]

def crAt (answer : AnswerArray) : Nat :=
  (answer.val.takeWhile (· ≠ 13)).length

theorem lineEnd_eq (answer : AnswerArray) (len : Nat) : lineEnd answer len = min len (crAt answer) := by
  rw [lineEnd, takeWhile_take, List.length_take, crAt]

theorem stop_eq (answer : AnswerArray) : strcspnCr (answer.text 0) = min (answer.text 0).length (crAt answer) := by
  rw [strcspnCr, AnswerArray.text, List.drop_zero, takeWhile_both, crAt]

theorem text_behind {start : Nat} (within : start ≤ (answer.text 0).length) :
    (answer.text start).length = (answer.text 0).length - start := by
  rw [AnswerArray.text, List.drop_zero] at within
  rw [AnswerArray.text, takeWhile_drop _ _ within, List.length_drop, AnswerArray.text, List.drop_zero]

theorem field_eq (answer : AnswerArray) (len from_ to_ : Nat) : field (answer.val.take len) from_ to_ =
      (answer.text from_).take ((if to_ = 0 then lineEnd answer len else min len (to_ + 1)) - from_) := by
  unfold field
  split
  · have whole : (answer.val.take len).takeWhile (· ≠ 13) = answer.val.take (lineEnd answer len) := by
      rw [takeWhile_take, lineEnd_eq, <- List.take_take, crAt]
      congr 1
      exact List.prefix_iff_eq_take.mp (List.takeWhile_prefix _)
    rw [whole, take_takeWhile]
  · rw [List.take_take, Nat.min_comm, take_takeWhile]

theorem cr_lineEnd {cr : Nat} (found : (answer.val.take len).idxOf? 13 = some cr) : lineEnd answer len = cr :=
  idxOf_takeWhile _ _ found

theorem extract_eq (item : Item) (ordered : item.to_ = 0 ∨ item.from_ ≤ item.to_) : item.extract =
      if item.answer.text 0 = [] then []
      else if item.to_ ≠ 0 then (item.answer.text item.from_).take (item.to_ + 1 - item.from_)
      else if item.from_ ≤ strcspnCr (item.answer.text 0) then
        (item.answer.text item.from_).take (strcspnCr (item.answer.text 0) - item.from_)
      else item.answer.text item.from_ := by
  have fits {n : Nat} : ((item.answer.text item.from_).take n).length < smallbuf :=
    Nat.lt_of_le_of_lt (List.length_take_le' _ _) (text_length _ _)
  unfold Item.extract
  by_cases empty : item.answer.text 0 = []
  · rw [if_pos empty, empty]
    rfl
  · rw [if_neg empty, if_pos (by simpa using empty)]
    by_cases limited : item.to_ ≠ 0
    · have precision : ¬ (1 + item.to_ - item.from_ : Int) < 0 := by omega
      rw [if_pos limited, if_pos limited, printString, if_neg precision, snprintf_fits fits]
      congr 1
      omega
    · rw [if_neg limited, if_neg limited, printString]
      by_cases before : item.from_ ≤ strcspnCr (item.answer.text 0)
      · rw [if_pos before, if_neg (by omega), snprintf_fits fits]
        congr 1
        omega
      · rw [if_neg before, if_pos (by omega), snprintf_fits (text_length _ _)]

theorem extract_iff (item : Item) (ordered : item.to_ = 0 ∨ item.from_ ≤ item.to_) (len : Nat) :
    Extracts item.from_ item.to_ item.answer len item.extract ↔ Clear item.from_ item.to_ item.answer len := by
  have size : ∀ n, ((item.answer.text item.from_).take n).take (smallbuf - 1) = (item.answer.text item.from_).take n := fun n =>
    List.take_of_length_le (Nat.le_sub_one_of_lt (Nat.lt_of_le_of_lt (List.length_take_le' _ _) (text_length _ _)))
  have iff_parts : Extracts item.from_ item.to_ item.answer len item.extract ↔
      item.extract = (item.answer.text item.from_).take
          ((if item.to_ = 0 then lineEnd item.answer len else min len (item.to_ + 1)) - item.from_) ∧
        ∀ cr, (item.answer.val.take len).idxOf? 13 = some cr -> item.extract ≠ [] ->
          item.from_ + item.extract.length ≤ cr + 1 := by
    rw [<- size, <- field_eq]
    exact ⟨fun extracts => ⟨extracts.exact, extracts.beforeCr⟩, fun both => ⟨both.1, both.2⟩⟩
  have ends := lineEnd_eq item.answer len
  have stops := stop_eq item.answer
  rw [iff_parts, extract_eq item ordered, Clear]
  by_cases empty : item.answer.text 0 = []
  · rw [if_pos empty, if_pos empty, eq_comm, List.take_eq_nil_iff, Nat.sub_eq_zero_iff_le]
    exact ⟨fun both => both.1.symm, fun clear => ⟨clear.symm, fun _ _ some_ => absurd rfl some_⟩⟩
  rw [if_neg empty, if_neg empty]
  by_cases limited : item.to_ ≠ 0
  · rw [if_pos limited, if_pos limited, if_neg limited, List.take_eq_take_iff, <- List.length_eq_zero_iff]
    have each (cr : Nat) : ((item.answer.text item.from_).take (item.to_ + 1 - item.from_) ≠ [] ->
          item.from_ + ((item.answer.text item.from_).take (item.to_ + 1 - item.from_)).length ≤ cr + 1) ↔
        (item.answer.text item.from_).length = 0 ∨ item.to_ ≤ cr ∨
          item.from_ + (item.answer.text item.from_).length ≤ cr + 1 := by
      rw [<- List.length_pos_iff, List.length_take]
      omega
    simp only [each]
    by_cases none_ : (item.answer.text item.from_).length = 0
    · simp [none_]
    · simp only [none_, false_or]
      exact and_congr_left' (by omega)
  · have open_ : item.to_ = 0 := by omega
    rw [if_neg limited, if_neg limited, if_pos open_]
    by_cases before : item.from_ ≤ strcspnCr (item.answer.text 0)
    · have behind := @text_behind item.answer item.from_ (by omega)
      rw [if_pos before, if_pos before, List.take_eq_take_iff]
      refine ⟨fun both => by omega, fun clear => ⟨by omega, fun cr found some_ => ?_⟩⟩
      have line := cr_lineEnd found
      rw [<- List.length_pos_iff, List.length_take] at some_
      rw [List.length_take]
      omega
    · have whole {n : Nat} : item.answer.text item.from_ = (item.answer.text item.from_).take n ↔
          (item.answer.text item.from_).length ≤ n :=
        ⟨fun same => same ▸ List.length_take_le _ _, fun short => (List.take_of_length_le short).symm⟩
      rw [if_neg before, if_neg before, whole, <- List.length_eq_zero_iff]
      refine ⟨fun ⟨same, _⟩ => by omega, fun clear => ⟨by omega, fun cr found some_ => ?_⟩⟩
      have line := cr_lineEnd found
      rw [<- List.length_pos_iff] at some_
      omega

theorem processAnswer_cases (rejected : Option CString) (item : Item) (len : Nat) :
    processAnswer rejected item len = (-1, item) ∨
      (processAnswer rejected item len = (0, { item with value := item.extract }) ∧ (item.to_ = 0 ∨ item.from_ ≤ item.to_)) := by
  unfold processAnswer
  split_ifs with rejects short wrong crossed
  · exact .inl rfl
  · exact .inl rfl
  · exact .inl rfl
  · exact .inl rfl
  · exact .inr ⟨rfl, by omega⟩

theorem receive_value {device : Device} {item left : Item} {command : Option CString}
    (failed : receive device item command = .error left) : left.value = item.value := by
  unfold receive at failed
  dsimp only at failed
  split at failed
  · cases failed
    rfl
  split at failed
  · cases failed
    rfl
  split at failed
  · cases failed
  split at failed
  · cases failed
    rfl
  · cases failed

end Extracting

-- A value that is taken is the field of what was received exactly if that is clear, and without one the old value is kept.
theorem process_iff (rejected : Option CString) (device : Device) (item : Item) (command : Option CString) :
    ((process rejected device item command).1 = 0 -> ∃ answer len, receive device item command = .ok (answer, len) ∧
        (Extracts item.from_ item.to_ answer len (process rejected device item command).2.value ↔
          Clear item.from_ item.to_ answer len)) ∧
      ((process rejected device item command).1 ≠ 0 -> (process rejected device item command).2.value = item.value) := by
  unfold process
  cases received : receive device item command with
  | error left => exact ⟨fun ret => (by decide : (-1 : Int) ≠ 0) ret |>.elim, fun _ => receive_value received⟩
  | ok result =>
    obtain ⟨answer, len⟩ := result
    dsimp only
    rcases processAnswer_cases rejected { item with answer := answer } len with failed | ⟨done, ordered⟩
    · rw [failed]
      exact ⟨fun ret => (by decide : (-1 : Int) ≠ 0) ret |>.elim, fun _ => rfl⟩
    · rw [done]
      exact ⟨fun _ => ⟨answer, len, rfl, extract_iff { item with answer := answer } ordered len⟩, fun ret => absurd rfl ret⟩

section Example

def voltageItem (from_ to_ : Nat) : Item :=
  { command := cstr "Q1", answer := .cleared, answerLen := 0, leading := 40, value := [], from_, to_
    preprocessCommand := none, preprocessAnswer := none }

def answering (answer : CString) (fits : answer.length < smallbuf) : Device :=
  fun _ => some ⟨answer, fits⟩

theorem process_voltage :
    (process none (answering (cstr "(230.0\x0d") (by decide)) (voltageItem 1 5) none).2.value = cstr "230.0" ∧
      Extracts 1 5 ⟨cstr "(230.0\x0d", by decide⟩ 7 (cstr "230.0") := by
  obtain ⟨answer, len, received, extracts⟩ :=
    (process_iff none (answering (cstr "(230.0\x0d") (by decide)) (voltageItem 1 5) none).1 rfl
  obtain ⟨rfl, rfl⟩ := Prod.mk.inj (Except.ok.inj received)
  refine ⟨rfl, extracts.mpr (.inr ⟨.inl (by decide), fun cr found => .inl ?_⟩)⟩
  obtain rfl : 6 = cr := Option.some.inj found
  decide

-- Where the line ends in front of the field, what is behind its CR is taken.
theorem process_behindCr : (process none (answering (cstr "(1\x0d(230.0") (by decide)) (voltageItem 4 0) none).1 = 0 ∧
      (process none (answering (cstr "(1\x0d(230.0") (by decide)) (voltageItem 4 0) none).2.value = cstr "230.0" ∧
        ¬ Extracts 4 0 ⟨cstr "(1\x0d(230.0", by decide⟩ 9 (cstr "230.0") := by
  refine ⟨rfl, rfl, fun extracts => ?_⟩
  exact absurd extracts.exact (by decide)

end Example

end Nut.Qx
