import Nut.Common.Str

set_option autoImplicit false

namespace Nut

inductive NutwStatus where
  | ok
  | error
  deriving DecidableEq, Repr

-- What has been put into the stream, in so many calls of `putString`.
structure NutWriter where
  written : CString
  calls : Nat
  deriving DecidableEq, Repr

def eol : CString := [10]

namespace NutWriter

variable (puts : Nat -> Bool)

def write (str : CString) (writer : NutWriter) : NutwStatus × NutWriter :=
  if puts writer.calls then (.ok, { written := writer.written ++ str, calls := writer.calls + 1 })
  else (.error, { writer with calls := writer.calls + 1 })

-- `substr` is given a position where it takes a length.
def writeLinesFrom (str pref : CString) (pos : Nat) (writer : NutWriter) : NutwStatus × NutWriter :=
  if pos < str.length then
    match writer.write puts pref with
    | (.error, writer) => (.error, writer)
    | (.ok, writer) =>
      match _found : strchrFrom str pos 10 with
      | none => writer.write puts (str.drop pos ++ eol)
      | some at_ =>
        let eolPos := at_ + eol.length
        match writer.write puts ((str.drop pos).take eolPos) with
        | (.error, writer) => (.error, writer)
        | (.ok, writer) => writeLinesFrom str pref eolPos writer
  else (.ok, writer)
termination_by str.length - pos
decreasing_by
  have behind := (strchrFrom_some _found).1
  simp only [eol, List.length_singleton]
  omega

def writeEachLine (str pref : CString) (writer : NutWriter) : NutwStatus × NutWriter :=
  writer.writeLinesFrom puts str pref 0

def writeComment (str : CString) (writer : NutWriter) : NutwStatus × NutWriter :=
  writer.writeEachLine puts str (cstr "# ")

end NutWriter

def textLines : CString -> List CString
  | [] => []
  | c :: rest =>
    if c = 10 then [] :: textLines rest
    else
      match textLines rest with
      | [] => [[c]]
      | line :: more => (c :: line) :: more

def prefixLines (pref str : CString) : CString :=
  (textLines str).flatMap fun line => pref ++ line ++ eol

-- Only the first line ends inside the text.
def OneInnerEol (str : CString) : Prop :=
  str.count 10 ≤ 1 ∨ str.count 10 = 2 ∧ str.getLast? = some 10

instance (str : CString) : Decidable (OneInnerEol str) :=
  inferInstanceAs (Decidable (str.count 10 ≤ 1 ∨ str.count 10 = 2 ∧ str.getLast? = some 10))

namespace NutWriter

variable (puts : Nat -> Bool) (str pref : CString) (writer : NutWriter)

def LineByLine : Prop :=
  (writer.writeEachLine puts str pref).1 = .ok ∧
    (writer.writeEachLine puts str pref).2.written = writer.written ++ prefixLines pref str

def CommentStays : Prop :=
  writer.LineByLine puts str (cstr "# ") ∧
    ∃ comment, (writer.writeComment puts str).2.written = writer.written ++ comment ∧
      ∀ line ∈ textLines comment, cstr "# " <+: line

end NutWriter

section Lines

variable {line rest pref str : CString}

theorem textLines_line (oneLine : 10 ∉ line) (rest : CString) : textLines (line ++ 10 :: rest) = line :: textLines rest := by
  induction line with
  | nil => simp [textLines]
  | cons c line ih =>
    simp only [List.mem_cons, not_or] at oneLine
    rw [List.cons_append, textLines, if_neg (Ne.symm oneLine.1), ih oneLine.2]

theorem textLines_last (oneLine : 10 ∉ line) (some_ : line ≠ []) : textLines line = [line] := by
  induction line with
  | nil => exact absurd rfl some_
  | cons c line ih =>
    simp only [List.mem_cons, not_or] at oneLine
    rw [textLines, if_neg (Ne.symm oneLine.1)]
    cases line with
    | nil => rfl
    | cons d line => rw [ih oneLine.2 (by simp)]

theorem prefixLines_line (oneLine : 10 ∉ line) (rest : CString) :
    prefixLines pref (line ++ 10 :: rest) = pref ++ line ++ eol ++ prefixLines pref rest := by
  rw [prefixLines, textLines_line oneLine, List.flatMap_cons]
  rfl

theorem prefixLines_last (oneLine : 10 ∉ line) (some_ : line ≠ []) : prefixLines pref line = pref ++ line ++ eol := by
  simp [prefixLines, textLines_last oneLine some_]

theorem line_cases (str : CString) : 10 ∉ str ∨ ∃ line rest, str = line ++ 10 :: rest ∧ 10 ∉ line := by
  by_cases found : 10 ∈ str
  · obtain ⟨line, rest, rfl, first⟩ := List.eq_append_cons_of_mem found
    exact .inr ⟨line, rest, rfl, first⟩
  · exact .inl found

end Lines

def LastEol (str : CString) : Prop :=
  str.count 10 = 0 ∨ str.count 10 = 1 ∧ str.getLast? = some 10

namespace NutWriter

variable {puts : Nat -> Bool} {before line rest pref : CString} {writer : NutWriter}

theorem write_ok (all : ∀ n, puts n = true) (str : CString) :
    writer.write puts str = (.ok, { written := writer.written ++ str, calls := writer.calls + 1 }) := if_pos (all _)

theorem strchrFrom_line (oneLine : 10 ∉ line) :
    strchrFrom (before ++ (line ++ 10 :: rest)) before.length 10 = some (before.length + line.length) := by
  have first : (line ++ 10 :: rest).findIdx? (· == 10) = some line.length := by
    rw [List.findIdx?_append]
    have none_ : line.findIdx? (· == 10) = none := by
      rw [List.findIdx?_eq_none_iff]
      intro b member
      simpa using fun same : b = 10 => oneLine (same ▸ member)
    simp [none_, List.findIdx?_cons]
  rw [strchrFrom, List.drop_left, first]
  rfl

theorem from_line (all : ∀ n, puts n = true) (oneLine : 10 ∉ line) :
    writer.writeLinesFrom puts (before ++ (line ++ 10 :: rest)) pref before.length =
      ({ written := writer.written ++ (pref ++ line ++ eol ++ rest.take before.length)
         calls := writer.calls + 2 } : NutWriter).writeLinesFrom puts (before ++ line ++ eol ++ rest) pref
        (before ++ line ++ eol).length := by
  have inside : before.length < (before ++ (line ++ 10 :: rest)).length := by
    simp only [List.length_append, List.length_cons]
    omega
  have piece : (line ++ 10 :: rest).take (before.length + line.length + 1) = line ++ eol ++ rest.take before.length := by
    rw [List.take_append, List.take_of_length_le (by omega)]
    have more : before.length + line.length + 1 - line.length = before.length + 1 := by omega
    simp [more, eol]
  have same : before ++ (line ++ 10 :: rest) = before ++ line ++ eol ++ rest := by simp [eol]
  rw [writeLinesFrom, if_pos inside, write_ok all]
  simp only
  split
  next none_ => simp [strchrFrom_line oneLine] at none_
  next at_ found =>
    rw [strchrFrom_line oneLine] at found
    obtain rfl := Option.some.inj found
    simp only [write_ok all, List.drop_left, eol, List.length_singleton]
    rw [piece, same]
    simp [eol, Nat.add_assoc]

theorem from_last (all : ∀ n, puts n = true) (oneLine : 10 ∉ line) (some_ : line ≠ []) :
    writer.writeLinesFrom puts (before ++ line) pref before.length =
      (.ok, { written := writer.written ++ (pref ++ line ++ eol), calls := writer.calls + 2 }) := by
  have inside : before.length < (before ++ line).length := by
    rw [List.length_append]
    exact Nat.lt_add_of_pos_right (List.length_pos_iff.mpr some_)
  have none_ : strchrFrom (before ++ line) before.length 10 = none := by
    rw [<- Option.not_isSome_iff_eq_none, strchrFrom_isSome, List.drop_left]
    exact oneLine
  rw [writeLinesFrom, if_pos inside, write_ok all]
  simp only
  split
  next => simp [write_ok all]
  next at_ found => simp [none_] at found

theorem from_end : writer.writeLinesFrom puts before pref before.length = (.ok, writer) := by
  rw [writeLinesFrom, if_neg (Nat.lt_irrefl _)]

structure Later (puts : Nat -> Bool) (before rest pref : CString) (writer : NutWriter) (text : CString) : Prop where
  written : ∃ calls, writer.writeLinesFrom puts (before ++ rest) pref before.length =
    (.ok, { written := writer.written ++ text, calls })
  least : (prefixLines pref rest).length ≤ text.length
  exact_ : text = prefixLines pref rest ↔ LastEol rest

theorem later_last (all : ∀ n, puts n = true) (oneLine : 10 ∉ line) :
    ∃ text, Later puts before line pref writer text := by
  have last : LastEol line := .inl (List.count_eq_zero.mpr oneLine)
  by_cases some_ : line = []
  · subst some_
    refine ⟨[], ⟨writer.calls, ?_⟩, Nat.zero_le _, iff_of_true rfl last⟩
    rw [List.append_nil, List.append_nil, from_end]
  · refine ⟨pref ++ line ++ eol, ⟨writer.calls + 2, from_last all oneLine some_⟩, ?_, ?_⟩
    · rw [prefixLines_last oneLine some_]
    · exact iff_of_true (prefixLines_last oneLine some_).symm last

theorem lastEol_line (oneLine : 10 ∉ line) (rest : CString) : LastEol (line ++ 10 :: rest) ↔ rest = [] := by
  have count : (line ++ 10 :: rest).count 10 = rest.count 10 + 1 := by
    simp [List.count_append, List.count_eq_zero.mpr oneLine]
  rw [LastEol, count]
  constructor
  · rintro (zero | ⟨one, last⟩)
    · omega
    · by_contra some_
      have behind : 10 ∉ rest := List.count_eq_zero.mp (by omega)
      rw [List.append_cons, List.getLast?_append_of_ne_nil _ some_] at last
      exact behind (List.mem_of_getLast? last)
  · rintro rfl
    simp

theorem writes_later (all : ∀ n, puts n = true) (some_ : before ≠ []) :
    ∃ text, Later puts before rest pref writer text := by
  induction length : rest.length using Nat.strong_induction_on generalizing before rest writer with
  | _ length ih =>
  subst length
  obtain oneLine | ⟨line, more, rfl, oneLine⟩ := line_cases rest
  · exact later_last all oneLine
  · have shorter : more.length < (line ++ 10 :: more).length := by
      simp only [List.length_append, List.length_cons]
      omega
    obtain ⟨text, ⟨calls, written⟩, least, exact_⟩ := @ih _ shorter (before ++ line ++ eol) more
      { written := writer.written ++ (pref ++ line ++ eol ++ more.take before.length), calls := writer.calls + 2 }
      (by simp [eol]) rfl
    have expected := @prefixLines_line line pref oneLine more
    refine ⟨pref ++ line ++ eol ++ more.take before.length ++ text, ⟨calls, ?_⟩, ?_, ?_⟩
    · rw [from_line all oneLine, written, List.append_assoc]
    · rw [expected]
      simp only [List.length_append]
      omega
    · rw [lastEol_line oneLine, expected]
      constructor
      · intro same
        have length := congrArg List.length same
        simp only [List.length_append, List.length_take] at length
        have positive := List.length_pos_iff.mpr some_
        exact List.length_eq_zero_iff.mp (by omega)
      · rintro rfl
        have none_ : text = prefixLines pref [] := exact_.mpr (.inl rfl)
        rw [none_]
        simp

theorem count_line (oneLine : 10 ∉ line) (rest : CString) : OneInnerEol (line ++ 10 :: rest) ↔ LastEol rest := by
  have count : (line ++ 10 :: rest).count 10 = rest.count 10 + 1 := by
    simp [List.count_append, List.count_eq_zero.mpr oneLine]
  rw [OneInnerEol, LastEol, count]
  by_cases some_ : rest = []
  · subst some_
    simp
  · have none_ : rest.count 10 + 1 ≤ 1 ↔ rest.count 10 = 0 := by omega
    have one : rest.count 10 + 1 = 2 ↔ rest.count 10 = 1 := by omega
    rw [List.append_cons, List.getLast?_append_of_ne_nil _ some_, none_, one]

theorem lineByLine_iff (all : ∀ n, puts n = true) (str : CString) :
    writer.LineByLine puts str pref ↔ OneInnerEol str := by
  obtain oneLine | ⟨line, rest, rfl, oneLine⟩ := line_cases str
  · have inner : OneInnerEol str := .inl (by simp [List.count_eq_zero.mpr oneLine])
    refine iff_of_true ?_ inner
    by_cases some_ : str = []
    · subst some_
      have none_ : writer.writeEachLine puts [] pref = (.ok, writer) := @from_end puts [] pref writer
      simp [LineByLine, none_, prefixLines, textLines]
    · have last : writer.writeEachLine puts str pref = _ := @from_last puts [] str pref writer all oneLine some_
      simp [LineByLine, last, prefixLines_last oneLine some_]
  · obtain ⟨text, ⟨calls, written⟩, _, exact_⟩ := @writes_later puts (line ++ eol) rest pref
      { written := writer.written ++ (pref ++ line ++ eol), calls := writer.calls + 2 } all (by simp [eol])
    have whole : writer.writeEachLine puts (line ++ 10 :: rest) pref =
        (.ok, { written := writer.written ++ (pref ++ line ++ eol) ++ text, calls }) := by
      rw [<- written]
      have step := @from_line puts [] line rest pref writer all oneLine
      simpa [writeEachLine] using step
    rw [count_line oneLine, <- exact_, LineByLine, whole, prefixLines_line oneLine]
    simp

theorem textLines_noEol (str : CString) : ∀ line ∈ textLines str, 10 ∉ line := by
  induction str with
  | nil => simp [textLines]
  | cons c rest ih =>
    rw [textLines]
    split_ifs with ends
    · simpa using ih
    · have own : 10 ∉ [c] := by simpa using Ne.symm ends
      cases later : textLines rest with
      | nil => simpa using own
      | cons line more =>
        rw [later] at ih
        intro written member
        obtain rfl | member := List.mem_cons.mp member
        · exact fun found => (List.mem_append.mp (show 10 ∈ [c] ++ line from found)).elim own (ih line (by simp))
        · exact ih written (by simp [member])

theorem textLines_prefixLines (oneLine : 10 ∉ pref) (str : CString) :
    textLines (prefixLines pref str) = (textLines str).map (pref ++ ·) := by
  have each (lines : List CString) (plain : ∀ line ∈ lines, 10 ∉ line) :
      textLines (lines.flatMap fun line => pref ++ line ++ eol) = lines.map (pref ++ ·) := by
    induction lines with
    | nil => rfl
    | cons line lines ih =>
      have own : 10 ∉ pref ++ line := by simp [oneLine, plain line (by simp)]
      rw [List.flatMap_cons, eol, List.append_assoc _ [10], List.singleton_append, textLines_line own, List.map_cons]
      exact congrArg _ (ih fun line member => plain line (by simp [member]))
  exact each _ (textLines_noEol str)

theorem commentStays_iff (all : ∀ n, puts n = true) (str : CString) : writer.CommentStays puts str ↔ OneInnerEol str := by
  rw [CommentStays, lineByLine_iff all]
  refine and_iff_left_of_imp fun inner => ?_
  obtain ⟨_, written⟩ := (@lineByLine_iff puts (cstr "# ") writer all str).mpr inner
  refine ⟨prefixLines (cstr "# ") str, written, fun line member => ?_⟩
  rw [textLines_prefixLines (by decide)] at member
  obtain ⟨own, _, rfl⟩ := List.mem_map.mp member
  exact List.prefix_append _ _

-- A text is written line by line, and a comment stays one, unless a line end but the first stands inside of it.
theorem eachLine_written (all : ∀ n, puts n = true) (str pref : CString) (writer : NutWriter) :
    (writer.LineByLine puts str pref ↔ OneInnerEol str) ∧ (writer.CommentStays puts str ↔ OneInnerEol str) :=
  ⟨lineByLine_iff all str, commentStays_iff all str⟩

end NutWriter

open NutWriter in
theorem eachLine_written_three :
    (NutWriter.LineByLine (fun _ => true) (cstr "a\nb\nc") (cstr "# ") ⟨[], 0⟩ ↔ OneInnerEol (cstr "a\nb\nc")) ∧
      (CommentStays (fun _ => true) (cstr "a\nb\nc") ⟨[], 0⟩ ↔ OneInnerEol (cstr "a\nb\nc")) :=
  eachLine_written (fun _ => rfl) _ _ _

open NutWriter in
-- The third line is written as a directive as well.
theorem comment_escapes : ¬ CommentStays (fun _ => true) (cstr "first line\nb\nMODE=none\nc") ⟨[], 0⟩ := by
  rw [commentStays_iff fun _ => rfl]
  decide

end Nut
