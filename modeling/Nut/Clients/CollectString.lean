import Mathlib.Data.List.Induction
import Mathlib.Data.List.TakeWhile
import Nut.Common.ParseConf
import Nut.Common.TokenAdding

set_option autoImplicit false

namespace Nut

def overwriteAt (buf : List UInt8) (start : Nat) (bytes : List UInt8) : List UInt8 :=
  buf.take start ++ bytes ++ buf.drop (start + bytes.length)

def snprintfAt (buf : List UInt8) (start size : Nat) (text : CString) : List UInt8 :=
  if size = 0 then buf else overwriteAt buf start (text.take (size - 1) ++ [0])

def printPiece (text : CString) (prevlen : Nat) (buf : List UInt8) : List UInt8 :=
  (snprintfAt buf prevlen (buf.length - prevlen - 1) text).set (buf.length - 1) 0

theorem overwriteAt_length {buf bytes : List UInt8} {start : Nat} (inside : start + bytes.length ≤ buf.length) :
    (overwriteAt buf start bytes).length = buf.length := by
  simp only [overwriteAt, List.length_append, List.length_take, List.length_drop]
  omega

theorem snprintfAt_length (buf : List UInt8) (start : Nat) (text : CString) :
    (snprintfAt buf start (buf.length - start - 1) text).length = buf.length := by
  unfold snprintfAt
  split
  · rfl
  · refine overwriteAt_length ?_
    simp only [List.length_append, List.length_take, List.length_singleton]
    omega

theorem printPiece_length (text : CString) (prevlen : Nat) (buf : List UInt8) :
    (printPiece text prevlen buf).length = buf.length := by
  rw [printPiece, List.length_set, snprintfAt_length]

def grow (fresh : Nat -> UInt8) (buf : List UInt8) : List UInt8 :=
  buf ++ (List.range largebuf).map fun i => fresh (buf.length + i)

theorem grow_length (fresh : Nat -> UInt8) (buf : List UInt8) : (grow fresh buf).length = buf.length + largebuf := by
  simp [grow]

def appendPiece (alloc : Nat -> Bool) (fresh : Nat -> UInt8) (text : CString) (prevlen : Nat) (buf : List UInt8) :
    Option (List UInt8 × Nat) :=
  let printed := printPiece text prevlen buf
  -- snprintf fails when its result is no `int`
  if text.length > intMax then some (printed.set prevlen 0, prevlen)
  else if (text.length + prevlen) % 2 ^ 64 ≥ buf.length then
    if _ : buf.length < sizeMax - largebuf then
      if alloc (buf.length + largebuf) then appendPiece alloc fresh text prevlen (grow fresh printed) else none
    else some (printed.set prevlen 0, prevlen)
  else some (printed, (prevlen + text.length) % 2 ^ 64)
termination_by sizeMax - buf.length
decreasing_by
  rw [grow_length, printPiece_length]
  simp only [sizeMax, largebuf] at *
  omega

structure Joining where
  buf : List UInt8
  prevlen : Nat
  count : Nat

def collectLoop (alloc : Nat -> Bool) (fresh : Nat -> UInt8) (sep : CString) : List CString -> Joining -> Option Joining
  | [], c => some c
  | s :: rest, c =>
    if s = [] then some c
    else
      (appendPiece alloc fresh ((if c.count ≠ 0 then sep else []) ++ s) c.prevlen c.buf).bind fun appended =>
        collectLoop alloc fresh sep rest { buf := appended.1, prevlen := appended.2, count := c.count + 1 }

structure Collected where
  text : CString
  bufsize : Nat
  count : Nat

-- Without a first string the result is NULL; `sep` may be NULL.
def collectString (alloc : Nat -> Bool) (fresh : Nat -> UInt8) (strings : List CString) (sep : Option CString) :
    Option Collected :=
  if strings.head?.getD [] = [] then none
  else
    (collectLoop alloc fresh (sep.getD (cstr ",")) strings { buf := List.replicate smallbuf 0, prevlen := 0, count := 0 }).map
      fun c => { text := c.buf.takeWhile (· ≠ 0), bufsize := c.buf.length, count := c.count }

section Pieces

variable {text : CString} {prevlen : Nat} {buf : List UInt8}

theorem printPiece_take (inside : prevlen < buf.length) : (printPiece text prevlen buf).take prevlen = buf.take prevlen := by
  have kept : (snprintfAt buf prevlen (buf.length - prevlen - 1) text).take prevlen = buf.take prevlen := by
    unfold snprintfAt
    split
    · rfl
    · have length : (buf.take prevlen).length = prevlen := by
        rw [List.length_take]
        omega
      rw [overwriteAt, List.append_assoc, List.take_append_of_le_length (Nat.le_of_eq length.symm)]
      exact List.take_of_length_le (Nat.le_of_eq length)
  rw [printPiece, List.take_set_of_le (by omega), kept]

theorem printPiece_nul (inside : prevlen < buf.length) :
    ∃ q, q ≤ prevlen + text.length ∧ (printPiece text prevlen buf)[q]? = some 0 := by
  have last : (printPiece text prevlen buf)[buf.length - 1]? = some 0 := by
    rw [printPiece, List.getElem?_set_self (by rw [snprintfAt_length]; omega)]
  by_cases full : buf.length - prevlen - 1 = 0
  · exact ⟨buf.length - 1, by omega, last⟩
  · refine ⟨prevlen + min text.length (buf.length - prevlen - 2), by omega, ?_⟩
    have front : (buf.take prevlen ++ text.take (buf.length - prevlen - 1 - 1)).length =
        prevlen + min text.length (buf.length - prevlen - 2) := by
      simp only [List.length_append, List.length_take]
      omega
    have written : (snprintfAt buf prevlen (buf.length - prevlen - 1) text)[
        prevlen + min text.length (buf.length - prevlen - 2)]? = some 0 := by
      rw [snprintfAt, if_neg full, overwriteAt, <- List.append_assoc, <- front, List.append_assoc]
      simp
    rw [printPiece, List.getElem?_set_ne (by omega), written]

theorem printPiece_whole (fits : prevlen + text.length + 1 < buf.length) :
    ∃ rest, printPiece text prevlen buf = buf.take prevlen ++ text ++ 0 :: rest := by
  have some_ : buf.length - prevlen - 1 ≠ 0 := by omega
  have all : text.take (buf.length - prevlen - 1 - 1) = text := List.take_of_length_le (by omega)
  have front : (buf.take prevlen ++ text ++ [0]).length ≤ buf.length - 1 := by
    simp only [List.length_append, List.length_take, List.length_singleton]
    omega
  refine ⟨(buf.drop (prevlen + (text ++ [0]).length)).set (buf.length - 1 - (buf.take prevlen ++ text ++ [0]).length) 0, ?_⟩
  rw [printPiece, snprintfAt, if_neg some_, all, overwriteAt, <- List.append_assoc, List.set_append_right _ _ front]
  simp

theorem printPiece_short (some_ : text ≠ []) (fills : prevlen + text.length + 1 = buf.length) :
    (printPiece text prevlen buf)[prevlen + text.length - 1]? = some 0 := by
  have long := List.length_pos_of_ne_nil some_
  have front : (buf.take prevlen ++ text.take (buf.length - prevlen - 1 - 1)).length = prevlen + text.length - 1 := by
    simp only [List.length_append, List.length_take]
    omega
  have size : buf.length - prevlen - 1 ≠ 0 := by omega
  rw [printPiece, List.getElem?_set_ne (by omega), snprintfAt, if_neg size, overwriteAt, <- List.append_assoc, <- front,
    List.append_assoc]
  simp

end Pieces

-- The buffers come from `SMALLBUF` bytes by additions of `LARGEBUF`, and `prevlen` is inside of them.
structure BufferSized (buf : List UInt8) (prevlen : Nat) : Prop where
  shape : buf.length % 1024 = 512
  bounded : buf.length < 2 ^ 64
  inside : prevlen < buf.length

inductive PieceAppended (text : CString) (prevlen : Nat) (buf : List UInt8) : List UInt8 -> Nat -> Prop where
  | dropped {buf' : List UInt8} (nul : buf'[prevlen]? = some 0) (before : buf'.take prevlen = buf.take prevlen)
      (large : intMax < text.length ∨ 2 ^ 64 - 512 ≤ prevlen + text.length) : PieceAppended text prevlen buf buf' prevlen
  | printed {grown : List UInt8} (before : grown.take prevlen = buf.take prevlen) (inside : prevlen < grown.length)
      (int : text.length ≤ intMax) (least : grown.length ≤ max buf.length (prevlen + text.length + 1024)) :
      PieceAppended text prevlen buf (printPiece text prevlen grown) ((prevlen + text.length) % 2 ^ 64)

section Growth

variable {alloc : Nat -> Bool} {fresh : Nat -> UInt8} {text : CString} {prevlen : Nat} {buf : List UInt8}

theorem sized_dropped (sized : BufferSized buf prevlen) : BufferSized ((printPiece text prevlen buf).set prevlen 0) prevlen := by
  refine ⟨?_, ?_, ?_⟩ <;> rw [List.length_set, printPiece_length]
  · exact sized.shape
  · exact sized.bounded
  · exact sized.inside

theorem appended_dropped (sized : BufferSized buf prevlen) (large : intMax < text.length ∨ 2 ^ 64 - 512 ≤ prevlen + text.length) :
    PieceAppended text prevlen buf ((printPiece text prevlen buf).set prevlen 0) prevlen := by
  have inside : prevlen < (printPiece text prevlen buf).length := by rw [printPiece_length]; exact sized.inside
  refine .dropped (List.getElem?_set_self inside) ?_ large
  rw [List.take_set_of_le (Nat.le_refl _), printPiece_take sized.inside]

theorem appendPiece_cases {buf : List UInt8} (allocates : ∀ size, alloc size = true) (sized : BufferSized buf prevlen) :
    ∃ buf' prevlen', appendPiece alloc fresh text prevlen buf = some (buf', prevlen') ∧ BufferSized buf' prevlen' ∧
      PieceAppended text prevlen buf buf' prevlen' := by
  obtain ⟨shape, bounded, inside⟩ := sized
  rw [appendPiece]
  by_cases long : text.length > intMax
  · simp only [if_pos long]
    exact ⟨_, _, rfl, sized_dropped ⟨shape, bounded, inside⟩, appended_dropped ⟨shape, bounded, inside⟩ (Or.inl long)⟩
  simp only [if_neg long]
  by_cases full : (text.length + prevlen) % 2 ^ 64 ≥ buf.length
  · simp only [if_pos full]
    by_cases room : buf.length < sizeMax - largebuf
    · simp only [dif_pos room, if_pos (allocates _)]
      have length : (grow fresh (printPiece text prevlen buf)).length = buf.length + 1024 := by
        rw [grow_length, printPiece_length]
        rfl
      simp only [sizeMax, largebuf] at room
      have more : BufferSized (grow fresh (printPiece text prevlen buf)) prevlen := ⟨by omega, by omega, by omega⟩
      have same : (grow fresh (printPiece text prevlen buf)).take prevlen = buf.take prevlen := by
        rw [grow, List.take_append_of_le_length (by rw [printPiece_length]; omega), printPiece_take inside]
      obtain ⟨buf', prevlen', equal, sized', appended⟩ := appendPiece_cases allocates more
      refine ⟨buf', prevlen', equal, sized', ?_⟩
      cases appended with
      | dropped nul before large => exact .dropped nul (before.trans same) large
      | printed before inside' int least => exact .printed (before.trans same) inside' int (by omega)
    · simp only [dif_neg room]
      simp only [sizeMax, largebuf] at room
      exact ⟨_, _, rfl, sized_dropped ⟨shape, bounded, inside⟩,
        appended_dropped ⟨shape, bounded, inside⟩ (Or.inr (by omega))⟩
  · simp only [if_neg full]
    have sized' : BufferSized (printPiece text prevlen buf) ((prevlen + text.length) % 2 ^ 64) := by
      refine ⟨?_, ?_, ?_⟩ <;> rw [printPiece_length]
      · exact shape
      · exact bounded
      · rw [Nat.add_comm]
        exact Nat.not_le.mp full
    exact ⟨_, _, rfl, sized', .printed rfl inside (Nat.not_lt.mp long) (Nat.le_max_left _ _)⟩
termination_by sizeMax - buf.length
decreasing_by
  rw [length]
  simp only [sizeMax]
  omega

end Growth

def pieceBehind (sep : CString) (front : List CString) (s : CString) : CString :=
  (if front.length ≠ 0 then sep else []) ++ s

theorem intercalate_snoc (sep : CString) (front : List CString) (s : CString) :
    sep.intercalate (front ++ [s]) = sep.intercalate front ++ pieceBehind sep front s := by
  induction front with
  | nil => simp [List.intercalate, pieceBehind]
  | cons first rest ih =>
    cases rest with
    | nil => simp [List.intercalate, pieceBehind]
    | cons second rest =>
      simp only [pieceBehind, List.length_cons, List.cons_append, List.intercalate_cons_cons] at ih ⊢
      simp [ih]

structure PieceFits (sep : CString) (front : List CString) (s : CString) : Prop where
  whole : (sep.intercalate (front ++ [s])).length % 1024 ≠ 511
  int : (pieceBehind sep front s).length ≤ intMax
  size : (sep.intercalate (front ++ [s])).length < 2 ^ 64 - 512

structure JoinsWhole (sep : CString) (front : List CString) (c : Joining) : Prop where
  sized : BufferSized c.buf c.prevlen
  count : c.count = front.length
  text : ∃ rest, c.buf = sep.intercalate front ++ 0 :: rest
  prevlen : c.prevlen = (sep.intercalate front).length
  least : c.buf.length ≤ max 512 (c.prevlen + 1024)

structure JoinsShort (sep : CString) (front : List CString) (c : Joining) : Prop where
  sized : BufferSized c.buf c.prevlen
  count : c.count = front.length
  short : c.prevlen ≤ (sep.intercalate front).length
  nul : ∃ p, c.buf[p]? = some 0 ∧ p < (sep.intercalate front).length ∧
    (p < c.prevlen ∨ c.prevlen < (sep.intercalate front).length)

section Steps

variable {sep s : CString} {front : List CString} {c : Joining} {buf' : List UInt8} {prevlen' : Nat}

theorem piece_pos (some_ : s ≠ []) : 0 < (pieceBehind sep front s).length := by
  have long := List.length_pos_of_ne_nil some_
  rw [pieceBehind, List.length_append]
  omega

theorem whole_fits (whole : JoinsWhole sep front c) (fits : PieceFits sep front s) (sized : BufferSized buf' prevlen')
    (appended : PieceAppended (pieceBehind sep front s) c.prevlen c.buf buf' prevlen') :
    JoinsWhole sep (front ++ [s]) { buf := buf', prevlen := prevlen', count := c.count + 1 } := by
  obtain ⟨odd, int, size⟩ := fits
  have total := congrArg List.length (intercalate_snoc sep front s)
  rw [List.length_append, <- whole.prevlen] at total
  cases appended with
  | dropped nul before large => omega
  | @printed grown before inside _ least =>
    obtain ⟨shape, bounded, room⟩ := sized
    rw [printPiece_length] at shape bounded room
    have small : (c.prevlen + (pieceBehind sep front s).length) % 2 ^ 64 = (sep.intercalate (front ++ [s])).length := by
      rw [total]
      exact Nat.mod_eq_of_lt (by omega)
    have tight := whole.least
    obtain ⟨old, text⟩ := whole.text
    have start : grown.take c.prevlen = sep.intercalate front := by
      rw [before, text, whole.prevlen, List.take_left]
    obtain ⟨rest, printed⟩ := printPiece_whole (show c.prevlen + (pieceBehind sep front s).length + 1 < grown.length by omega)
    refine ⟨⟨?_, ?_, ?_⟩, ?_, ⟨rest, ?_⟩, small, ?_⟩
    · rw [printPiece_length]
      exact shape
    · rw [printPiece_length]
      exact bounded
    · rw [printPiece_length]
      exact room
    · rw [whole.count, List.length_append, List.length_singleton]
    · rw [printed, start, <- intercalate_snoc]
    · simp only
      rw [printPiece_length, small]
      omega

theorem whole_unfit (whole : JoinsWhole sep front c) (some_ : s ≠ []) (unfit : ¬ PieceFits sep front s) (sized : BufferSized buf' prevlen')
    (appended : PieceAppended (pieceBehind sep front s) c.prevlen c.buf buf' prevlen') :
    JoinsShort sep (front ++ [s]) { buf := buf', prevlen := prevlen', count := c.count + 1 } := by
  have long := @piece_pos sep s front some_
  have total := congrArg List.length (intercalate_snoc sep front s)
  rw [List.length_append, <- whole.prevlen] at total
  have count : c.count + 1 = (front ++ [s]).length := by rw [whole.count, List.length_append, List.length_singleton]
  cases appended with
  | dropped nul before large =>
    exact ⟨sized, count, by simp only; omega, c.prevlen, nul, by omega, Or.inr (by simp only; omega)⟩
  | @printed grown before inside int least =>
    have tight := whole.least
    have sized' := sized
    obtain ⟨shape, bounded, room⟩ := sized'
    rw [printPiece_length] at shape bounded room
    obtain ⟨q, _, nul⟩ := @printPiece_nul (pieceBehind sep front s) c.prevlen grown inside
    by_cases wraps : 2 ^ 64 ≤ c.prevlen + (pieceBehind sep front s).length
    · have last : q < grown.length := by
        rw [<- printPiece_length (pieceBehind sep front s) c.prevlen grown]
        exact (List.getElem?_eq_some_iff.mp nul).1
      exact ⟨sized, count, by simp only; omega, q, nul, by omega, Or.inr (by simp only; omega)⟩
    · have same := Nat.mod_eq_of_lt (Nat.not_le.mp wraps)
      have odd : (c.prevlen + (pieceBehind sep front s).length) % 1024 = 511 := by
        by_contra other
        exact unfit ⟨by omega, int, by omega⟩
      have fills : c.prevlen + (pieceBehind sep front s).length + 1 = grown.length := by omega
      have cut := printPiece_short (List.ne_nil_of_length_pos long) fills
      exact ⟨sized, count, by simp only; omega, _, cut, by omega, Or.inl (by simp only; omega)⟩

theorem lost_stays (lost : JoinsShort sep front c) (some_ : s ≠ []) (sized : BufferSized buf' prevlen')
    (appended : PieceAppended (pieceBehind sep front s) c.prevlen c.buf buf' prevlen') :
    JoinsShort sep (front ++ [s]) { buf := buf', prevlen := prevlen', count := c.count + 1 } := by
  have long := @piece_pos sep s front some_
  have total := congrArg List.length (intercalate_snoc sep front s)
  rw [List.length_append] at total
  have count : c.count + 1 = (front ++ [s]).length := by rw [lost.count, List.length_append, List.length_singleton]
  have short := lost.short
  obtain ⟨p, nul, early, place⟩ := lost.nul
  have kept {buf : List UInt8} (before : buf.take c.prevlen = c.buf.take c.prevlen) (under : p < c.prevlen) :
      buf[p]? = some 0 := by
    have same := congrArg (·[p]?) before
    simp only [List.getElem?_take_of_lt under] at same
    rw [same, nul]
  cases appended with
  | dropped here before large =>
    exact ⟨sized, count, by simp only; omega, c.prevlen, here, by omega, Or.inr (by simp only; omega)⟩
  | @printed grown before inside int least =>
    have short' : (c.prevlen + (pieceBehind sep front s).length) % 2 ^ 64 ≤ (sep.intercalate (front ++ [s])).length := by omega
    by_cases under : p < c.prevlen
    · have stays := kept ((@printPiece_take (pieceBehind sep front s) _ _ inside).trans before) under
      refine ⟨sized, count, short', p, stays, by omega, ?_⟩
      by_cases wraps : 2 ^ 64 ≤ c.prevlen + (pieceBehind sep front s).length
      · have less := Nat.mod_lt (c.prevlen + (pieceBehind sep front s).length) (Nat.two_pow_pos 64)
        exact Or.inr (by simp only; omega)
      · have same := Nat.mod_eq_of_lt (Nat.not_le.mp wraps)
        exact Or.inl (by simp only; omega)
    · obtain ⟨q, near, here⟩ := @printPiece_nul (pieceBehind sep front s) c.prevlen grown inside
      exact ⟨sized, count, short', q, here, by omega, Or.inr (by simp only; omega)⟩

end Steps

def AllFit (sep : CString) (front strings : List CString) : Prop :=
  ∀ mid s back, strings = mid ++ s :: back -> PieceFits sep (front ++ mid) s

section Loop

variable {alloc : Nat -> Bool} {fresh : Nat -> UInt8} {sep : CString}

theorem allFit_cons {front strings : List CString} {s : CString} :
    AllFit sep front (s :: strings) ↔ PieceFits sep front s ∧ AllFit sep (front ++ [s]) strings := by
  constructor
  · intro all
    refine ⟨?_, fun mid t back split => ?_⟩
    · have here := all [] s strings rfl
      rwa [List.append_nil] at here
    · have later := all (s :: mid) t back (by rw [split]; rfl)
      rwa [List.append_cons] at later
  · rintro ⟨here, later⟩ mid t back split
    cases mid with
    | nil =>
      rw [List.nil_append, List.cons.injEq] at split
      rwa [List.append_nil, <- split.1]
    | cons first mid =>
      rw [List.cons_append, List.cons.injEq] at split
      rw [List.append_cons, <- split.1]
      exact later mid t back split.2

theorem collectLoop_cons (allocates : ∀ size, alloc size = true) {front rest : List CString} {s : CString} {c : Joining}
    (some_ : s ≠ []) (count : c.count = front.length) (sized : BufferSized c.buf c.prevlen) :
    ∃ buf' prevlen', BufferSized buf' prevlen' ∧ PieceAppended (pieceBehind sep front s) c.prevlen c.buf buf' prevlen' ∧
      collectLoop alloc fresh sep (s :: rest) c =
        collectLoop alloc fresh sep rest { buf := buf', prevlen := prevlen', count := c.count + 1 } := by
  obtain ⟨buf', prevlen', equal, sized', appended⟩ :=
    @appendPiece_cases alloc fresh (pieceBehind sep front s) c.prevlen c.buf allocates sized
  refine ⟨buf', prevlen', sized', appended, ?_⟩
  rw [pieceBehind, <- count] at equal
  rw [collectLoop, if_neg some_, equal, Option.bind_some]

theorem collectLoop_lost (allocates : ∀ size, alloc size = true) {front rest : List CString} (some_ : ∀ s ∈ rest, s ≠ [])
    {c : Joining} (lost : JoinsShort sep front c) :
    ∃ c', collectLoop alloc fresh sep rest c = some c' ∧ JoinsShort sep (front ++ rest) c' := by
  induction rest generalizing front c with
  | nil => exact ⟨c, rfl, by rwa [List.append_nil]⟩
  | cons s rest ih =>
    have here := some_ s List.mem_cons_self
    obtain ⟨buf', prevlen', sized, appended, next⟩ :=
      @collectLoop_cons alloc fresh sep allocates front rest s c here lost.count lost.sized
    obtain ⟨c', done, lost'⟩ :=
      ih (fun t member => some_ t (List.mem_cons_of_mem _ member)) (lost_stays lost here sized appended)
    exact ⟨c', by rw [next, done], by rwa [List.append_cons]⟩

theorem collectLoop_whole (allocates : ∀ size, alloc size = true) {front rest : List CString} (some_ : ∀ s ∈ rest, s ≠ [])
    {c : Joining} (whole : JoinsWhole sep front c) : ∃ c', collectLoop alloc fresh sep rest c = some c' ∧
      (AllFit sep front rest ∧ JoinsWhole sep (front ++ rest) c' ∨ ¬ AllFit sep front rest ∧ JoinsShort sep (front ++ rest) c') := by
  induction rest generalizing front c with
  | nil =>
    refine ⟨c, rfl, Or.inl ⟨fun mid s back split => ?_, by rwa [List.append_nil]⟩⟩
    cases mid <;> cases split
  | cons s rest ih =>
    have here := some_ s List.mem_cons_self
    have later : ∀ t ∈ rest, t ≠ [] := fun t member => some_ t (List.mem_cons_of_mem _ member)
    obtain ⟨buf', prevlen', sized, appended, next⟩ :=
      @collectLoop_cons alloc fresh sep allocates front rest s c here whole.count whole.sized
    rw [next, allFit_cons, List.append_cons front s rest]
    by_cases fits : PieceFits sep front s
    · obtain ⟨c', done, outcome⟩ := ih later (whole_fits whole fits sized appended)
      refine ⟨c', done, ?_⟩
      obtain ⟨all, kept⟩ | ⟨unfit, lost⟩ := outcome
      · exact Or.inl ⟨⟨fits, all⟩, kept⟩
      · exact Or.inr ⟨fun all => unfit all.2, lost⟩
    · obtain ⟨c', done, lost⟩ := collectLoop_lost allocates later (whole_unfit whole here fits sized appended)
      exact ⟨c', done, Or.inr ⟨fun all => fits all.1, lost⟩⟩

theorem whole_start (sep : CString) : JoinsWhole sep [] { buf := List.replicate smallbuf 0, prevlen := 0, count := 0 } :=
  have length : (List.replicate smallbuf (0 : UInt8)).length = 512 := List.length_replicate
  ⟨⟨by rw [length], by rw [length]; decide, by rw [length]; decide⟩, rfl, ⟨List.replicate 511 0, rfl⟩, rfl,
    by rw [length]; decide⟩

theorem takeWhile_before (text rest : List UInt8) (noNul : 0 ∉ text) : (text ++ 0 :: rest).takeWhile (· ≠ 0) = text := by
  rw [List.takeWhile_append_of_pos fun b member => by simpa using fun zero : b = 0 => noNul (zero ▸ member)]
  simp

theorem takeWhile_short {buf : List UInt8} {p : Nat} (nul : buf[p]? = some 0) : (buf.takeWhile (· ≠ 0)).length ≤ p := by
  by_contra long
  obtain ⟨rest, split⟩ := List.takeWhile_prefix (fun b : UInt8 => decide (b ≠ 0)) (l := buf)
  rw [<- split, List.getElem?_append_left (Nat.not_le.mp long)] at nul
  simpa using List.mem_takeWhile_imp (List.mem_of_getElem? nul)

theorem intercalate_noNul {strings : List CString} (sepNul : 0 ∉ sep) (noNul : ∀ s ∈ strings, 0 ∉ s) :
    0 ∉ sep.intercalate strings := by
  induction strings using List.reverseRecOn with
  | nil => exact List.not_mem_nil
  | append_singleton front s ih =>
    rw [intercalate_snoc, pieceBehind, List.mem_append, List.mem_append]
    rintro (before | between | here)
    · exact ih (fun t member => noNul t (List.mem_append_left _ member)) before
    · split at between
      · exact sepNul between
      · exact List.not_mem_nil between
    · exact noNul s (by simp) here

end Loop

-- All strings are in what `collect_string` returns, with their number and a size that has room for them.
def CollectsAll (alloc : Nat -> Bool) (fresh : Nat -> UInt8) (strings : List CString) (sep : Option CString) : Prop :=
  ∃ out, collectString alloc fresh strings sep = some out ∧ out.text = (sep.getD (cstr ",")).intercalate strings ∧
    out.count = strings.length ∧ out.text.length < out.bufsize

section Lossless

variable {alloc : Nat -> Bool} {strings : List CString} {sep : Option CString}

theorem collectString_some (fresh : Nat -> UInt8) (allocates : ∀ size, alloc size = true) (any : strings ≠ [])
    (some_ : ∀ s ∈ strings, s ≠ []) : ∃ c, collectString alloc fresh strings sep =
        some { text := c.buf.takeWhile (· ≠ 0), bufsize := c.buf.length, count := c.count } ∧
      (AllFit (sep.getD (cstr ",")) [] strings ∧ JoinsWhole (sep.getD (cstr ",")) strings c ∨
        ¬ AllFit (sep.getD (cstr ",")) [] strings ∧ JoinsShort (sep.getD (cstr ",")) strings c) := by
  obtain ⟨first, rest, rfl⟩ := List.exists_cons_of_ne_nil any
  obtain ⟨c, done, outcome⟩ := @collectLoop_whole alloc fresh _ allocates [] (first :: rest) some_ _ (whole_start _)
  refine ⟨c, ?_, outcome⟩
  have notEmpty : ¬ (first :: rest).head?.getD [] = [] := some_ first List.mem_cons_self
  rw [collectString, if_neg notEmpty, done]
  rfl

theorem collectsAll_whole {fresh : Nat -> UInt8} (allocates : ∀ size, alloc size = true) (any : strings ≠ [])
    (some_ : ∀ s ∈ strings, s ≠ []) (noNul : ∀ s ∈ strings, 0 ∉ s) (sepNul : 0 ∉ sep.getD (cstr ","))
    (fit : AllFit (sep.getD (cstr ",")) [] strings) : CollectsAll alloc fresh strings sep := by
  obtain ⟨c, done, ⟨_, whole⟩ | ⟨unfit, _⟩⟩ := @collectString_some alloc strings sep fresh allocates any some_
  · obtain ⟨rest, text⟩ := whole.text
    have inside := whole.sized.inside
    have same : c.buf.takeWhile (· ≠ 0) = (sep.getD (cstr ",")).intercalate strings := by
      rw [text, takeWhile_before _ _ (intercalate_noNul sepNul noNul)]
    refine ⟨_, done, same, whole.count, ?_⟩
    simp only
    rwa [same, <- whole.prevlen]
  · exact absurd fit unfit

theorem collectsAll_lost {fresh : Nat -> UInt8} (allocates : ∀ size, alloc size = true) (any : strings ≠ [])
    (some_ : ∀ s ∈ strings, s ≠ []) (unfit : ¬ AllFit (sep.getD (cstr ",")) [] strings) :
    ¬ CollectsAll alloc fresh strings sep := by
  obtain ⟨c, done, ⟨fit, _⟩ | ⟨_, lost⟩⟩ := @collectString_some alloc strings sep fresh allocates any some_
  · exact absurd fit unfit
  · rintro ⟨out, returned, text, _⟩
    rw [done] at returned
    cases returned
    obtain ⟨p, nul, early, _⟩ := lost.nul
    have short := takeWhile_short nul
    rw [show c.buf.takeWhile (· ≠ 0) = _ from text] at short
    omega

theorem appendPiece_room {fresh : Nat -> UInt8} {text : CString} {prevlen : Nat} {buf : List UInt8}
    (int : text.length ≤ intMax) (room : prevlen + text.length < buf.length) (bounded : buf.length < 2 ^ 64) :
    appendPiece alloc fresh text prevlen buf = some (printPiece text prevlen buf, prevlen + text.length) := by
  have small : (text.length + prevlen) % 2 ^ 64 = prevlen + text.length := by
    rw [Nat.add_comm]
    exact Nat.mod_eq_of_lt (by omega)
  have same : (prevlen + text.length) % 2 ^ 64 = prevlen + text.length := Nat.mod_eq_of_lt (by omega)
  rw [appendPiece]
  simp only [if_neg (Nat.not_lt.mpr int), small, if_neg (Nat.not_le.mpr room), same]

theorem intercalate_length_le (sep : CString) (front rest : List CString) :
    (sep.intercalate front).length ≤ (sep.intercalate (front ++ rest)).length := by
  induction rest using List.reverseRecOn with
  | nil => rw [List.append_nil]
  | append_singleton rest s ih =>
    rw [<- List.append_assoc, intercalate_snoc, List.length_append]
    omega

theorem pieceBehind_length_le (sep : CString) (front rest : List CString) (s : CString) :
    (sep.intercalate front).length + (pieceBehind sep front s).length ≤ (sep.intercalate (front ++ s :: rest)).length := by
  have whole := intercalate_length_le sep (front ++ [s]) rest
  rw [<- List.append_cons, intercalate_snoc, List.length_append] at whole
  exact whole

theorem collectLoop_room {fresh : Nat -> UInt8} {sep : CString} {front rest : List CString} {c : Joining}
    (count : c.count = front.length) (prevlen : c.prevlen = (sep.intercalate front).length)
    (short : (sep.intercalate (front ++ rest)).length < c.buf.length) (size : c.buf.length = 512) :
    collectLoop alloc fresh sep rest c = collectLoop (fun _ => true) fresh sep rest c := by
  induction rest generalizing front c with
  | nil => rfl
  | cons s rest ih =>
    have longer := pieceBehind_length_le sep front rest s
    have int : (pieceBehind sep front s).length ≤ intMax := by
      rw [intMax]
      omega
    have room : c.prevlen + (pieceBehind sep front s).length < c.buf.length := by omega
    have each (alloc : Nat -> Bool) := @appendPiece_room alloc fresh _ c.prevlen c.buf int room (by omega)
    simp only [pieceBehind, <- count] at each
    rw [collectLoop, collectLoop]
    split
    · rfl
    · rw [each, each, Option.bind_some, Option.bind_some]
      have next : (sep.intercalate ((front ++ [s]) ++ rest)).length < c.buf.length := by rwa [<- List.append_cons]
      refine @ih (front ++ [s]) _ ?_ ?_ (by simpa only [printPiece_length] using next) (by simpa only [printPiece_length] using size)
      · simp only [List.length_append, List.length_singleton, count]
      · have total := congrArg List.length (intercalate_snoc sep front s)
        rw [List.length_append, <- prevlen, pieceBehind, <- count] at total
        exact total.symm

theorem allFit_short {sep : CString} {strings : List CString} (short : (sep.intercalate strings).length < 511) :
    AllFit sep [] strings := by
  rintro mid s back rfl
  have longer := pieceBehind_length_le sep mid back s
  have total := congrArg List.length (intercalate_snoc sep mid s)
  rw [List.length_append] at total
  rw [List.nil_append]
  exact ⟨by omega, by rw [intMax]; omega, by omega⟩

theorem collectString_short {fresh : Nat -> UInt8} (any : strings ≠ []) (some_ : ∀ s ∈ strings, s ≠ [])
    (noNul : ∀ s ∈ strings, 0 ∉ s) (sepNul : 0 ∉ sep.getD (cstr ","))
    (short : ((sep.getD (cstr ",")).intercalate strings).length < 511) :
    (collectString alloc fresh strings sep).map Collected.text = some ((sep.getD (cstr ",")).intercalate strings) := by
  have length : (List.replicate smallbuf (0 : UInt8)).length = 512 := List.length_replicate
  have room : ((sep.getD (cstr ",")).intercalate ([] ++ strings)).length < (List.replicate smallbuf (0 : UInt8)).length := by
    rw [length, List.nil_append]
    omega
  have same : collectString alloc fresh strings sep = collectString (fun _ => true) fresh strings sep := by
    have loops := @collectLoop_room alloc fresh (sep.getD (cstr ",")) [] strings
      { buf := List.replicate smallbuf 0, prevlen := 0, count := 0 } rfl rfl room length
    rw [collectString, collectString, loops]
  obtain ⟨out, returned, text, _⟩ :=
    @collectsAll_whole (fun _ => true) strings sep fresh (fun _ => rfl) any some_ noNul sepNul (allFit_short short)
  rw [same, returned, Option.map_some, text]

end Lossless

-- Nothing is lost exactly if there is a string, and no string ends where a buffer has one byte left: `snprintf` is told of
-- one byte less than the test behind it counts on. The other limits are those of an `int` and of a `size_t`.
theorem collect_lossless {alloc : Nat -> Bool} (fresh : Nat -> UInt8) {strings : List CString} {sep : Option CString}
    (allocates : ∀ size, alloc size = true) (some_ : ∀ s ∈ strings, s ≠ []) (noNul : ∀ s ∈ strings, 0 ∉ s)
    (sepNul : 0 ∉ sep.getD (cstr ",")) :
    CollectsAll alloc fresh strings sep ↔ strings ≠ [] ∧ AllFit (sep.getD (cstr ",")) [] strings := by
  constructor
  · intro collects
    have any : strings ≠ [] := by
      rintro rfl
      obtain ⟨out, returned, _⟩ := collects
      cases returned
    refine ⟨any, ?_⟩
    by_contra unfit
    exact collectsAll_lost allocates any some_ unfit collects
  · rintro ⟨any, fit⟩
    exact collectsAll_whole allocates any some_ noNul sepNul fit

theorem collect_lossless_sample : CollectsAll (fun _ => true) (fun _ => 7) [cstr "ups", cstr "second"] none ↔
      [cstr "ups", cstr "second"] ≠ [] ∧ AllFit ((none : Option CString).getD (cstr ",")) [] [cstr "ups", cstr "second"] :=
  collect_lossless _ (fun _ => rfl) (by decide) (by decide) (by decide)

-- A name of 511 bytes, whose last one is lost.
theorem collect_loses :
    ¬ ∀ (fresh : Nat -> UInt8) (strings : List CString) (sep : Option CString), (∀ s ∈ strings, s ≠ []) ->
        strings ≠ [] -> CollectsAll (fun _ => true) fresh strings sep := by
  intro all
  have long : (List.replicate 511 (97 : UInt8)).length = 511 := List.length_replicate
  have some_ : ∀ s ∈ [List.replicate 511 (97 : UInt8)], s ≠ [] := by
    rintro s member rfl
    obtain same := List.mem_singleton.mp member
    rw [<- same] at long
    cases long
  refine collectsAll_lost (fun _ => rfl) (List.cons_ne_nil _ _) some_ (fun fit => ?_)
    (all (fun _ => 0) [List.replicate 511 97] none some_ (List.cons_ne_nil _ _))
  refine (fit [] _ [] rfl).whole ?_
  rw [List.append_nil, intercalate_snoc, List.length_append, pieceBehind, List.length_append, long]
  rfl

end Nut
