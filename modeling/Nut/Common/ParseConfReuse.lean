import Nut.Common.ParseConfFeeds
import Nut.Common.ParseConfGrowth

set_option autoImplicit false

namespace Nut

theorem parseUntilDone_keeps {P : PconfCtx -> Prop} (keeps : ∀ ctx ch, P ctx -> P (parseChar ctx ch))
    (toInt : UInt8 -> Int) {ctx : PconfCtx} (start : P ctx) (text : CString) : P (parseUntilDone toInt ctx text).1 := by
  induction text generalizing ctx with
  | nil => exact start
  | cons b rest ih =>
    simp only [parseUntilDone]
    split
    · exact keeps ctx _ start
    · exact ih (keeps ctx _ start)

theorem parseUntilDone_done {toInt : UInt8 -> Int} {ctx next : PconfCtx} {text rest : CString}
    (parsed : parseUntilDone toInt ctx text = (next, some rest)) : lineDone next = true := by
  induction text generalizing ctx with
  | nil => simp [parseUntilDone] at parsed
  | cons b tail ih =>
    simp only [parseUntilDone] at parsed
    split at parsed
    next done =>
      cases parsed
      exact done
    next => exact ih parsed

section Words

def Emptied (ctx : PconfCtx) : Prop :=
  ctx.state ≠ .parseerr ∧
    (ctx.state = .findwordstart ∨ ctx.state = .findeol ∨ ctx.state = .endofline -> ctx.wordbuf = [])

theorem emptied_parseChar (ctx : PconfCtx) (ch : Int) (emptied : Emptied ctx) : Emptied (parseChar ctx ch) := by
  refine ⟨parseChar_ne_parseerr emptied.1 ch, ?_⟩
  have empty := emptied.2
  cases state : ctx.state
  all_goals
    simp only [parseChar, state, enter, findwordstart, findeol, quotecollect, qcLiteral, collect, collectliteral]
    (try split_ifs) <;> simp_all [endofword_empty]

theorem emptied_startLine {ctx : PconfCtx} (empty : ctx.wordbuf = []) : Emptied (startLine ctx) :=
  ⟨by simp [startLine], fun _ => empty⟩

theorem emptied_done {ctx : PconfCtx} (emptied : Emptied ctx) (done : lineDone ctx = true) : ctx.wordbuf = [] := by
  simp only [lineDone, Bool.or_eq_true, beq_iff_eq] at done
  obtain ended | failed := done
  · exact emptied.2 (.inr (.inr ended))
  · exact absurd failed emptied.1

theorem pconfLine_wordbuf {ctx : PconfCtx} (empty : ctx.wordbuf = []) (line : CString) :
    (pconfLine ctx line).wordbuf = [] := by
  have kept := parseUntilDone_keeps emptied_parseChar charToInt (emptied_startLine empty) (line.takeWhile (· ≠ 0))
  unfold pconfLine
  split
  next next _ parsed =>
    rw [parsed] at kept
    exact emptied_done kept (parseUntilDone_done parsed)
  next next parsed =>
    split
    · exact endofword_empty next
    next none_ => simpa using none_

end Words

section Limits

variable {argLimit wordlenLimit : Nat}

def Acceptable (wordlenLimit : Nat) (word : CString) : Prop :=
  (wordlenLimit ≠ 0 -> word.length ≤ wordlenLimit) ∧ ∀ b ∈ word, isText b = true

structure WithinLimits (argLimit wordlenLimit : Nat) (ctx : PconfCtx) : Prop where
  args : ctx.argLimit = argLimit
  length : ctx.wordlenLimit = wordlenLimit
  few : argLimit ≠ 0 -> ctx.arglist.length ≤ argLimit
  word : Acceptable wordlenLimit ctx.wordbuf
  words : ∀ word ∈ ctx.arglist, Acceptable wordlenLimit word

theorem acceptable_nil : Acceptable wordlenLimit [] := ⟨fun _ => Nat.zero_le _, by simp⟩

variable {ctx : PconfCtx}

theorem within_state (within : WithinLimits argLimit wordlenLimit ctx) (state : PconfState) :
    WithinLimits argLimit wordlenLimit { ctx with state } :=
  { within with }

theorem within_addchar (within : WithinLimits argLimit wordlenLimit ctx) (ch : Int) :
    WithinLimits argLimit wordlenLimit (addchar ctx ch) := by
  unfold addchar
  split_ifs with outside full
  · exact within
  · exact within
  · refine { within with word := ⟨?_, ?_⟩ }
    · intro limited
      rw [within.length] at full
      simp only [List.length_append, List.length_singleton]
      omega
    · intro b member
      obtain earlier | last := List.mem_append.mp member
      · exact within.word.2 b earlier
      · rw [List.mem_singleton.mp last, isText_iff, UInt8.toNat_ofNat']
        omega

theorem within_endofword (within : WithinLimits argLimit wordlenLimit ctx) :
    WithinLimits argLimit wordlenLimit (endofword ctx) := by
  unfold endofword
  split_ifs with full
  · exact { within with word := acceptable_nil }
  · refine ⟨within.args, within.length, ?_, acceptable_nil, ?_⟩
    · intro limited
      rw [within.args] at full
      simp only [List.length_append, List.length_singleton]
      omega
    · intro word member
      obtain earlier | last := List.mem_append.mp member
      · exact within.words word earlier
      · rw [List.mem_singleton.mp last]
        exact within.word

theorem within_findwordstart (within : WithinLimits argLimit wordlenLimit ctx) (ch : Int) :
    WithinLimits argLimit wordlenLimit (findwordstart ctx ch).1 := by
  unfold findwordstart
  split_ifs
  all_goals first
    | exact within
    | exact within_endofword (within_addchar within ch)
    | exact within_addchar within ch

theorem within_parseChar (ctx : PconfCtx) (ch : Int) (within : WithinLimits argLimit wordlenLimit ctx) :
    WithinLimits argLimit wordlenLimit (parseChar ctx ch) := by
  cases state : ctx.state <;>
    simp only [parseChar, state, findeol, quotecollect, qcLiteral, collect, collectliteral]
  all_goals try split_ifs
  all_goals first
    | exact within
    | exact within_state within _
    | exact within_state (within_addchar within ch) _
    | exact within_state (within_endofword within) _
    | exact within_state (within_findwordstart (within_endofword within) ch) _
    | exact within_state (within_findwordstart within ch) _

theorem within_startLine (within : WithinLimits argLimit wordlenLimit ctx) :
    WithinLimits argLimit wordlenLimit (startLine ctx) :=
  { within with few := fun _ => Nat.zero_le _, words := by simp [startLine] }

theorem within_pconfLine (within : WithinLimits argLimit wordlenLimit ctx) (line : CString) :
    WithinLimits argLimit wordlenLimit (pconfLine ctx line) := by
  have kept := parseUntilDone_keeps within_parseChar charToInt (within_startLine within) (line.takeWhile (· ≠ 0))
  unfold pconfLine
  split
  next next _ parsed => rwa [parsed] at kept
  next next parsed =>
    rw [parsed] at kept
    split
    · exact within_endofword kept
    · exact kept

theorem within_init (argLimit wordlenLimit : Nat) :
    WithinLimits argLimit wordlenLimit (pconfInitWith argLimit wordlenLimit) :=
  ⟨rfl, rfl, fun _ => Nat.zero_le _, acceptable_nil, by simp [pconfInitWith]⟩

end Limits

theorem pconfLine_fresh {argLimit wordlenLimit : Nat} {ctx : PconfCtx}
    (within : WithinLimits argLimit wordlenLimit ctx) (empty : ctx.wordbuf = []) (line : CString) :
    pconfLine ctx line = pconfLine (pconfInitWith argLimit wordlenLimit) line := by
  have same : startLine ctx = startLine (pconfInitWith argLimit wordlenLimit) := by
    simp [startLine, pconfInitWith, empty, within.args, within.length]
  rw [pconfLine, same, pconfLine]

end Nut
