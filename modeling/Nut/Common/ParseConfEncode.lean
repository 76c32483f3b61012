import Nut.Common.ParseConfWords

set_option autoImplicit false

namespace Nut

theorem parseChar_not_done {ctx : PconfCtx} (running : lineDone ctx = false) {b : UInt8}
    (notNewline : b ≠ 10) : lineDone (parseChar ctx (charToInt b)) = false := by
  have ended : ctx.state ≠ .endofline ∧ ctx.state ≠ .parseerr := by
    simpa [lineDone] using running
  cases state : ctx.state <;> simp only [lineDone, parseChar, state, enter, findwordstart, findeol,
    quotecollect, qcLiteral, collect, collectliteral] <;> (try split_ifs) <;> simp_all

theorem parseUntilDone_line (ctx : PconfCtx) (running : lineDone ctx = false) {text : CString}
    (oneLine : ∀ b ∈ text, b ≠ 10) (rest : CString) (done : lineDone (runChars ctx (text ++ [10])) = true) :
    parseUntilDone charToInt ctx (text ++ 10 :: rest) = (runChars ctx (text ++ [10]), some rest) := by
  induction text generalizing ctx with
  | nil =>
    simp only [List.nil_append, runChars_cons, runChars_nil] at done
    simp [parseUntilDone, done]
  | cons b text ih =>
    have still := parseChar_not_done running (oneLine b (by simp))
    simp only [List.cons_append, parseUntilDone, still, Bool.false_eq_true, if_false, runChars_cons]
    exact ih _ still (fun c member => oneLine c (by simp [member])) (by simpa using done)

theorem QuotedAs.isText {written meaning : CString} (quoted : QuotedAs written meaning) :
    ∀ b ∈ written, isText b = true := by
  induction quoted with
  | nil => simp
  | raw text _ _ _ ih => simpa [text] using ih
  | escaped text _ ih =>
    have backslash : Nut.isText 92 = true := rfl
    simpa [text, backslash] using ih

theorem BareAs.isText {written meaning : CString} (bare : BareAs written meaning) : ∀ b ∈ written, isText b = true := by
  induction bare with
  | nil => simp
  | raw bare _ ih => simpa [(isBare_iff.mp bare).1] using ih
  | escaped text _ ih =>
    have backslash : Nut.isText 92 = true := rfl
    simpa [text, backslash] using ih

theorem Token.isText {written meaning : CString} (token : Token written meaning) : ∀ b ∈ written, isText b = true := by
  cases token with
  | bare rest _ _ => exact rest.isText
  | quoted rest =>
    have quote : Nut.isText 34 = true := rfl
    intro b member
    simp only [List.cons_append, List.mem_cons, List.mem_append, List.not_mem_nil, or_false] at member
    rcases member with rfl | inside | rfl
    · exact quote
    · exact rest.isText b inside
    · exact quote
  | equals => simp [show Nut.isText 61 = true from rfl]

theorem LineOf.isText {text : CString} {words : List CString} (line : LineOf text words) :
    ∀ b ∈ text, isText b = true := by
  induction line with
  | last token => exact token.isText
  | more token _ ih =>
    have space : Nut.isText 32 = true := rfl
    intro b member
    simp only [List.mem_append, List.mem_cons] at member
    rcases member with first | rfl | later
    · exact token.isText b first
    · exact space
    · exact ih b later

theorem isText_noNul {text : CString} (printable : ∀ b ∈ text, isText b = true) : 0 ∉ text :=
  fun nul => absurd (printable 0 nul) (by decide)

theorem pconfLine_line (ctx : PconfCtx) (empty : ctx.wordbuf = []) {text : CString}
    {words : List CString} (line : LineOf text words) : pconfLine ctx (text ++ [10]) =
      ⟨.endofline, addArgs ctx.argLimit ctx.wordlenLimit [] words, [], ctx.argLimit, ctx.wordlenLimit⟩ := by
  have start : startLine ctx = ⟨.findwordstart, [], [], ctx.argLimit, ctx.wordlenLimit⟩ := by
    simp [startLine, empty]
  have run := run_line [] ctx.argLimit ctx.wordlenLimit line
  have parsed := parseUntilDone_line (startLine ctx) rfl
    (fun b member => isText_ne_newline (line.isText b member)) [] (by rw [start, run]; rfl)
  have noNul : 0 ∉ text ++ [10] := by simpa using isText_noNul line.isText
  rw [pconfLine_text ctx noNul, parsed, start, run]

def escapeAll (text : CString) : CString :=
  text.flatMap fun b => if pconfEscape b then [92, b] else [b]

@[simp] theorem escapeAll_nil : escapeAll [] = [] := rfl

theorem escapeAll_cons (b : UInt8) (text : CString) :
    escapeAll (b :: text) = (if pconfEscape b then [92, b] else [b]) ++ escapeAll text := rfl

theorem escapeAll_append (a b : CString) : escapeAll (a ++ b) = escapeAll a ++ escapeAll b := by
  simp [escapeAll]

theorem escapeAll_longer (text : CString) : text.length ≤ (escapeAll text).length := by
  induction text with
  | nil => exact Nat.le_refl _
  | cons b text ih =>
    rw [escapeAll_cons, List.length_append, List.length_cons]
    split <;> simp <;> omega

def fitPrefix (room : Nat) : CString -> CString
  | [] => []
  | b :: rest =>
    let width := if pconfEscape b then 2 else 1
    if width ≤ room then b :: fitPrefix (room - width) rest else []

theorem fitPrefix_initial (room : Nat) (text : CString) : fitPrefix room text <+: text := by
  induction text generalizing room with
  | nil => simp [fitPrefix]
  | cons b rest ih =>
    by_cases special : pconfEscape b = true <;>
      simp only [fitPrefix, special, if_true, if_false, Bool.false_eq_true] <;> split
    · exact (List.prefix_cons_inj b).mpr (ih _)
    · exact List.nil_prefix
    · exact (List.prefix_cons_inj b).mpr (ih _)
    · exact List.nil_prefix

theorem escapeAll_fitPrefix_length (room : Nat) (text : CString) : (escapeAll (fitPrefix room text)).length ≤ room := by
  induction text generalizing room with
  | nil => simp [fitPrefix]
  | cons b rest ih =>
    by_cases special : pconfEscape b = true <;>
      simp only [fitPrefix, special, if_true, if_false, Bool.false_eq_true] <;> split
    all_goals simp only [escapeAll_cons, special, escapeAll_nil, if_true, if_false, Bool.false_eq_true,
      List.length_append, List.length_cons, List.length_nil]
    · have := ih (room - 2); omega
    · omega
    · have := ih (room - 1); omega
    · omega

theorem escapeAll_fitPrefix_full {room : Nat} {text : CString} (long : room < (escapeAll text).length) :
    room ≤ (escapeAll (fitPrefix room text)).length + 1 := by
  induction text generalizing room with
  | nil => simp at long
  | cons b rest ih =>
    by_cases special : pconfEscape b = true
    all_goals
      simp only [escapeAll_cons, special, if_true, if_false, Bool.false_eq_true, List.length_append,
        List.length_cons, List.length_nil] at long
      simp only [fitPrefix, special, if_true, if_false, Bool.false_eq_true]
      split
    · have later := @ih (room - 2) (by omega)
      simp only [escapeAll_cons, special, if_true, List.length_append, List.length_cons, List.length_nil]
      omega
    · omega
    · have later := @ih (room - 1) (by omega)
      simp only [escapeAll_cons, special, if_false, Bool.false_eq_true, List.length_append, List.length_cons,
        List.length_nil]
      omega
    · omega

theorem fitPrefix_longest {room : Nat} {text candidate : CString} (isPrefix : candidate <+: text)
    (fits : (escapeAll candidate).length ≤ room) : candidate <+: fitPrefix room text := by
  induction text generalizing room candidate with
  | nil => simpa [fitPrefix] using isPrefix
  | cons b rest ih =>
    cases candidate with
    | nil => exact List.nil_prefix
    | cons c candidate =>
      obtain ⟨rfl, tail⟩ := List.cons_prefix_cons.mp isPrefix
      by_cases special : pconfEscape c = true
      · simp only [escapeAll_cons, special, if_true, List.length_append, List.length_cons,
          List.length_nil] at fits
        have room2 : 2 ≤ room := by omega
        simp only [fitPrefix, special, if_true, room2]
        exact (List.prefix_cons_inj c).mpr (ih tail (by omega))
      · simp only [escapeAll_cons, special, Bool.false_eq_true, if_false, List.length_append,
          List.length_cons, List.length_nil] at fits
        have room1 : 1 ≤ room := by omega
        simp only [fitPrefix, special, Bool.false_eq_true, if_false, room1, if_true]
        exact (List.prefix_cons_inj c).mpr (ih tail (by omega))

theorem fitPrefix_all {room : Nat} {text : CString} (fits : (escapeAll text).length ≤ room) :
    fitPrefix room text = text := (fitPrefix_initial room text).eq_of_length_le
    (fitPrefix_longest (List.prefix_refl text) fits).length_le

theorem pconfEncodeLoop_eq {maxlen : Nat} (positive : 1 ≤ maxlen) (src dest : CString) (room : dest.length ≤ maxlen) :
    pconfEncodeLoop maxlen src dest = dest ++ escapeAll (fitPrefix (maxlen - dest.length) src) := by
  have pred : sizePred maxlen = maxlen - 1 := by
    rw [sizePred, if_neg (by omega)]
  induction src generalizing dest with
  | nil => simp [pconfEncodeLoop, fitPrefix]
  | cons b src ih =>
    by_cases special : pconfEscape b = true
    · by_cases full : dest.length ≥ maxlen - 1
      · have tight : ¬ 2 ≤ maxlen - dest.length := by omega
        simp [pconfEncodeLoop, fitPrefix, special, pred, full, tight]
      · have open_ : ¬ dest.length + 1 ≥ maxlen := by omega
        have wide : 2 ≤ maxlen - dest.length := by omega
        have next := ih (dest ++ [92, b]) (by simp; omega)
        have left : maxlen - (dest ++ [92, b]).length = maxlen - dest.length - 2 := by simp; omega
        rw [left] at next
        simp [pconfEncodeLoop, fitPrefix, special, pred, full, open_, wide, next, escapeAll_cons]
    · by_cases full : dest.length ≥ maxlen
      · simp [pconfEncodeLoop, fitPrefix, special, full]
      · have wide : 1 ≤ maxlen - dest.length := by omega
        have next := ih (dest ++ [b]) (by simp; omega)
        have left : maxlen - (dest ++ [b]).length = maxlen - dest.length - 1 := by simp; omega
        rw [left] at next
        simp [pconfEncodeLoop, fitPrefix, special, full, wide, next, escapeAll_cons]

theorem pconfEncode_eq {destsize : Nat} (room : 2 ≤ destsize) (src old : CString) :
    pconfEncode src old destsize = escapeAll (fitPrefix (destsize - 1) src) := by
  rw [pconfEncode, if_neg (by omega), pconfEncodeLoop_eq (by omega) src [] (by simp)]
  simp

theorem pconfEncode_whole {destsize : Nat} {src : CString} (fits : (escapeAll src).length < destsize)
    (room : 2 ≤ destsize) (old : CString) : pconfEncode src old destsize = escapeAll src := by
  rw [pconfEncode_eq room, fitPrefix_all (by omega)]

theorem pconfEncode_length {destsize : Nat} (room : 2 ≤ destsize) (src old : CString) :
    (pconfEncode src old destsize).length ≤ destsize - 1 := by
  rw [pconfEncode_eq room]
  exact escapeAll_fitPrefix_length _ _

theorem quotedAs_escapeAll {text : CString} (isText : ∀ b ∈ text, Nut.isText b = true) :
    QuotedAs (escapeAll text) text := by
  induction text with
  | nil => exact .nil
  | cons b rest ih =>
    have head := isText b (by simp)
    have tail := ih (fun c member => isText c (by simp [member]))
    by_cases special : pconfEscape b = true
    · simp only [escapeAll_cons, special, if_true]
      exact .escaped head tail
    · have plain : b ≠ 35 ∧ b ≠ 92 ∧ b ≠ 34 := by simpa [pconfEscape, and_assoc] using special
      simp only [escapeAll_cons, special, if_false, Bool.false_eq_true]
      exact .raw head plain.2.2 plain.2.1 tail

theorem bareAs_escapeAll {text : CString} (isText : ∀ b ∈ text, Nut.isText b = true)
    (free : ∀ b ∈ text, b ≠ 32 ∧ b ≠ 61) : BareAs (escapeAll text) text := by
  induction text with
  | nil => exact .nil
  | cons b rest ih =>
    have head := isText b List.mem_cons_self
    have tail := ih (fun c member => isText c (List.mem_cons_of_mem b member))
      fun c member => free c (List.mem_cons_of_mem b member)
    obtain ⟨notSpace, notEquals⟩ := free b List.mem_cons_self
    by_cases special : pconfEscape b = true
    · simp only [escapeAll_cons, special, if_true]
      exact .escaped head tail
    · have plain : b ≠ 35 ∧ b ≠ 92 ∧ b ≠ 34 := by simpa [pconfEscape, and_assoc] using special
      simp only [escapeAll_cons, special, if_false, Bool.false_eq_true]
      exact .raw (isBare_iff.mpr ⟨head, notSpace, plain.1, notEquals, plain.2.1⟩) tail

@[simp] theorem escapeAll_eq_nil {text : CString} : escapeAll text = [] ↔ text = [] := by
  cases text with
  | nil => simp
  | cons b rest => simp only [escapeAll_cons]; split <;> simp

theorem isText_initial {part text : CString} (isPrefix : part <+: text)
    (isText : ∀ b ∈ text, Nut.isText b = true) : ∀ b ∈ part, Nut.isText b = true :=
  fun b member => isText b (isPrefix.subset member)

-- The encoded text between double quotes parses back to one word: the source when its encoding fits,
-- and otherwise the longest prefix of it whose encoding does (up to the word length limit).
theorem pconfEncode_roundtrip (argLimit wordlenLimit destsize : Nat) (src old : CString)
    (printable : ∀ b ∈ src, isText b = true) (room : 2 ≤ destsize) :
    ∃ p, (pconfLine (pconfInitWith argLimit wordlenLimit)
          (34 :: pconfEncode src old destsize ++ [34, 10])).arglist = [clip wordlenLimit p] ∧ p <+: src ∧
      (∀ size, (escapeAll src).length < size -> 2 ≤ size -> pconfEncode src old size = escapeAll src) ∧
      ((escapeAll src).length < destsize -> p = src) ∧ (escapeAll p).length ≤ destsize - 1 ∧
      (∀ q, q <+: src -> (escapeAll q).length ≤ destsize - 1 -> q <+: p) := by
  have isPrefix := fitPrefix_initial (destsize - 1) src
  refine ⟨fitPrefix (destsize - 1) src, ?_, isPrefix, ?_, ?_, escapeAll_fitPrefix_length _ _, ?_⟩
  · have quoted := quotedAs_escapeAll (isText_initial isPrefix printable)
    have parsed := pconfLine_line (pconfInitWith argLimit wordlenLimit) rfl (.last (.quoted quoted))
    have text : 34 :: pconfEncode src old destsize ++ [34, 10] =
        34 :: escapeAll (fitPrefix (destsize - 1) src) ++ [34] ++ [10] := by
      simp [pconfEncode_eq room]
    rw [text, parsed]
    simp only [pconfInitWith, addArgs, List.foldl_cons, List.foldl_nil, addArg]
    by_cases unlimited : argLimit = 0
    · simp [unlimited]
    · simp [unlimited]
  · intro size fits wide
    exact pconfEncode_whole fits wide old
  · intro fits
    exact fitPrefix_all (by omega)
  · intro q qPrefix fits
    exact fitPrefix_longest qPrefix fits

theorem pconfEncode_roundtrip_short :
    ∃ p, (pconfLine (pconfInitWith 32 512) (34 :: pconfEncode (cstr "##") [] 4 ++ [34, 10])).arglist = [clip 512 p] ∧
      p <+: cstr "##" ∧ (∀ size, (escapeAll (cstr "##")).length < size -> 2 ≤ size ->
        pconfEncode (cstr "##") [] size = escapeAll (cstr "##")) ∧
      ((escapeAll (cstr "##")).length < 4 -> p = cstr "##") ∧ (escapeAll p).length ≤ 4 - 1 ∧
      (∀ q, q <+: cstr "##" -> (escapeAll q).length ≤ 4 - 1 -> q <+: p) :=
  pconfEncode_roundtrip 32 512 4 (cstr "##") [] (by decide +kernel) (by decide)

end Nut
