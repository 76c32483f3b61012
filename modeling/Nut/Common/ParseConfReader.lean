import Mathlib.Data.List.Forall2
import Nut.Common.ParseConfEncode

set_option autoImplicit false

namespace Nut

section Reader

variable {σ : Type} (handle : σ -> List CString -> σ)

def readChars : PconfCtx × σ -> CString -> PconfCtx × σ
  | (ctx, s), [] => (ctx, s)
  | (ctx, s), ch :: rest =>
    let next := pconfChar ctx ch
    if next.2 = 1 then readChars (next.1, handle s next.1.arglist) rest
    else if next.2 = 0 then readChars (next.1, s) rest
    else (next.1, s)

def readCtx : PconfCtx -> CString -> PconfCtx
  | ctx, [] => ctx
  | ctx, ch :: rest =>
    let next := pconfChar ctx ch
    if next.2 = 1 ∨ next.2 = 0 then readCtx next.1 rest else next.1

def readLines : PconfCtx -> CString -> List (List CString)
  | _, [] => []
  | ctx, ch :: rest =>
    let next := pconfChar ctx ch
    if next.2 = 1 then next.1.arglist :: readLines next.1 rest
    else if next.2 = 0 then readLines next.1 rest
    else []

theorem readChars_eq (ctx : PconfCtx) (s : σ) (text : CString) :
    readChars handle (ctx, s) text = (readCtx ctx text, (readLines ctx text).foldl handle s) := by
  induction text generalizing ctx s with
  | nil => rfl
  | cons ch rest ih =>
    by_cases done : (pconfChar ctx ch).2 = 1
    · simp [readChars, readCtx, readLines, done, ih]
    · by_cases more : (pconfChar ctx ch).2 = 0 <;>
        simp [readChars, readCtx, readLines, done, more, ih]

theorem pconfChar_more {ctx : PconfCtx} (running : lineDone ctx = false) {b : UInt8}
    (notNewline : b ≠ 10) : pconfChar ctx b = (parseChar ctx (charToInt b), 0) := by
  have still := parseChar_not_done running notNewline
  simp only [lineDone, Bool.or_eq_false_iff, beq_eq_false_iff_ne] at still
  simp only [pconfChar, running, Bool.false_eq_true, if_false, still.1, still.2]

theorem readChars_running {ctx : PconfCtx} (running : lineDone ctx = false) (s : σ) {text : CString}
    (oneLine : ∀ b ∈ text, b ≠ 10) (rest : CString) (done : (runChars ctx (text ++ [10])).state = .endofline) :
    readChars handle (ctx, s) (text ++ 10 :: rest) = readChars handle (runChars ctx (text ++ [10]),
        handle s (runChars ctx (text ++ [10])).arglist) rest := by
  induction text generalizing ctx with
  | nil =>
    simp only [List.nil_append, runChars_cons, runChars_nil] at done
    have step : pconfChar ctx 10 = (parseChar ctx (charToInt 10), 1) := by
      simp [pconfChar, running, done]
    simp [readChars, step]
  | cons b text ih =>
    have notNewline := oneLine b (by simp)
    have step := pconfChar_more running notNewline
    have still := parseChar_not_done running notNewline
    simp only [List.cons_append, readChars, step, runChars_cons]
    exact ih still (fun c member => oneLine c (by simp [member])) (by simpa using done)

def AtLineStart (ctx : PconfCtx) : Prop :=
  ctx.wordbuf = [] ∧ (lineDone ctx = true ∨ ctx.state = .findwordstart ∧ ctx.arglist = [])

theorem atLineStart_init (argLimit wordlenLimit : Nat) : AtLineStart (pconfInitWith argLimit wordlenLimit) :=
  ⟨rfl, Or.inr ⟨rfl, rfl⟩⟩

theorem readChars_startLine {ctx : PconfCtx} (start : AtLineStart ctx) (s : σ) {text : CString} (more : text ≠ []) :
    readChars handle (ctx, s) text =
      readChars handle (⟨.findwordstart, [], [], ctx.argLimit, ctx.wordlenLimit⟩, s) text := by
  obtain ⟨noWord, done | fresh⟩ := start
  · have reset : startLine ctx = ⟨.findwordstart, [], [], ctx.argLimit, ctx.wordlenLimit⟩ := by
      simp [startLine, noWord]
    cases text with
    | nil => exact absurd rfl more
    | cons b rest =>
      have same : pconfChar ctx b = pconfChar (startLine ctx) b := by
        have open_ : lineDone (startLine ctx) = false := rfl
        simp [pconfChar, done, open_]
      simp only [readChars, <- reset, same]
  · have same : ctx = ⟨.findwordstart, [], [], ctx.argLimit, ctx.wordlenLimit⟩ := by
      cases ctx
      simp_all
    rw [<- same]

def IsLine (argLimit wordlenLimit : Nat) (line : CString) (words : List CString) : Prop :=
  ∃ text, line = text ++ [10] ∧ LineOf text words ∧ words.length ≤ argLimit ∧
    ∀ word ∈ words, word.length ≤ wordlenLimit

theorem readChars_line {ctx : PconfCtx} (start : AtLineStart ctx) (s : σ) {line : CString}
    {words : List CString} (isLine : IsLine ctx.argLimit ctx.wordlenLimit line words) (rest : CString) :
    readChars handle (ctx, s) (line ++ rest) =
      readChars handle (⟨.endofline, words, [], ctx.argLimit, ctx.wordlenLimit⟩, handle s words) rest := by
  obtain ⟨text, rfl, lineOf, few, short⟩ := isLine
  have run := run_line [] ctx.argLimit ctx.wordlenLimit lineOf
  rw [addArgs_fits (by simpa using few) short, List.nil_append] at run
  rw [readChars_startLine handle start s (by simp), List.append_assoc, List.singleton_append,
    readChars_running handle rfl s (fun b member => isText_ne_newline (lineOf.isText b member)) rest (by rw [run]), run]

theorem readChars_lines {ctx : PconfCtx} (start : AtLineStart ctx) (s : σ) {lines : List CString}
    {words : List (List CString)} (areLines : List.Forall₂ (IsLine ctx.argLimit ctx.wordlenLimit) lines words) :
    ∃ after, readChars handle (ctx, s) lines.flatten = (after, words.foldl handle s) ∧
      AtLineStart after ∧ after.argLimit = ctx.argLimit ∧ after.wordlenLimit = ctx.wordlenLimit := by
  generalize first : ctx.argLimit = argLimit at areLines
  generalize second : ctx.wordlenLimit = wordlenLimit at areLines
  induction areLines generalizing ctx s with
  | nil => exact ⟨ctx, rfl, start, first, second⟩
  | @cons line words lines rest isLine _ ih =>
    rw [<- first, <- second] at isLine
    rw [List.flatten_cons, readChars_line handle start s isLine]
    exact ih ⟨rfl, Or.inl rfl⟩ (handle s words) first second

end Reader

theorem LineOf.ofToken {written meaning text : CString} {words : List CString}
    (token : Token written meaning) (rest : LineOf text words) :
    LineOf (written ++ [32] ++ text) (meaning :: words) := by
  simpa using LineOf.more token rest

def Plain (text : CString) : Prop :=
  ∀ b ∈ text, isText b = true ∧ b ≠ 34 ∧ b ≠ 92

theorem quotedAs_plain {text : CString} (plain : Plain text) : QuotedAs text text := by
  induction text with
  | nil => exact .nil
  | cons b rest ih =>
    obtain ⟨isText, noQuote, noEscape⟩ := plain b (by simp)
    exact .raw isText noQuote noEscape (ih fun c member => plain c (by simp [member]))

theorem bareAs_self {text : CString} (bare : ∀ b ∈ text, isBare b = true) : BareAs text text := by
  induction text with
  | nil => exact .nil
  | cons b rest ih => exact .raw (bare b (by simp)) (ih fun c member => bare c (by simp [member]))

def BareWord (text : CString) : Prop :=
  text ≠ [] ∧ text.head? ≠ some 34 ∧ ∀ b ∈ text, isBare b = true

instance (text : CString) : Decidable (BareWord text) :=
  decidable_of_iff (text ≠ [] ∧ text.head? ≠ some 34 ∧ text.all isBare = true) (by simp [BareWord])

theorem BareWord.token {text : CString} (bare : BareWord text) : Token text text :=
  .bare (bareAs_self bare.2.2) bare.1 bare.2.1

def Word (name : CString) : Prop :=
  BareWord name ∨ name = [61]

theorem Word.token {name : CString} (word : Word name) : Token name name := by
  obtain bare | rfl := word
  · exact bare.token
  · exact .equals

theorem token_quoted {written meaning : CString} (quoted : QuotedAs written meaning) :
    Token ([34] ++ written ++ [34]) meaning := .quoted quoted

end Nut
