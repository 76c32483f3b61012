import Nut.Common.ParseConf

set_option autoImplicit false

namespace Nut

def charLists (ctx : PconfCtx) : CString -> List (List CString)
  | [] => []
  | b :: rest =>
    let next := pconfChar ctx b
    if next.2 = 1 then next.1.arglist :: charLists next.1 rest else charLists next.1 rest

def cutLines (ctx : PconfCtx) (piece : CString) : CString -> List CString
  | [] => []
  | b :: rest =>
    let next := pconfChar ctx b
    if next.2 = 1 then (piece ++ [b]) :: cutLines next.1 [] rest
    else cutLines next.1 (piece ++ [b]) rest

def lineLists (ctx : PconfCtx) : List CString -> List (List CString)
  | [] => []
  | line :: rest =>
    let next := pconfLine ctx line
    next.arglist :: lineLists next rest

def feedChars (ctx : PconfCtx) (text : CString) : PconfCtx :=
  text.foldl (fun ctx b => (pconfChar ctx b).1) ctx

-- Nothing of a further line has been read when the text is over.
def CompleteLines (ctx : PconfCtx) (text : CString) : Prop :=
  text = [] ∨ (feedChars ctx text).state = .endofline

theorem charToInt_large {b : UInt8} (large : 128 ≤ b.toNat) : charToInt b < 0 := by
  have bound := b.toNat_lt
  unfold charToInt
  split <;> omega

theorem addchar_outside {ctx : PconfCtx} {ch : Int} (outside : ch < 0x20 ∨ ch > 0x7f) : addchar ctx ch = ctx := by
  rw [addchar, if_pos outside]

theorem isspace_outside {ch : Int} (outside : ch < 0 ∨ ch > 0x7f) : isspace ch = false := by
  simp only [isspace, Bool.or_eq_false_iff, beq_eq_false_iff_ne, Bool.and_eq_false_iff,
    decide_eq_false_iff_not]
  omega

theorem parseChar_outside (ctx : PconfCtx) {ch ch' : Int} (low : ch < 0 ∨ ch > 0x7f)
    (high : ch' < 0 ∨ ch' > 0x7f) : parseChar ctx ch = parseChar ctx ch' := by
  have dropped (ctx : PconfCtx) (ch : Int) (out : ch < 0 ∨ ch > 0x7f) : addchar ctx ch = ctx :=
    addchar_outside (by omega)
  have differs (ch : Int) (out : ch < 0 ∨ ch > 0x7f) : ch ≠ 10 ∧ ch ≠ 35 ∧ ch ≠ 92 ∧ ch ≠ 34 ∧ ch ≠ 61 := by omega
  obtain ⟨newline, hash, backslash, quote, equals⟩ := differs ch low
  obtain ⟨newline', hash', backslash', quote', equals'⟩ := differs ch' high
  cases state : ctx.state <;>
    simp [parseChar, state, findwordstart, findeol, quotecollect, qcLiteral, collect, collectliteral,
      dropped _ _ low, dropped _ _ high, isspace_outside low, isspace_outside high, newline, hash,
      backslash, quote, equals, newline', hash', backslash', quote', equals']

theorem parseChar_fgetc (ctx : PconfCtx) (b : UInt8) : parseChar ctx (fgetcToInt b) = parseChar ctx (charToInt b) := by
  by_cases small : b.toNat < 128
  · simp [fgetcToInt, charToInt, small]
  · apply parseChar_outside
    · right
      simp only [fgetcToInt]
      omega
    · exact Or.inl (charToInt_large (by omega))

theorem parseUntilDone_fgetc (ctx : PconfCtx) (text : CString) :
    parseUntilDone fgetcToInt ctx text = parseUntilDone charToInt ctx text := by
  induction text generalizing ctx with
  | nil => rfl
  | cons b rest ih => simp only [parseUntilDone, parseChar_fgetc, ih]

theorem parseChar_ne_parseerr {ctx : PconfCtx} (sane : ctx.state ≠ .parseerr) (ch : Int) :
    (parseChar ctx ch).state ≠ .parseerr := by
  cases state : ctx.state <;> simp only [parseChar, state, enter, findwordstart, findeol,
    quotecollect, qcLiteral, collect, collectliteral] <;> (try split_ifs) <;> simp_all

theorem pconfChar_reads (ctx : PconfCtx) (ch : UInt8) : (pconfChar ctx ch).2 = 1 ∨ (pconfChar ctx ch).2 = 0 := by
  have sane : (if lineDone ctx then startLine ctx else ctx).state ≠ .parseerr := by
    split
    next => exact PconfState.noConfusion
    next running => simp_all [lineDone]
  have read := parseChar_ne_parseerr sane (charToInt ch)
  by_cases ended : (parseChar (if lineDone ctx then startLine ctx else ctx) (charToInt ch)).state = .endofline <;>
    simp [pconfChar, read, ended]

theorem startLine_not_done (ctx : PconfCtx) : lineDone (startLine ctx) = false := rfl

theorem pconfChar_done {ctx : PconfCtx} (done : lineDone ctx = true) (b : UInt8) :
    pconfChar ctx b = pconfChar (startLine ctx) b := by
  simp [pconfChar, done, startLine_not_done]

theorem charLists_done {ctx : PconfCtx} (done : lineDone ctx = true) (text : CString) :
    charLists ctx text = charLists (startLine ctx) text := by
  cases text with
  | nil => rfl
  | cons b rest => simp only [charLists, pconfChar_done done]

theorem cutLines_done {ctx : PconfCtx} (done : lineDone ctx = true) (piece text : CString) :
    cutLines ctx piece text = cutLines (startLine ctx) piece text := by
  cases text with
  | nil => rfl
  | cons b rest => simp only [cutLines, pconfChar_done done]

structure NextLine (ctx : PconfCtx) (text : CString) (next : PconfCtx) (line rest : CString) :
    Prop where
  split : text = line ++ rest
  nonempty : line ≠ []
  done : next.state = .endofline
  alone : parseUntilDone charToInt ctx line = (next, some [])
  lists : charLists ctx text = next.arglist :: charLists next rest
  cuts : ∀ piece, cutLines ctx piece text = (piece ++ line) :: cutLines next [] rest
  feed : feedChars ctx text = feedChars next rest

theorem nextLine {ctx : PconfCtx} {text : CString} (sane : ctx.state ≠ .parseerr)
    (open_ : lineDone ctx = false) {next : PconfCtx} {rest : CString}
    (parsed : parseUntilDone charToInt ctx text = (next, some rest)) : ∃ line, NextLine ctx text next line rest := by
  induction text generalizing ctx with
  | nil => simp [parseUntilDone] at parsed
  | cons b tail ih =>
    have still := parseChar_ne_parseerr sane (charToInt b)
    have step : (pconfChar ctx b).1 = parseChar ctx (charToInt b) := by simp [pconfChar, open_]
    by_cases done : lineDone (parseChar ctx (charToInt b)) = true
    · have ended : (parseChar ctx (charToInt b)).state = .endofline := by
        simpa [lineDone, still] using done
      simp only [parseUntilDone, done, if_true, Prod.mk.injEq, Option.some.injEq] at parsed
      obtain ⟨rfl, rfl⟩ := parsed
      have returned : (pconfChar ctx b).2 = 1 := by simp [pconfChar, open_, ended]
      refine ⟨[b], rfl, by simp, ended, ?_, ?_, ?_, ?_⟩
      · simp [parseUntilDone, done]
      · simp [charLists, returned, step]
      · intro piece
        simp [cutLines, returned, step]
      · simp [feedChars, step]
    · have running : lineDone (parseChar ctx (charToInt b)) = false := by simpa using done
      simp only [parseUntilDone, running, Bool.false_eq_true, if_false] at parsed
      obtain ⟨line, h⟩ := ih still running parsed
      have silent : (pconfChar ctx b).2 ≠ 1 := by
        have notEnded : (parseChar ctx (charToInt b)).state ≠ .endofline := by
          intro ended
          simp [lineDone, ended] at running
        simp [pconfChar, open_, notEnded, still]
      refine ⟨b :: line, by simp [h.split], by simp, h.done, ?_, ?_, ?_, ?_⟩
      · simp [parseUntilDone, running, h.alone]
      · simp [charLists, silent, step, h.lists]
      · intro piece
        simp [cutLines, silent, step, h.cuts]
      · simpa [feedChars, step] using h.feed

theorem unfinished {ctx : PconfCtx} {text : CString} (sane : ctx.state ≠ .parseerr)
    (open_ : lineDone ctx = false) {next : PconfCtx} (parsed : parseUntilDone charToInt ctx text = (next, none)) :
    feedChars ctx text = next ∧ lineDone next = false := by
  induction text generalizing ctx with
  | nil =>
    simp only [parseUntilDone, Prod.mk.injEq, and_true] at parsed
    subst parsed
    exact ⟨rfl, open_⟩
  | cons b tail ih =>
    by_cases done : lineDone (parseChar ctx (charToInt b)) = true
    · simp [parseUntilDone, done] at parsed
    · have running : lineDone (parseChar ctx (charToInt b)) = false := by simpa using done
      simp only [parseUntilDone, running, Bool.false_eq_true, if_false] at parsed
      have step : (pconfChar ctx b).1 = parseChar ctx (charToInt b) := by simp [pconfChar, open_]
      simpa [feedChars, step] using ih (parseChar_ne_parseerr sane _) running parsed

theorem parseUntilDone_shorter {toInt : UInt8 -> Int} {ctx next : PconfCtx} {text rest : CString}
    (parsed : parseUntilDone toInt ctx text = (next, some rest)) : rest.length < text.length := by
  induction text generalizing ctx with
  | nil => simp [parseUntilDone] at parsed
  | cons b tail ih =>
    simp only [parseUntilDone] at parsed
    split at parsed
    · simp_all
    · have := ih parsed
      simp only [List.length_cons]
      omega

theorem pconfFileNext_shorter {ctx next : PconfCtx} {file rest : CString}
    (more : pconfFileNext ctx file = (next, rest, 1)) : rest.length < file.length := by
  unfold pconfFileNext at more
  split at more
  case h_1 parsed =>
    have := parseUntilDone_shorter parsed
    simp_all
  case h_2 parsed =>
    cases file with
    | nil =>
      simp only [parseUntilDone, startLine, Prod.mk.injEq, and_true] at parsed
      subst parsed
      simp at more
    | cons b tail =>
      split at more
      · simp_all
      · simp at more

def fileLists (ctx : PconfCtx) (file : CString) : List (List CString) :=
  match call : pconfFileNext ctx file with
  | (next, rest, ret) =>
    if more : ret = 1 then
      have : rest.length < file.length := pconfFileNext_shorter (more ▸ call)
      next.arglist :: fileLists next rest
    else []
termination_by file.length

theorem fileLists_more {ctx next : PconfCtx} {file rest : CString} (call : pconfFileNext ctx file = (next, rest, 1)) :
    fileLists ctx file = next.arglist :: fileLists next rest := by
  rw [fileLists]
  split
  next next' rest' ret' call' =>
    rw [call] at call'
    cases call'
    simp

theorem fileLists_nil (ctx : PconfCtx) : fileLists ctx [] = [] := by
  rw [fileLists]
  rfl

theorem feeds_agree (text : CString) (ctx : PconfCtx) (complete : CompleteLines (startLine ctx) text) :
    fileLists ctx text = charLists (startLine ctx) text ∧
      (0 ∉ text -> lineLists ctx (cutLines (startLine ctx) [] text) = charLists (startLine ctx) text) := by
  have sane : (startLine ctx).state ≠ .parseerr := by simp [startLine]
  have open_ := startLine_not_done ctx
  cases parsed : parseUntilDone charToInt (startLine ctx) text with
  | mk next left =>
    cases left with
    | none =>
      have stuck := unfinished sane open_ parsed
      have empty : text = [] := by
        cases complete with
        | inl empty => exact empty
        | inr ended =>
          rw [stuck.1] at ended
          have running := stuck.2
          simp [lineDone, ended] at running
      subst empty
      exact ⟨fileLists_nil ctx, fun _ => rfl⟩
    | some rest =>
      obtain ⟨line, h⟩ := nextLine sane open_ parsed
      have done : lineDone next = true := by simp [lineDone, h.done]
      have shorter : rest.length < text.length := parseUntilDone_shorter parsed
      have restComplete : CompleteLines (startLine next) rest := by
        cases rest with
        | nil => exact Or.inl rfl
        | cons b tail =>
          right
          have feed := h.feed
          cases complete with
          | inl empty =>
            rw [h.split] at empty
            simp at empty
          | inr ended =>
            rw [feed] at ended
            simpa [feedChars, pconfChar_done done] using ended
      have ih := feeds_agree rest next restComplete
      have byFile : pconfFileNext ctx text = (next, rest, 1) := by
        simp [pconfFileNext, parseUntilDone_fgetc, parsed]
      constructor
      · rw [fileLists_more byFile, h.lists, ih.1, charLists_done done]
      · intro noNul
        have pieces : 0 ∉ line ++ rest := h.split ▸ noNul
        rw [List.mem_append, not_or] at pieces
        have byLine : pconfLine ctx line = next := by simp [pconfLine_text ctx pieces.1, h.alone]
        rw [h.cuts, h.lists, List.nil_append, cutLines_done done]
        simp only [lineLists, byLine, ih.2 pieces.2, charLists_done done]
termination_by text.length

-- A file, the same bytes one at a time, and the same bytes cut into logical lines all give the same
-- argument lists, whatever the two limits are.
theorem parsing_identical (argLimit wordlenLimit : Nat) (text : CString) (noNul : 0 ∉ text)
    (complete : CompleteLines (pconfInitWith argLimit wordlenLimit) text) :
    fileLists (pconfInitWith argLimit wordlenLimit) text = charLists (pconfInitWith argLimit wordlenLimit) text ∧
      lineLists (pconfInitWith argLimit wordlenLimit) (cutLines (pconfInitWith argLimit wordlenLimit) [] text) =
        charLists (pconfInitWith argLimit wordlenLimit) text :=
  have agree := feeds_agree text (pconfInitWith argLimit wordlenLimit) complete
  ⟨agree.1, agree.2 noNul⟩

theorem parsing_identical_sample : fileLists (pconfInitWith 2 3) (cstr "a=\"b \\\"\\\nc\" # d\n\nxyzzy\n") =
        charLists (pconfInitWith 2 3) (cstr "a=\"b \\\"\\\nc\" # d\n\nxyzzy\n") ∧ lineLists (pconfInitWith 2 3)
          (cutLines (pconfInitWith 2 3) [] (cstr "a=\"b \\\"\\\nc\" # d\n\nxyzzy\n")) =
        charLists (pconfInitWith 2 3) (cstr "a=\"b \\\"\\\nc\" # d\n\nxyzzy\n") :=
  parsing_identical 2 3 (cstr "a=\"b \\\"\\\nc\" # d\n\nxyzzy\n") (by decide +kernel) (Or.inr (by decide +kernel))

end Nut
