import Nut.Common.ParseConf

set_option autoImplicit false

namespace Nut

def isText (b : UInt8) : Bool :=
  0x20 ≤ b && b ≤ 0x7f

def clip (wordlenLimit : Nat) (word : CString) : CString :=
  if wordlenLimit = 0 then word else word.take wordlenLimit

@[simp] theorem clip_nil (wordlenLimit : Nat) : clip wordlenLimit [] = [] := by
  simp [clip]

theorem clip_fits {wordlenLimit : Nat} {word : CString} (fits : word.length ≤ wordlenLimit) :
    clip wordlenLimit word = word := by
  rw [clip]
  split
  · rfl
  · exact List.take_of_length_le fits

def addArg (argLimit : Nat) (args : List CString) (word : CString) : List CString :=
  if argLimit ≠ 0 ∧ args.length ≥ argLimit then args else args ++ [word]

theorem addArg_fits {argLimit : Nat} {args : List CString} (word : CString)
    (fits : args.length < argLimit) : addArg argLimit args word = args ++ [word] := by
  rw [addArg, if_neg (by omega)]

theorem isText_iff {b : UInt8} : isText b = true ↔ 32 ≤ b.toNat ∧ b.toNat ≤ 127 := by
  simp [isText, UInt8.le_iff_toNat_le]

theorem charToInt_text {b : UInt8} (text : isText b = true) : charToInt b = b.toNat := by
  have bounds := isText_iff.mp text
  rw [charToInt, if_pos (by omega)]

theorem charToInt_eq_iff {b : UInt8} (n : Nat) (small : n < 128) : charToInt b = (n : Int) ↔ b = UInt8.ofNat n := by
  have bound := b.toNat_lt
  have value : (UInt8.ofNat n).toNat = n := by
    rw [UInt8.toNat_ofNat']
    omega
  rw [<- UInt8.toNat_inj, value, charToInt]
  split <;> omega

@[simp] theorem charToInt_newline {b : UInt8} : charToInt b = 10 ↔ b = 10 := charToInt_eq_iff 10 (by decide)

@[simp] theorem charToInt_quote {b : UInt8} : charToInt b = 34 ↔ b = 34 := charToInt_eq_iff 34 (by decide)

@[simp] theorem charToInt_hash {b : UInt8} : charToInt b = 35 ↔ b = 35 := charToInt_eq_iff 35 (by decide)

@[simp] theorem charToInt_equals {b : UInt8} : charToInt b = 61 ↔ b = 61 := charToInt_eq_iff 61 (by decide)

@[simp] theorem charToInt_backslash {b : UInt8} : charToInt b = 92 ↔ b = 92 := charToInt_eq_iff 92 (by decide)

theorem addchar_text (state : PconfState) (args : List CString) (word : CString)
    (argLimit wordlenLimit : Nat) {b : UInt8} (text : isText b = true) :
    addchar ⟨state, args, clip wordlenLimit word, argLimit, wordlenLimit⟩ (charToInt b) =
      ⟨state, args, clip wordlenLimit (word ++ [b]), argLimit, wordlenLimit⟩ := by
  have bounds := isText_iff.mp text
  rw [charToInt_text text]
  have inside : ¬ ((b.toNat : Int) < 0x20 ∨ (b.toNat : Int) > 0x7f) := by omega
  have byte : UInt8.ofNat (b.toNat : Int).toNat = b := by simp
  rw [addchar, if_neg inside, byte]
  by_cases unlimited : wordlenLimit = 0
  · simp [clip, unlimited]
  · by_cases full : wordlenLimit ≤ word.length
    · have same : (word ++ [b]).take wordlenLimit = word.take wordlenLimit :=
        List.take_append_of_le_length full
      simp [clip, unlimited, full, same]
    · have short : word.take wordlenLimit = word := List.take_of_length_le (by omega)
      have longer : (word ++ [b]).take wordlenLimit = word ++ [b] := List.take_of_length_le (by simp; omega)
      simp [clip, unlimited, full, short, longer]

theorem endofword_eq (state : PconfState) (args : List CString) (word : CString) (argLimit wordlenLimit : Nat) :
    endofword ⟨state, args, word, argLimit, wordlenLimit⟩ =
      ⟨state, addArg argLimit args word, [], argLimit, wordlenLimit⟩ := by
  simp only [endofword, addArg]
  split <;> rfl

def runChars (ctx : PconfCtx) (text : CString) : PconfCtx :=
  text.foldl (fun ctx b => parseChar ctx (charToInt b)) ctx

@[simp] theorem runChars_nil (ctx : PconfCtx) : runChars ctx [] = ctx := rfl

@[simp] theorem runChars_cons (ctx : PconfCtx) (b : UInt8) (text : CString) :
    runChars ctx (b :: text) = runChars (parseChar ctx (charToInt b)) text := rfl

theorem runChars_append (ctx : PconfCtx) (text more : CString) :
    runChars ctx (text ++ more) = runChars (runChars ctx text) more := List.foldl_append

inductive QuotedAs : CString -> CString -> Prop where
  | nil : QuotedAs [] []
  | raw {b : UInt8} {written meaning : CString} (text : isText b = true) (noQuote : b ≠ 34)
      (noEscape : b ≠ 92) (rest : QuotedAs written meaning) :
      QuotedAs (b :: written) (b :: meaning)
  | escaped {b : UInt8} {written meaning : CString} (text : isText b = true)
      (rest : QuotedAs written meaning) : QuotedAs (92 :: b :: written) (b :: meaning)

-- A space, `#`, `=` and the backslash have a meaning of their own inside an unquoted word.
def isBare (b : UInt8) : Bool :=
  isText b && b != 32 && b != 35 && b != 61 && b != 92

-- `written`, inside an unquoted word, stands for `meaning`.
inductive BareAs : CString -> CString -> Prop where
  | nil : BareAs [] []
  | raw {b : UInt8} {written meaning : CString} (bare : isBare b = true)
      (rest : BareAs written meaning) : BareAs (b :: written) (b :: meaning)
  | escaped {b : UInt8} {written meaning : CString} (text : isText b = true)
      (rest : BareAs written meaning) : BareAs (92 :: b :: written) (b :: meaning)

theorem isBare_iff {b : UInt8} : isBare b = true ↔ isText b = true ∧ b ≠ 32 ∧ b ≠ 35 ∧ b ≠ 61 ∧ b ≠ 92 := by
  simp [isBare, and_assoc]

section Steps

variable (args : List CString) (word : CString) (argLimit wordlenLimit : Nat)

theorem isText_ne_newline {b : UInt8} (text : isText b = true) : b ≠ 10 := by
  intro same
  subst same
  exact absurd text (by decide)

theorem isspace_text {b : UInt8} (text : isText b = true) (notSpace : b ≠ 32) : isspace (charToInt b) = false := by
  have bounds := isText_iff.mp text
  have different : b.toNat ≠ 32 := fun same => notSpace (UInt8.toNat_inj.mp same)
  rw [charToInt_text text]
  simp only [isspace, Bool.or_eq_false_iff, beq_eq_false_iff_ne, Bool.and_eq_false_iff,
    decide_eq_false_iff_not]
  omega

theorem quotecollect_raw {b : UInt8} (text : isText b = true) (noQuote : b ≠ 34) (noEscape : b ≠ 92) :
    parseChar ⟨.quotecollect, args, clip wordlenLimit word, argLimit, wordlenLimit⟩ (charToInt b) =
      ⟨.quotecollect, args, clip wordlenLimit (word ++ [b]), argLimit, wordlenLimit⟩ := by
  simp [parseChar, quotecollect, noQuote, noEscape, addchar_text _ _ _ _ _ text, enter]

theorem qcLiteral_text {b : UInt8} (text : isText b = true) :
    parseChar ⟨.qcLiteral, args, clip wordlenLimit word, argLimit, wordlenLimit⟩ (charToInt b) =
      ⟨.quotecollect, args, clip wordlenLimit (word ++ [b]), argLimit, wordlenLimit⟩ := by
  simp [parseChar, qcLiteral, isText_ne_newline text, addchar_text _ _ _ _ _ text, enter]

theorem collect_raw {b : UInt8} (bare : isBare b = true) :
    parseChar ⟨.collect, args, clip wordlenLimit word, argLimit, wordlenLimit⟩ (charToInt b) =
      ⟨.collect, args, clip wordlenLimit (word ++ [b]), argLimit, wordlenLimit⟩ := by
  obtain ⟨text, notSpace, notHash, notEquals, notEscape⟩ := isBare_iff.mp bare
  simp [parseChar, collect, notHash, notEquals, notEscape, isText_ne_newline text, isspace_text text notSpace,
    addchar_text _ _ _ _ _ text, enter]

theorem collectliteral_text {b : UInt8} (text : isText b = true) :
    parseChar ⟨.collectliteral, args, clip wordlenLimit word, argLimit, wordlenLimit⟩ (charToInt b) =
      ⟨.collect, args, clip wordlenLimit (word ++ [b]), argLimit, wordlenLimit⟩ := by
  simp [parseChar, collectliteral, isText_ne_newline text, addchar_text _ _ _ _ _ text, enter]

theorem findwordstart_raw {b : UInt8} (bare : isBare b = true) (noQuote : b ≠ 34) :
    parseChar ⟨.findwordstart, args, [], argLimit, wordlenLimit⟩ (charToInt b) =
      ⟨.collect, args, clip wordlenLimit [b], argLimit, wordlenLimit⟩ := by
  obtain ⟨text, notSpace, notHash, notEquals, notEscape⟩ := isBare_iff.mp bare
  have added := addchar_text .findwordstart args [] argLimit wordlenLimit text
  simp only [clip_nil, List.nil_append] at added
  simp [parseChar, findwordstart, noQuote, notHash, notEquals, notEscape, isText_ne_newline text, isspace_text text notSpace, added, enter]

theorem findwordstart_newline : parseChar ⟨.findwordstart, args, word, argLimit, wordlenLimit⟩ (charToInt 10) =
      ⟨.endofline, args, word, argLimit, wordlenLimit⟩ := rfl

theorem findwordstart_space : parseChar ⟨.findwordstart, args, word, argLimit, wordlenLimit⟩ (charToInt 32) =
      ⟨.findwordstart, args, word, argLimit, wordlenLimit⟩ := rfl

theorem findwordstart_quote : parseChar ⟨.findwordstart, args, word, argLimit, wordlenLimit⟩ (charToInt 34) =
      ⟨.quotecollect, args, word, argLimit, wordlenLimit⟩ := rfl

theorem findwordstart_escape : parseChar ⟨.findwordstart, args, word, argLimit, wordlenLimit⟩ (charToInt 92) =
      ⟨.collectliteral, args, word, argLimit, wordlenLimit⟩ := rfl

theorem quotecollect_quote : parseChar ⟨.quotecollect, args, word, argLimit, wordlenLimit⟩ (charToInt 34) =
      ⟨.findwordstart, addArg argLimit args word, [], argLimit, wordlenLimit⟩ := by
  change enter (endofword _, _) = _
  rw [endofword_eq]
  rfl

theorem quotecollect_escape : parseChar ⟨.quotecollect, args, word, argLimit, wordlenLimit⟩ (charToInt 92) =
      ⟨.qcLiteral, args, word, argLimit, wordlenLimit⟩ := rfl

theorem collect_space : parseChar ⟨.collect, args, word, argLimit, wordlenLimit⟩ (charToInt 32) =
      ⟨.findwordstart, addArg argLimit args word, [], argLimit, wordlenLimit⟩ := by
  change enter (endofword _, _) = _
  rw [endofword_eq]
  rfl

theorem collect_newline : parseChar ⟨.collect, args, word, argLimit, wordlenLimit⟩ (charToInt 10) =
      ⟨.endofline, addArg argLimit args word, [], argLimit, wordlenLimit⟩ := by
  change enter (endofword _, _) = _
  rw [endofword_eq]
  rfl

theorem findwordstart_equals : parseChar ⟨.findwordstart, args, [], argLimit, wordlenLimit⟩ (charToInt 61) =
      ⟨.findwordstart, addArg argLimit args (clip wordlenLimit [61]), [], argLimit, wordlenLimit⟩ := by
  have text : isText 61 = true := rfl
  have added := addchar_text .findwordstart args [] argLimit wordlenLimit text
  rw [clip_nil, List.nil_append] at added
  change enter (endofword (addchar _ (charToInt 61)), _) = _
  rw [added, endofword_eq]
  rfl

theorem collect_equals : parseChar ⟨.collect, args, word, argLimit, wordlenLimit⟩ (charToInt 61) =
      ⟨.findwordstart, addArg argLimit (addArg argLimit args word) (clip wordlenLimit [61]), [], argLimit,
        wordlenLimit⟩ := by
  have text : isText 61 = true := rfl
  have added := addchar_text .collect (addArg argLimit args word) [] argLimit wordlenLimit text
  rw [clip_nil, List.nil_append] at added
  change enter (findwordstart (endofword _) (charToInt 61)) = _
  rw [endofword_eq]
  change enter (endofword (addchar _ (charToInt 61)), _) = _
  rw [added, endofword_eq]
  rfl

theorem collect_escape : parseChar ⟨.collect, args, word, argLimit, wordlenLimit⟩ (charToInt 92) =
      ⟨.collectliteral, args, word, argLimit, wordlenLimit⟩ := rfl

end Steps

section Runs

variable (args : List CString) (argLimit wordlenLimit : Nat)

theorem run_quoted {written meaning : CString} (quoted : QuotedAs written meaning) (word : CString) :
    runChars ⟨.quotecollect, args, clip wordlenLimit word, argLimit, wordlenLimit⟩ written =
      ⟨.quotecollect, args, clip wordlenLimit (word ++ meaning), argLimit, wordlenLimit⟩ := by
  induction quoted generalizing word with
  | nil => simp
  | raw text noQuote noEscape rest ih => simp [quotecollect_raw, text, noQuote, noEscape, ih]
  | escaped text rest ih => simp [quotecollect_escape, qcLiteral_text, text, ih]

theorem run_bare {written meaning : CString} (bare : BareAs written meaning) (word : CString) :
    runChars ⟨.collect, args, clip wordlenLimit word, argLimit, wordlenLimit⟩ written =
      ⟨.collect, args, clip wordlenLimit (word ++ meaning), argLimit, wordlenLimit⟩ := by
  induction bare generalizing word with
  | nil => simp
  | raw bare rest ih => simp [collect_raw, bare, ih]
  | escaped text rest ih => simp [collect_escape, collectliteral_text, text, ih]

theorem run_quotedWord {written meaning : CString} (quoted : QuotedAs written meaning) :
    runChars ⟨.findwordstart, args, [], argLimit, wordlenLimit⟩ (34 :: written ++ [34]) =
      ⟨.findwordstart, addArg argLimit args (clip wordlenLimit meaning), [], argLimit, wordlenLimit⟩ := by
  have body := run_quoted args argLimit wordlenLimit quoted []
  simp only [clip_nil, List.nil_append] at body
  simp [runChars_append, findwordstart_quote, body, quotecollect_quote]

theorem run_bareWord {written meaning : CString} (bare : BareAs written meaning)
    (nonempty : written ≠ []) (noQuote : written.head? ≠ some 34) :
    runChars ⟨.findwordstart, args, [], argLimit, wordlenLimit⟩ written =
      ⟨.collect, args, clip wordlenLimit meaning, argLimit, wordlenLimit⟩ := by
  cases bare with
  | nil => exact absurd rfl nonempty
  | raw first rest =>
    rename_i b written meaning
    have start : b ≠ 34 := fun same => noQuote (by simp [same])
    simp [findwordstart_raw args argLimit wordlenLimit first start, run_bare args argLimit wordlenLimit rest [b]]
  | escaped text rest =>
    rename_i b written meaning
    have literal := collectliteral_text args [] argLimit wordlenLimit text
    simp only [clip_nil, List.nil_append] at literal
    simp [findwordstart_escape, literal, run_bare args argLimit wordlenLimit rest [b]]

end Runs

inductive Token : CString -> CString -> Prop where
  | bare {written meaning : CString} (rest : BareAs written meaning) (nonempty : written ≠ [])
      (noQuote : written.head? ≠ some 34) : Token written meaning
  | quoted {written meaning : CString} (rest : QuotedAs written meaning) :
      Token (34 :: written ++ [34]) meaning
  | equals : Token [61] [61]

inductive LineOf : CString -> List CString -> Prop where
  | last {written meaning : CString} (token : Token written meaning) : LineOf written [meaning]
  | more {written meaning text : CString} {words : List CString} (token : Token written meaning)
      (rest : LineOf text words) : LineOf (written ++ 32 :: text) (meaning :: words)

def addArgs (argLimit wordlenLimit : Nat) (args words : List CString) : List CString :=
  words.foldl (fun args word => addArg argLimit args (clip wordlenLimit word)) args

theorem addArgs_fits {argLimit wordlenLimit : Nat} {args words : List CString}
    (few : args.length + words.length ≤ argLimit) (short : ∀ word ∈ words, word.length ≤ wordlenLimit) :
    addArgs argLimit wordlenLimit args words = args ++ words := by
  induction words generalizing args with
  | nil => simp [addArgs]
  | cons word rest ih =>
    simp only [List.length_cons] at few
    have clipped := clip_fits (short word (by simp))
    have added : addArg argLimit args word = args ++ [word] := addArg_fits word (by omega)
    have later : addArgs argLimit wordlenLimit (args ++ [word]) rest = args ++ [word] ++ rest :=
      ih (by simp; omega) (fun w member => short w (by simp [member]))
    simpa [addArgs, clipped, added] using later

theorem run_token_space (args : List CString) (argLimit wordlenLimit : Nat)
    {written meaning : CString} (token : Token written meaning) :
    runChars ⟨.findwordstart, args, [], argLimit, wordlenLimit⟩ (written ++ [32]) =
      ⟨.findwordstart, addArg argLimit args (clip wordlenLimit meaning), [], argLimit, wordlenLimit⟩ := by
  cases token with
  | bare rest nonempty noQuote =>
    simp [runChars_append, run_bareWord args argLimit wordlenLimit rest nonempty noQuote, collect_space]
  | quoted rest =>
    rw [runChars_append, run_quotedWord args argLimit wordlenLimit rest]
    simp [findwordstart_space]
  | equals => simp [findwordstart_equals, findwordstart_space]

theorem run_token_newline (args : List CString) (argLimit wordlenLimit : Nat)
    {written meaning : CString} (token : Token written meaning) :
    runChars ⟨.findwordstart, args, [], argLimit, wordlenLimit⟩ (written ++ [10]) =
      ⟨.endofline, addArg argLimit args (clip wordlenLimit meaning), [], argLimit, wordlenLimit⟩ := by
  cases token with
  | bare rest nonempty noQuote =>
    simp [runChars_append, run_bareWord args argLimit wordlenLimit rest nonempty noQuote, collect_newline]
  | quoted rest =>
    rw [runChars_append, run_quotedWord args argLimit wordlenLimit rest]
    simp [findwordstart_newline]
  | equals => simp [findwordstart_equals, findwordstart_newline]

theorem run_line (args : List CString) (argLimit wordlenLimit : Nat) {text : CString}
    {words : List CString} (line : LineOf text words) :
    runChars ⟨.findwordstart, args, [], argLimit, wordlenLimit⟩ (text ++ [10]) =
      ⟨.endofline, addArgs argLimit wordlenLimit args words, [], argLimit, wordlenLimit⟩ := by
  induction line generalizing args with
  | last token => exact run_token_newline args argLimit wordlenLimit token
  | @more written meaning text words token rest ih =>
    have split : written ++ 32 :: text ++ [10] = (written ++ [32]) ++ (text ++ [10]) := by simp
    rw [split, runChars_append, run_token_space args argLimit wordlenLimit token, ih]
    rfl

end Nut
