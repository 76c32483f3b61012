import Nut.Common.ParseConfArrival
import Nut.Common.ParseConfReread
import Nut.Server.Authorisation

set_option autoImplicit false

namespace Nut

structure Cut (text buf : CString) : Prop where
  whole : text.length ≤ 509 -> buf = text
  full : 509 < text.length -> 509 < buf.length
  isText : ∀ b ∈ buf, isText b = true

-- The same text, or one that does not fit either.
def AsLong (text text' : CString) : Prop :=
  text' = text ∨ 509 < text.length ∧ 509 < text'.length

section Cut

variable {text buf : CString}

theorem asLong_encoded (before value after : CString) :
    AsLong (before ++ escapeAll value ++ after) (before ++ pconfEncode value [] smallbuf ++ after) := by
  by_cases fits : (escapeAll value).length ≤ 511
  · rw [pconfEncode_whole (by simp [smallbuf]; omega) (by simp [smallbuf])]
    exact Or.inl rfl
  · have encoded : 511 ≤ (escapeAll (fitPrefix 511 value)).length + 1 := escapeAll_fitPrefix_full (by omega)
    rw [pconfEncode_eq (by simp [smallbuf])]
    simp only [smallbuf, Nat.add_one_sub_one]
    refine Or.inr ⟨by simp; omega, by simp; omega⟩

theorem cut_snprintf {text' : CString} (asLong : AsLong text text') (isText : ∀ b ∈ text', isText b = true) :
    Cut text (snprintf smallbuf text') := by
  have bytes : ∀ b ∈ snprintf smallbuf text', Nut.isText b = true := fun b member => isText b (List.mem_of_mem_take member)
  obtain rfl | ⟨long, long'⟩ := asLong
  · refine ⟨fun short => snprintf_fits (by simp [smallbuf]; omega), fun long => ?_, bytes⟩
    simp only [snprintf, smallbuf, List.length_take]
    omega
  · refine ⟨fun short => by omega, fun _ => ?_, bytes⟩
    simp only [snprintf, smallbuf, List.length_take]
    omega

theorem cut_cat (cut : Cut text buf) {more more' : CString} (asLong : AsLong more more')
    (isText : ∀ b ∈ more', isText b = true) : Cut (text ++ more) (snprintfcat buf smallbuf more') := by
  have bytes : ∀ b ∈ snprintfcat buf smallbuf more', Nut.isText b = true := by
    intro b member
    unfold snprintfcat at member
    split_ifs at member
    · exact cut.isText b member
    · obtain old | new := List.mem_append.mp member
      · exact cut.isText b old
      · exact isText b (List.mem_of_mem_take new)
  refine ⟨fun short => ?_, fun long => ?_, bytes⟩
  · simp only [List.length_append] at short
    obtain rfl | ⟨long, _⟩ := asLong
    · rw [cut.whole (by omega), snprintfcat_fits (by simp [smallbuf]; omega)]
    · omega
  · by_cases before : text.length ≤ 509
    · rw [cut.whole before, snprintfcat, if_neg (by simp [smallbuf]; omega)]
      simp only [List.length_append, List.length_take, smallbuf] at long ⊢
      obtain rfl | ⟨_, long'⟩ := asLong <;> omega
    · have already := cut.full (by omega)
      unfold snprintfcat
      split_ifs
      · exact already
      · simp only [List.length_append]
        omega

theorem cut_newline (cut : Cut text buf) : (text.length ≤ 509 -> snprintfcat buf smallbuf [10] = text ++ [10]) ∧
      (509 < text.length -> ∀ b ∈ snprintfcat buf smallbuf [10], b ≠ 10) := by
  constructor
  · intro short
    rw [cut.whole short, snprintfcat_fits (by simp [smallbuf]; omega)]
  · intro long b member
    have noRoom : smallbuf - 1 - buf.length - 1 = 0 := by
      have := cut.full long
      simp only [smallbuf]
      omega
    unfold snprintfcat at member
    rw [noRoom, List.take_zero, List.append_nil, ite_self] at member
    exact isText_ne_newline (cut.isText b member)

end Cut

theorem escaped_token {value : CString} (isText : ∀ b ∈ value, isText b = true)
    (word : EscapedWord value ∨ value = [61]) : Token (escapeAll value) value := by
  obtain ⟨nonempty, free⟩ | rfl := word
  · refine .bare (bareAs_escapeAll isText free) (by simpa using nonempty) ?_
    cases value with
    | nil => simp at nonempty
    | cons b rest =>
      by_cases special : pconfEscape b = true
      · simp [escapeAll_cons, special]
      · have plain : b ≠ 35 ∧ b ≠ 92 ∧ b ≠ 34 := by simpa [pconfEscape, and_assoc] using special
        simp [escapeAll_cons, special, plain.2.2]
  · exact .equals

-- What a client can ask upsd to pass on to a driver.
inductive Request where
  | set (var newval : CString)
  | instcmd (cmdname : CString) (value : Option CString)

namespace Request

def of : List CString -> Option Request
  | cmd :: arg0 :: arg1 :: args =>
    if isCommand cmd "INSTCMD" then some (.instcmd arg1 (cmdparam args))
    else match args with
      | var :: newval :: _ => if isCommand cmd "SET" && isCommand arg0 "VAR" then some (.set var newval) else none
      | _ => none
  | _ => none

def trackingText : Option CString -> CString
  | some id => cstr " TRACKING " ++ id
  | none => []

def trackingWords : Option CString -> List CString
  | some id => [cstr "TRACKING", id]
  | none => []

def line : Request -> Option CString -> CString
  | set var newval, id => setCmd var newval id
  | instcmd cmdname value, id => instcmdCmd cmdname value id

def words : Request -> Option CString -> List CString
  | set var newval, id => cstr "SET" :: var :: newval :: trackingWords id
  | instcmd cmdname value, id => cstr "INSTCMD" :: cmdname :: (value.toList ++ trackingWords id)

def length : Request -> Option CString -> Nat
  | set var newval, id => 7 + var.length + (escapeAll newval).length + (trackingText id).length
  | instcmd cmdname none, id => 8 + cmdname.length + (trackingText id).length
  | instcmd cmdname (some value), id =>
    9 + cmdname.length + (escapeAll value).length + (trackingText id).length

def Relayable (request : Request) (id : Option CString) : Prop :=
  request.length id ≤ 509 ∧
    match request with
    | set var _ => Word var
    | instcmd cmdname none => Word cmdname
    | instcmd cmdname (some value) => Word cmdname ∧ (EscapedWord value ∨ value = [61])

-- The line, if the buffers had no end, but for the newline.
def text : Request -> Option CString -> CString
  | set var newval, id =>
    cstr "SET " ++ var ++ cstr " \"" ++ escapeAll newval ++ cstr "\"" ++ trackingText id
  | instcmd cmdname none, id => cstr "INSTCMD " ++ cmdname ++ trackingText id
  | instcmd cmdname (some value), id =>
    cstr "INSTCMD " ++ cmdname ++ (cstr " " ++ escapeAll value) ++ trackingText id

theorem text_length (request : Request) (id : Option CString) : (request.text id).length = request.length id := by
  have set : (cstr "SET ").length = 4 := rfl
  have quote : (cstr " \"").length = 2 := rfl
  have close : (cstr "\"").length = 1 := rfl
  have instcmd : (cstr "INSTCMD ").length = 8 := rfl
  have space : (cstr " ").length = 1 := rfl
  obtain ⟨var, newval⟩ | ⟨cmdname, _ | value⟩ := request <;>
    simp only [text, length, List.length_append, set, quote, close, instcmd, space] <;> omega

end Request

structure Uuid (id : CString) : Prop where
  length : id.length = 36
  bare : ∀ b ∈ id, isBare b = true ∧ b ≠ 34

section Uuid

variable {id : CString}

theorem hexDigit_bare {n : Nat} (digit : n < 16) : isBare (hexDigit n) = true ∧ hexDigit n ≠ 34 := by
  have all : ∀ n < 16, isBare (hexDigit n) = true ∧ hexDigit n ≠ 34 := by decide +kernel
  exact all n digit

theorem uuid_nutUuidV4 (randoms : List UInt8) : Uuid (nutUuidV4 randoms) := by
  have byte (b : UInt8) : ∀ c ∈ hexByte b, isBare c = true ∧ c ≠ 34 := by
    have bound := b.toNat_lt
    intro c member
    obtain rfl | rfl : c = hexDigit (b.toNat / 16) ∨ c = hexDigit (b.toNat % 16) := by
      simpa [hexByte] using member
    · exact hexDigit_bare (by omega)
    · exact hexDigit_bare (by omega)
  have dash : isBare 45 = true ∧ (45 : UInt8) ≠ 34 := by decide
  refine ⟨by simp [nutUuidV4, hexByte], fun c member => ?_⟩
  simp only [nutUuidV4, List.mem_append, List.mem_flatMap, List.mem_singleton] at member
  rcases member with (((((((⟨_, _, inside⟩ | rfl) | ⟨_, _, inside⟩) | rfl) | ⟨_, _, inside⟩) | rfl) |
    ⟨_, _, inside⟩) | rfl) | ⟨_, _, inside⟩
  all_goals first
    | exact byte _ c inside
    | exact dash

theorem Uuid.isText (uuid : Uuid id) : ∀ b ∈ id, isText b = true :=
  fun b member => (isBare_iff.mp (uuid.bare b member).1).1

theorem Uuid.bareWord (uuid : Uuid id) : BareWord id := by
  have length := uuid.length
  refine ⟨by rintro rfl; simp at length, fun quote => ?_, fun b member => (uuid.bare b member).1⟩
  exact (uuid.bare 34 (List.mem_of_head? quote)).2 rfl

theorem loose_bare {word : CString} (bare : ∀ b ∈ word, isBare b = true ∧ b ≠ 34) : Loose word word := by
  induction word with
  | nil => exact .nil
  | cons b rest ih =>
    obtain ⟨isBare, noQuote⟩ := bare b List.mem_cons_self
    obtain ⟨text, notSpace, notHash, _, notEscape⟩ := isBare_iff.mp isBare
    exact .raw text ⟨notSpace, noQuote, notHash, notEscape⟩ (ih fun c member => bare c (List.mem_cons_of_mem b member))

end Uuid

section Tracking

open Request

variable {id : Option CString} (uuid : ∀ tracked ∈ id, Uuid tracked)

theorem LineOf.append {text behind : CString} {words more : List CString} (line : LineOf text words)
    (rest : LineOf behind more) : LineOf (text ++ 32 :: behind) (words ++ more) := by
  induction line with
  | last token => exact .more token rest
  | more token _ ih => simpa using LineOf.more token ih

include uuid

theorem trackingText_isText : ∀ b ∈ trackingText id, isText b = true := by
  cases id with
  | none => simp [trackingText]
  | some tracked =>
    have keyword : ∀ b ∈ cstr " TRACKING ", isText b = true := List.all_eq_true.mp (by decide)
    intro b member
    obtain inside | inside := List.mem_append.mp member
    · exact keyword b inside
    · exact (uuid tracked rfl).isText b inside

theorem lineOf_tracking {text : CString} {words : List CString} (line : LineOf text words) :
    LineOf (text ++ trackingText id) (words ++ trackingWords id) := by
  cases id with
  | none => simpa [trackingText, trackingWords] using line
  | some tracked =>
    have keyword : BareWord (cstr "TRACKING") := by decide
    exact line.append (.more keyword.token (.last (uuid tracked rfl).bareWord.token))

theorem trackingText_loose :
    ∃ meaning, Loose (trackingText id) meaning ∧ meaning.length ≤ totalLength (trackingWords id) := by
  cases id with
  | none => exact ⟨[], .nil, Nat.zero_le _⟩
  | some tracked =>
    have plain : (cstr "TRACKING").all (fun b => isBare b && b != 34) = true := by decide
    have keyword : ∀ b ∈ cstr "TRACKING", isBare b = true ∧ b ≠ 34 := by simpa using plain
    have bare := loose_bare (uuid tracked rfl).bare
    have written : trackingText (some tracked) = 32 :: (cstr "TRACKING" ++ 32 :: tracked) := rfl
    rw [written]
    refine ⟨cstr "TRACKING" ++ tracked, .space (loose_append (loose_bare keyword) (.space bare)), ?_⟩
    simp [trackingWords, totalLength]

theorem cut_finishLine {text cmd : CString} (cut : Cut text cmd) :
    ∃ buf, finishLine cmd id = snprintfcat buf smallbuf [10] ∧ Cut (text ++ trackingText id) buf := by
  cases id with
  | none => exact ⟨cmd, rfl, by simpa [trackingText] using cut⟩
  | some tracked => exact ⟨_, rfl, cut_cat cut (Or.inl rfl) (trackingText_isText uuid)⟩

end Tracking

section Lines

open Request

variable {id : Option CString} (uuid : ∀ tracked ∈ id, Uuid tracked)

theorem encoded_isText {before value after : CString} (isBefore : ∀ b ∈ before, isText b = true)
    (isValue : ∀ b ∈ value, isText b = true) (isAfter : ∀ b ∈ after, isText b = true) :
    ∀ b ∈ before ++ pconfEncode value [] smallbuf ++ after, isText b = true := by
  have encoded := quotedAs_escapeAll (isText_initial (fitPrefix_initial (smallbuf - 1) value) isValue)
  intro b member
  rw [pconfEncode_eq (by simp [smallbuf])] at member
  simp only [List.mem_append, or_assoc] at member
  obtain first | second | third := member
  · exact isBefore b first
  · exact encoded.isText b second
  · exact isAfter b third

def Request.IsText : Request -> Prop
  | .set var newval => (∀ b ∈ var, isText b = true) ∧ ∀ b ∈ newval, isText b = true
  | .instcmd cmdname value => (∀ b ∈ cmdname, isText b = true) ∧ ∀ v ∈ value, ∀ b ∈ v, isText b = true

include uuid

theorem line_cut (request : Request) (isText : request.IsText) :
    ∃ buf, request.line id = snprintfcat buf smallbuf [10] ∧ Cut (request.text id) buf := by
  have all {text : CString} (same : text.all Nut.isText = true) : ∀ b ∈ text, Nut.isText b = true :=
    List.all_eq_true.mp same
  have named {keyword name : CString} (isKeyword : ∀ b ∈ keyword, Nut.isText b = true)
      (isName : ∀ b ∈ name, Nut.isText b = true) : ∀ b ∈ keyword ++ name, Nut.isText b = true := by
    intro b member
    obtain first | second := List.mem_append.mp member
    · exact isKeyword b first
    · exact isName b second
  cases request with
  | set var newval =>
    have bytes := encoded_isText (named (named (all (show (cstr "SET ").all Nut.isText = true from rfl)) isText.1)
        (all (show (cstr " \"").all Nut.isText = true from rfl)))
      isText.2 (all (show (cstr "\"").all Nut.isText = true from rfl))
    exact cut_finishLine uuid (cut_snprintf (asLong_encoded _ _ _) bytes)
  | instcmd cmdname value =>
    have base := cut_snprintf (Or.inl rfl)
      (named (all (show (cstr "INSTCMD ").all Nut.isText = true from rfl)) isText.1)
    cases value with
    | none => exact cut_finishLine uuid base
    | some value =>
      have bytes := encoded_isText (all (show (cstr " ").all Nut.isText = true from rfl))
        (isText.2 value rfl) (show ∀ b ∈ ([] : CString), Nut.isText b = true by simp)
      have longer := asLong_encoded (cstr " ") value []
      simp only [List.append_nil] at bytes longer
      exact cut_finishLine uuid (cut_cat base longer bytes)

theorem text_isText (request : Request) (isText : request.IsText) : ∀ b ∈ request.text id, Nut.isText b = true := by
  have tracking := trackingText_isText uuid
  have set : ∀ b ∈ cstr "SET ", Nut.isText b = true := List.all_eq_true.mp (by decide)
  have instcmd : ∀ b ∈ cstr "INSTCMD ", Nut.isText b = true := List.all_eq_true.mp (by decide)
  have quote : ∀ b ∈ cstr " \"", Nut.isText b = true := List.all_eq_true.mp (by decide)
  have close : ∀ b ∈ cstr "\"", Nut.isText b = true := List.all_eq_true.mp (by decide)
  have space : ∀ b ∈ cstr " ", Nut.isText b = true := List.all_eq_true.mp (by decide)
  intro b member
  obtain ⟨var, newval⟩ | ⟨cmdname, _ | value⟩ := request
  · have escaped := (quotedAs_escapeAll isText.2).isText b
    simp only [Request.text, List.mem_append] at member
    obtain ((((here | here) | here) | here) | here) | here := member
    exacts [set b here, isText.1 b here, quote b here, escaped here, close b here, tracking b here]
  · simp only [Request.text, List.mem_append] at member
    obtain (here | here) | here := member
    exacts [instcmd b here, isText.1 b here, tracking b here]
  · have escaped := (quotedAs_escapeAll (isText.2 value rfl)).isText b
    simp only [Request.text, List.mem_append] at member
    obtain ((here | here) | here | here) | here := member
    exacts [instcmd b here, isText.1 b here, space b here, escaped here, tracking b here]

theorem trackingWords_fit : (trackingWords id).length ≤ 2 ∧ ∀ word ∈ trackingWords id, word.length ≤ 512 := by
  cases id with
  | none => simp [trackingWords]
  | some tracked =>
    refine ⟨by simp [trackingWords], fun word member => ?_⟩
    obtain rfl | rfl : word = cstr "TRACKING" ∨ word = tracked := by simpa [trackingWords] using member
    · decide
    · have := (uuid word rfl).length
      omega

omit uuid in
theorem run_waiting {args : List CString} {written meaning : CString} (token : Token written meaning)
    (few : args.length < 32) (short : meaning.length ≤ 512) (rest : CString) :
    runChars (waiting args) (written ++ 32 :: rest) = runChars (waiting (args ++ [meaning])) rest := by
  have split : written ++ 32 :: rest = written ++ [32] ++ rest := by simp
  rw [split, runChars_append, waiting, run_token_space args 32 512 token, clip_fits short, addArg_fits _ few, waiting]

theorem set_arrives {var newval : CString} (isText : (Request.set var newval).IsText)
    (short : var.length < 512) (short' : newval.length ≤ 512) :
    Arrives ((Request.set var newval).text id ++ [10]) ((Request.set var newval).words id) ↔ Word var := by
  have quoted : LineOf (34 :: (escapeAll newval ++ [34] ++ trackingText id)) (newval :: trackingWords id) :=
    lineOf_tracking uuid (.last (.quoted (quotedAs_escapeAll isText.2)))
  obtain ⟨few, fits⟩ := trackingWords_fit uuid
  have keyword : BareWord (cstr "SET") := by decide
  have split : (Request.set var newval).text id =
      cstr "SET" ++ 32 :: (var ++ 32 :: 34 :: (escapeAll newval ++ [34] ++ trackingText id)) := by
    simp [Request.text, cstr]
  constructor
  · intro arrives
    rw [arrives_iff fun b member => isText_ne_newline (text_isText uuid _ isText b member)] at arrives
    obtain ⟨_, same⟩ := arrives
    rw [split, List.append_assoc, List.cons_append, run_waiting keyword.token (by simp) (by decide)] at same
    have room : [cstr "SET"].length + (newval :: trackingWords id).length < 32 := by
      simp only [List.length_cons, List.length_nil]
      omega
    exact reread_before_quoted isText.1 short quoted room (by simpa [short'] using fits)
      (by simpa [waiting, Request.words] using same)
  · intro word
    rw [split]
    apply arrives_line (.more keyword.token (.more word.token quoted))
    · simp
      omega
    · have : (cstr "SET").length ≤ 512 := by decide
      simp [this, short', Nat.le_of_lt short]
      exact fits

theorem valueText_loose {value : Option CString} (isText : ∀ v ∈ value, ∀ b ∈ v, Nut.isText b = true) :
    ∃ meaning, Loose ((value.elim [] fun v => 32 :: escapeAll v) ++ trackingText id) meaning ∧
      meaning.length ≤ totalLength (value.toList ++ trackingWords id) := by
  obtain ⟨meaning, loose, shorter⟩ := trackingText_loose uuid
  cases value with
  | none => exact ⟨meaning, loose, shorter⟩
  | some value =>
    obtain ⟨inner, escaped, shorter'⟩ := loose_escapeAll (isText value rfl)
    refine ⟨inner ++ meaning, .space (loose_append escaped loose), ?_⟩
    simp only [Option.toList_some, List.singleton_append, totalLength, List.map_cons, List.sum_cons,
      List.length_append] at shorter ⊢
    omega

theorem instcmd_arrives {cmdname : CString} {value : Option CString}
    (isText : (Request.instcmd cmdname value).IsText) (short : cmdname.length < 512)
    (short' : ∀ v ∈ value, v.length ≤ 512) :
    Arrives ((Request.instcmd cmdname value).text id ++ [10]) ((Request.instcmd cmdname value).words id) ↔
      Word cmdname ∧ ∀ v ∈ value, EscapedWord v ∨ v = [61] := by
  obtain ⟨few, fits⟩ := trackingWords_fit uuid
  have keyword : BareWord (cstr "INSTCMD") := by decide
  have split : (Request.instcmd cmdname value).text id =
      cstr "INSTCMD" ++ 32 :: (cmdname ++ ((value.elim [] fun v => 32 :: escapeAll v) ++ trackingText id)) := by
    cases value <;> simp [Request.text, cstr]
  constructor
  · intro arrives
    rw [arrives_iff fun b member => isText_ne_newline (text_isText uuid _ isText b member)] at arrives
    obtain ⟨done, same⟩ := arrives
    rw [split, List.append_assoc, List.cons_append, run_waiting keyword.token (by simp) (by decide)] at done same
    obtain ⟨meaning, loose, enough⟩ := valueText_loose uuid isText.2
    have apart : (value.elim [] fun v => 32 :: escapeAll v) ++ trackingText id = [] ∨
        ∃ behind, (value.elim [] fun v => 32 :: escapeAll v) ++ trackingText id = 32 :: behind := by
      cases value with
      | some value => exact Or.inr ⟨_, rfl⟩
      | none =>
        cases id with
        | some tracked => exact Or.inr ⟨_, rfl⟩
        | none => exact Or.inl rfl
    have word : Word cmdname := by
      rw [List.append_assoc] at done same
      exact reread_before_loose isText.1 short (by simp) loose apart enough done same
    refine ⟨word, fun v member => ?_⟩
    obtain rfl : value = some v := member
    obtain ⟨behind, loose', enough'⟩ := trackingText_loose uuid
    simp only [Option.elim_some, List.cons_append, List.append_assoc] at same
    rw [run_waiting word.token (by simp) (Nat.le_of_lt short)] at same
    exact reread_value (isText.2 v rfl) (short' v rfl) (by simp) (by simp) loose' enough' same
  · rintro ⟨word, escaped⟩
    rw [split]
    cases value with
    | none =>
      have line := lineOf_tracking uuid (.more keyword.token (.last word.token))
      simp only [List.append_assoc, List.cons_append] at line
      apply arrives_line line
      · simp
        omega
      · have : (cstr "INSTCMD").length ≤ 512 := by decide
        simp [this, Nat.le_of_lt short]
        exact fits
    | some value =>
      have token := escaped_token (isText.2 value rfl) (escaped value rfl)
      have line := lineOf_tracking uuid (.more keyword.token (.more word.token (.last token)))
      simp only [List.append_assoc, List.cons_append] at line
      apply arrives_line line
      · simp
        omega
      · have : (cstr "INSTCMD").length ≤ 512 := by decide
        simp [this, Nat.le_of_lt short, short' value rfl]
        exact fits

theorem line_arrives (request : Request) (isText : request.IsText)
    (short : ∀ word ∈ request.words none, word.length ≤ 512) :
    Arrives (request.line id) (request.words id) ↔ request.Relayable id := by
  obtain ⟨buf, written, cut⟩ := line_cut uuid request isText
  obtain ⟨whole, broken⟩ := cut_newline cut
  rw [Request.text_length] at whole broken
  by_cases fits : request.length id ≤ 509
  · rw [written, whole fits]
    cases request with
    | set var newval =>
      have := set_arrives uuid isText (by simp [Request.length] at fits; omega) (short newval (by simp [Request.words]))
      simp [this, Request.Relayable, fits]
    | instcmd cmdname value =>
      have := instcmd_arrives uuid isText (by cases value <;> simp [Request.length] at fits <;> omega)
        (fun v member => short v (by simp [Request.words, Option.mem_def.mp member]))
      cases value <;> simp [this, Request.Relayable, fits]
  · have lost := not_arrives (written ▸ broken (by omega)) (request.words id)
    simp [lost, Request.Relayable, fits]

end Lines

section Served

variable {w : Upsd} {client : Client} {arglist : List CString}

theorem isCommand_set {cmd : CString} (isSet : isCommand cmd "SET" = true) : isCommand cmd "INSTCMD" = false := by
  have folded : foldCase cmd = foldCase (cstr "SET") := by
    simpa [isCommand, strcasecmp_eq_iff] using isSet
  have other : foldCase (cstr "SET") ≠ foldCase (cstr "INSTCMD") := by decide
  simp [isCommand, strcasecmp_eq_iff, folded, other]

theorem line_request {line : CString} (isLine : Line w client arglist line) :
    ∃ request, Request.of arglist = some request ∧ line = request.line (newTrackingId w client).1 := by
  cases isLine with
  | @set cmd kind upsname var newval rest isSet isVar granted =>
    exact ⟨.set var newval, by simp [Request.of, isCommand_set isSet, isSet, isVar], rfl⟩
  | @instcmd cmd upsname cmdname rest isInstcmd granted =>
    exact ⟨.instcmd cmdname (cmdparam rest), by simp [Request.of, isInstcmd], rfl⟩

theorem request_received {request : Request} (asked : Request.of arglist = some request)
    (received : ∀ word ∈ arglist, Receivable word) :
    request.IsText ∧ ∀ word ∈ request.words none, word.length ≤ 512 := by
  have keyword : (cstr "SET").length ≤ 512 ∧ (cstr "INSTCMD").length ≤ 512 := by decide
  have parameter (args : List CString) : ∀ v ∈ cmdparam args, v ∈ args := by
    unfold cmdparam
    split <;> simp
  unfold Request.of at asked
  split at asked
  next cmd arg0 arg1 args =>
      split_ifs at asked
      · obtain rfl := Option.some.inj asked
        have value (v : CString) (member : v ∈ cmdparam args) : Receivable v :=
          received v (by simp [parameter args v member])
        have name := received arg1 (by simp)
        refine ⟨⟨name.2, fun v member => (value v member).2⟩, fun word member => ?_⟩
        simp only [Request.words, Request.trackingWords, List.append_nil, List.mem_cons, Option.mem_toList] at member
        obtain rfl | rfl | member := member
        exacts [keyword.2, name.1, (value word member).1]
      · split at asked
        next var newval rest =>
            obtain rfl := Option.some.inj asked
            have name := received var (by simp)
            have value := received newval (by simp)
            refine ⟨⟨name.2, value.2⟩, fun word member => ?_⟩
            simp only [Request.words, Request.trackingWords, List.mem_cons, List.not_mem_nil, or_false] at member
            obtain rfl | rfl | rfl := member
            exacts [keyword.1, name.1, value.1]
        next => cases asked
      · split at asked <;> cases asked
  next => cases asked

end Served

-- Whatever a client sends: serving one of its lines writes nothing to a driver, or one line for a SET VAR or
-- INSTCMD, and that line arrives as the words of the request exactly when the request is relayable.
theorem commands_relayed (sent : CString) {arglist : List CString} (received : arglist ∈ readLines pconfInit sent)
    (now : Int) (id : Nat) (w : Upsd) : (serveLine now id w arglist).lines = w.lines ∨
      ∃ client request upsname, w.findClient id = some client ∧ Request.of arglist = some request ∧
        let trackingId := (newTrackingId w client).1
        (serveLine now id w arglist).lines = w.lines ++ [(upsname, request.line trackingId)] ∧
          (Arrives (request.line trackingId) (request.words trackingId) ↔ request.Relayable trackingId) := by
  obtain ⟨_, same⟩ | ⟨client, between, found, effect, answers⟩ := serveLine_cases now id w arglist
  · exact Or.inl (by rw [same])
  obtain ⟨_, _, _, _, answered, _⟩ := answers
  rw [answered]
  obtain same | ⟨upsname, line, isLine, more⟩ := effect_line effect
  · exact Or.inl same
  obtain ⟨request, asked, rfl⟩ := line_request isLine
  have heard : (newTrackingId (w.updateClient id (Client.hear now)) (client.hear now)).1 =
      (newTrackingId w client).1 := by
    by_cases tracking : client.tracking = true <;>
      simp [newTrackingId, Client.hear, Upsd.updateClient, tracking]
  rw [heard] at more
  have words := received_readLines ⟨rfl, receivable_nil, by simp [pconfInit, pconfInitWith]⟩ sent arglist received
  obtain ⟨isText, short⟩ := request_received asked words
  refine Or.inr ⟨client, request, upsname, found, asked, more, line_arrives ?_ request isText short⟩
  intro tracked member
  unfold newTrackingId at member
  split_ifs at member
  · obtain rfl := Option.some.inj member
    exact uuid_nutUuidV4 w.randoms
  · cases member

def sampleClient : Upsd :=
  (samplePasses "USERNAME admin\nPASSWORD x\n").foldl mainloop sampleUpsd

theorem commands_relayed_sample :
    let arglist := [cstr "INSTCMD", cstr "ups", cstr "test.start", cstr "5"]
    arglist ∈ readLines pconfInit (cstr "INSTCMD ups test.start 5\n") ∧
      (serveLine 1000 0 sampleClient arglist).lines = [(cstr "ups", cstr "INSTCMD test.start 5\n")] ∧
      ((serveLine 1000 0 sampleClient arglist).lines = sampleClient.lines ∨
        ∃ client request upsname, sampleClient.findClient 0 = some client ∧ Request.of arglist = some request ∧
          let trackingId := (newTrackingId sampleClient client).1
          (serveLine 1000 0 sampleClient arglist).lines =
              sampleClient.lines ++ [(upsname, request.line trackingId)] ∧
            (Arrives (request.line trackingId) (request.words trackingId) ↔ request.Relayable trackingId)) :=
  have received : [cstr "INSTCMD", cstr "ups", cstr "test.start", cstr "5"] ∈
      readLines pconfInit (cstr "INSTCMD ups test.start 5\n") := by decide +kernel
  ⟨received, by decide +kernel, commands_relayed _ received 1000 0 sampleClient⟩

-- The value of an INSTCMD is not quoted, so the driver gets two words for `a b`.
theorem commands_not_relayed :
    let arglist := [cstr "INSTCMD", cstr "ups", cstr "test.start", cstr "a b"]
    arglist ∈ readLines pconfInit (cstr "INSTCMD ups test.start \"a b\"\n") ∧
      (serveLine 1000 0 sampleClient arglist).lines = [(cstr "ups", cstr "INSTCMD test.start a b\n")] ∧
      ¬ Arrives (cstr "INSTCMD test.start a b\n") [cstr "INSTCMD", cstr "test.start", cstr "a b"] := by
  refine ⟨by decide +kernel, by decide +kernel, fun arrives => ?_⟩
  have read := arrives.2 pconfInit (atLineStart_init _ _) rfl rfl
  revert read
  decide +kernel

end Nut
