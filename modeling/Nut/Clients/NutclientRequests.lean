import Nut.Clients.NutclientLists
import Nut.Common.ParseConfSingle

set_option autoImplicit false

namespace Nut

def printable (b : UInt8) : Bool :=
  0x20 ≤ b && b ≤ 0x7e

structure Name where
  text : CString
  nonempty : text ≠ []
  letters : ∀ b ∈ text, isNameChar b = true

inductive ClientRequest where
  | setDeviceVariable (dev name : Name) (value : CString)
  | executeDeviceCommand (dev name : Name) (param : CString)

def ClientRequest.query : ClientRequest -> CString
  | setDeviceVariable dev name value =>
    cstr "SET VAR " ++ dev.text ++ cstr " " ++ name.text ++ cstr " " ++ escape value
  | executeDeviceCommand dev name param =>
    cstr "INSTCMD " ++ dev.text ++ cstr " " ++ name.text ++ cstr " " ++ param

def ClientRequest.sent (request : ClientRequest) : CString :=
  (Socket.write ⟨[], []⟩ request.query).written

def ClientRequest.arg : ClientRequest -> CString
  | setDeviceVariable _ _ value => value
  | executeDeviceCommand _ _ param => param

def ClientRequest.head : ClientRequest -> List CString
  | setDeviceVariable dev name _ => [cstr "SET", cstr "VAR", dev.text, name.text]
  | executeDeviceCommand dev name _ => [cstr "INSTCMD", dev.text, name.text]

def ClientRequest.Asks (request : ClientRequest) (words : List CString) : Prop :=
  match request with
  | executeDeviceCommand _ _ [] => words = request.head
  | _ => ∃ word, words = request.head ++ [word] ∧ ((∀ b ∈ request.arg, printable b = true) -> word = request.arg)

def ClientRequest.Intact (request : ClientRequest) : Prop :=
  ∀ ctx : PconfCtx, AtLineStart ctx -> ctx.argLimit = pconfDefaultArgLimit ->
    ctx.wordlenLimit = pconfDefaultWordlenLimit ->
    ∃ words, readLines ctx request.sent = [words] ∧ lineDone (readCtx ctx request.sent) = true ∧ request.Asks words

def ClientRequest.tail : ClientRequest -> CString
  | setDeviceVariable _ _ value => escape value
  | executeDeviceCommand _ _ param => param

def ClientRequest.cut (request : ClientRequest) : List CString :=
  request.head.map (clip 512)

section Head

variable {args : List CString}

theorem printable_text {text : CString} (isPrintable : ∀ b ∈ text, printable b = true) : ∀ b ∈ text, isText b = true := by
  intro b member
  have inside := isPrintable b member
  simp only [printable, Bool.and_eq_true, decide_eq_true_eq, UInt8.le_iff_toNat_le] at inside
  rw [isText_iff]
  simp at inside
  omega

theorem leadsTo_words {words : List CString} (bare : ∀ word ∈ words, BareWord word) (room : args.length + words.length ≤ 32) :
    LeadsTo (waiting args) (words.flatMap (· ++ [32])) (waiting (args ++ words.map (clip 512))) := by
  induction words generalizing args with
  | nil => exact fun more => by simp
  | cons word words ih =>
    have isBare := bare word List.mem_cons_self
    simp only [List.length_cons] at room
    have run := run_token_space args 32 512 isBare.token
    rw [addArg_fits _ (by omega)] at run
    have oneLine : ∀ b ∈ word ++ [32], b ≠ 10 := by
      intro b member
      obtain inside | last := List.mem_append.mp member
      · exact isText_ne_newline (isBare_iff.mp (isBare.2.2 b inside)).1
      · rw [List.mem_singleton.mp last]
        decide
    have first : LeadsTo (waiting args) (word ++ [32]) (waiting (args ++ [clip 512 word])) := by
      have leads := leadsTo_run (show lineDone (waiting args) = false from rfl) oneLine
      rwa [waiting, run] at leads
    have later := ih (fun other member => bare other (List.mem_cons_of_mem word member))
      (show (args ++ [clip 512 word]).length + words.length ≤ 32 by simp; omega)
    simpa using leadsTo_trans first later

theorem Name.bareWord (name : Name) : BareWord name.text := bareWord_name name.nonempty name.letters

variable (request : ClientRequest)

theorem ClientRequest.head_bare : ∀ word ∈ request.head, BareWord word := by
  cases request with
  | setDeviceVariable dev name value =>
    simp only [head, List.forall_mem_cons]
    exact ⟨by decide, by decide, dev.bareWord, name.bareWord, by simp⟩
  | executeDeviceCommand dev name param =>
    simp only [head, List.forall_mem_cons]
    exact ⟨by decide, dev.bareWord, name.bareWord, by simp⟩

theorem ClientRequest.sent_eq : request.sent = request.head.flatMap (· ++ [32]) ++ (request.tail ++ [10]) := by
  have space : cstr " " = [32] := rfl
  cases request with
  | setDeviceVariable dev name value =>
    have keywords : cstr "SET VAR " = cstr "SET" ++ [32] ++ (cstr "VAR" ++ [32]) := rfl
    simp [sent, Socket.write, query, head, tail, space, keywords]
  | executeDeviceCommand dev name param =>
    have keyword : cstr "INSTCMD " = cstr "INSTCMD" ++ [32] := rfl
    simp [sent, Socket.write, query, head, tail, space, keyword]

theorem ClientRequest.head_length : request.head.length < 5 := by
  cases request <;> simp [head]

theorem readCtx_startLine {ctx : PconfCtx} (start : AtLineStart ctx) {text : CString} (more : text ≠ []) :
    readCtx ctx text = readCtx ⟨.findwordstart, [], [], ctx.argLimit, ctx.wordlenLimit⟩ text := by
  have same := readChars_startLine (fun (read : Unit) _ => read) start () more
  rw [readChars_eq, readChars_eq] at same
  exact (Prod.mk.inj same).1

theorem ClientRequest.intact_iff : request.Intact ↔
    ∃ words, readLines (waiting request.cut) (request.tail ++ [10]) = [words] ∧
      lineDone (readCtx (waiting request.cut) (request.tail ++ [10])) = true ∧ request.Asks words := by
  have few := request.head_length
  have leads := @leadsTo_words [] _ request.head_bare (by simp; omega) (request.tail ++ [10])
  rw [<- request.sent_eq, List.nil_append] at leads
  have some_ : request.sent ≠ [] := by simp [request.sent_eq]
  rw [cut, <- leads.1, <- leads.2]
  constructor
  · intro intact
    exact intact (waiting []) ⟨rfl, .inr ⟨rfl, rfl⟩⟩ rfl rfl
  · intro read ctx start argLimit wordlenLimit
    rw [readLines_startLine start some_, readCtx_startLine start some_, argLimit, wordlenLimit]
    exact read

theorem ClientRequest.asks_head {request : ClientRequest} {words : List CString} (asks : request.Asks words) :
    request.head <+: words := by
  unfold Asks at asks
  split at asks
  next => exact asks ▸ List.prefix_refl _
  next =>
    obtain ⟨word, rfl, _⟩ := asks
    exact List.prefix_append _ _

theorem clip_eq_iff (word : CString) : clip 512 word = word ↔ word.length ≤ 512 := by
  rw [clip, if_neg (by decide)]
  constructor
  · intro same
    rw [<- same]
    exact List.length_take_le _ _
  · exact List.take_of_length_le

theorem ClientRequest.cut_eq_iff : request.cut = request.head ↔ ∀ word ∈ request.head, word.length ≤ 512 := by
  have each : request.cut = request.head ↔ ∀ word ∈ request.head, clip 512 word = id word := by
    rw [<- List.map_inj_left, List.map_id, cut]
  rw [each]
  simp only [id, clip_eq_iff]

theorem ClientRequest.intact_cut (intact : request.Intact) : request.cut = request.head := by
  obtain ⟨words, read, _, asks⟩ := request.intact_iff.mp intact
  have before : request.cut <+: words := readLines_initial rfl read
  have same : request.cut.length = request.head.length := by simp [cut]
  exact List.prefix_of_prefix_length_le before (asks_head asks) same.le |>.eq_of_length same

end Head

section Value

variable {args : List CString}

theorem quotecollect_dropped {b : UInt8} (dropped : isText b = false) (word : CString) :
    parseChar ⟨.quotecollect, args, word, 32, 512⟩ (charToInt b) = ⟨.quotecollect, args, word, 32, 512⟩ := by
  have notQuote : b ≠ 34 := by
    rintro rfl
    cases dropped
  have notEscape : b ≠ 92 := by
    rintro rfl
    cases dropped
  have outside : charToInt b < 0x20 ∨ charToInt b > 0x7f := by
    have small : ¬ (32 ≤ b.toNat ∧ b.toNat ≤ 127) := by
      rw [<- isText_iff, dropped]
      decide
    have bound := b.toNat_lt
    rw [charToInt]
    split <;> omega
  simp [parseChar, quotecollect, notQuote, notEscape, addchar, outside, enter]

theorem leadsTo_escapeChar (b : UInt8) (word : CString) :
    LeadsTo ⟨.quotecollect, args, clip 512 word, 32, 512⟩ (escapeChar b)
      ⟨.quotecollect, args, clip 512 (word ++ [b].filter isText), 32, 512⟩ := by
  have special {b : UInt8} (text : isText b = true) : LeadsTo ⟨.quotecollect, args, clip 512 word, 32, 512⟩ [92, b]
        ⟨.quotecollect, args, clip 512 (word ++ [b]), 32, 512⟩ := by
    have oneLine : ∀ c ∈ [92, b], c ≠ 10 := by
      simpa using isText_ne_newline text
    have leads := leadsTo_run (show lineDone ⟨.quotecollect, args, clip 512 word, 32, 512⟩ = false from rfl) oneLine
    rwa [runChars_cons, quotecollect_escape, runChars_cons, qcLiteral_text args word 32 512 text, runChars_nil] at leads
  unfold escapeChar
  split_ifs with quote escape
  · subst quote
    exact special rfl
  · subst escape
    exact special rfl
  · have running : lineDone ⟨.quotecollect, args, clip 512 word, 32, 512⟩ = false := rfl
    by_cases text : isText b = true
    · have step := quotecollect_raw args word 32 512 text quote escape
      have leads := leadsTo_char running (show lineDone (parseChar _ (charToInt b)) = false by rw [step]; rfl)
      rw [step] at leads
      simpa [text] using leads
    · have dropped : isText b = false := by simpa using text
      have step := @quotecollect_dropped args b dropped (clip 512 word)
      have leads := leadsTo_char running (show lineDone (parseChar _ (charToInt b)) = false by rw [step]; rfl)
      rw [step] at leads
      simpa [dropped] using leads

theorem leadsTo_escape (value : CString) :
    LeadsTo (waiting args) (escape value) ⟨.findwordstart, addArg 32 args (clip 512 (value.filter isText)), [], 32, 512⟩ := by
  have inside (word : CString) : LeadsTo ⟨.quotecollect, args, clip 512 word, 32, 512⟩ (value.flatMap escapeChar)
      ⟨.quotecollect, args, clip 512 (word ++ value.filter isText), 32, 512⟩ := by
    induction value generalizing word with
    | nil => exact fun more => by simp
    | cons b value ih =>
      have both := leadsTo_trans (leadsTo_escapeChar b word) (ih (word ++ [b].filter isText))
      rwa [List.append_assoc, <- List.filter_append] at both
  have opens : LeadsTo (waiting args) [34] ⟨.quotecollect, args, clip 512 [], 32, 512⟩ := leadsTo_char rfl rfl
  have closes : LeadsTo ⟨.quotecollect, args, clip 512 (value.filter isText), 32, 512⟩ [34]
      ⟨.findwordstart, addArg 32 args (clip 512 (value.filter isText)), [], 32, 512⟩ := by
    have step := quotecollect_quote args (clip 512 (value.filter isText)) 32 512
    rw [<- step]
    exact leadsTo_char rfl (by rw [step]; rfl)
  exact leadsTo_trans (leadsTo_trans opens (inside [])) closes

theorem read_newline (args : List CString) :
    readLines (waiting args) [10] = [args] ∧ lineDone (readCtx (waiting args) [10]) = true := ⟨rfl, rfl⟩

end Value

def ClientRequest.Safe (request : ClientRequest) : Prop :=
  (∀ word ∈ request.head, word.length ≤ 512) ∧
    match request with
    | setDeviceVariable _ _ value => (∀ b ∈ value, printable b = true) -> value.length ≤ 512
    | executeDeviceCommand _ _ param =>
      param = [] ∨
        if ∀ b ∈ param, printable b = true then Word param ∧ param.length ≤ 512 else singleWord param = true

section Intact

variable (dev name : Name)

theorem set_intact_iff (value : CString) (fits : (ClientRequest.setDeviceVariable dev name value).cut =
      (ClientRequest.setDeviceVariable dev name value).head) : (ClientRequest.setDeviceVariable dev name value).Intact ↔
      ((∀ b ∈ value, printable b = true) -> value.length ≤ 512) := by
  have few : [cstr "SET", cstr "VAR", dev.text, name.text].length < 32 := by simp
  have read := @leadsTo_escape [cstr "SET", cstr "VAR", dev.text, name.text] value [10]
  rw [addArg_fits _ few] at read
  have line := read_newline ([cstr "SET", cstr "VAR", dev.text, name.text] ++ [clip 512 (value.filter isText)])
  rw [waiting, <- read.1, <- read.2] at line
  have kept (isPrintable : ∀ b ∈ value, printable b = true) : value.filter isText = value :=
    List.filter_eq_self.mpr (printable_text isPrintable)
  rw [ClientRequest.intact_iff, fits]
  constructor
  · rintro ⟨words, lines, _, word, same, faithful⟩ isPrintable
    have lines := lines.symm.trans line.1
    simp only [List.cons.injEq, and_true] at lines
    rw [lines, ClientRequest.head, List.append_cancel_left_eq, List.cons.injEq, kept isPrintable] at same
    rw [<- clip_eq_iff, same.1]
    exact faithful isPrintable
  · intro short
    refine ⟨_, line.1, line.2, _, rfl, fun isPrintable => ?_⟩
    rw [kept isPrintable]
    exact (clip_eq_iff value).mpr (short isPrintable)

theorem instcmd_intact_iff (param : CString) (fits : (ClientRequest.executeDeviceCommand dev name param).cut =
      (ClientRequest.executeDeviceCommand dev name param).head) :
    (ClientRequest.executeDeviceCommand dev name param).Intact ↔ param = [] ∨
        if ∀ b ∈ param, printable b = true then Word param ∧ param.length ≤ 512 else singleWord param = true := by
  rw [ClientRequest.intact_iff, fits]
  by_cases none_ : param = []
  · subst none_
    have line := read_newline [cstr "INSTCMD", dev.text, name.text]
    simp only [true_or, iff_true]
    exact ⟨_, line.1, line.2, rfl⟩
  have asks (words : List CString) : (ClientRequest.executeDeviceCommand dev name param).Asks words ↔
      ∃ word, words = [cstr "INSTCMD", dev.text, name.text] ++ [word] ∧
        ((∀ b ∈ param, printable b = true) -> word = param) := by
    unfold ClientRequest.Asks
    split
    next same =>
      cases same
      exact absurd rfl none_
    next => rfl
  simp only [asks, none_, false_or]
  split_ifs with isPrintable
  · have isText := printable_text isPrintable
    have oneLine : ∀ b ∈ param, b ≠ 10 := fun b member => isText_ne_newline (isText b member)
    have alone := @reads_itself [cstr "INSTCMD", dev.text, name.text] param isText (by simp)
    rw [<- alone, Reads, <- readLine_iff rfl oneLine]
    constructor
    · rintro ⟨words, read, done, word, rfl, same⟩
      rw [same isPrintable] at read
      exact ⟨read, done⟩
    · rintro ⟨read, done⟩
      exact ⟨_, read, done, param, rfl, fun _ => rfl⟩
  · have single := @completeLine_single (waiting [cstr "INSTCMD", dev.text, name.text]) 4 rfl (by simp [waiting]) rfl param
    rw [<- single]
    constructor
    · rintro ⟨words, read, done, word, rfl, _⟩
      exact ⟨_, read, done, rfl⟩
    · rintro ⟨words, read, done, count⟩
      obtain ⟨more, rfl⟩ := readLines_initial rfl read
      obtain ⟨word, rfl⟩ := List.length_eq_one_iff.mp (by simpa [waiting] using count)
      exact ⟨_, read, done, word, rfl, fun faithful => absurd faithful isPrintable⟩

-- A value always arrives, up to the limits of the parser; a parameter only if it needs no quotes.
theorem clientRequest_intact_iff (request : ClientRequest) : request.Intact ↔ request.Safe := by
  unfold ClientRequest.Safe
  rw [<- request.cut_eq_iff]
  constructor
  · intro intact
    have fits := request.intact_cut intact
    refine ⟨fits, ?_⟩
    cases request with
    | setDeviceVariable dev name value => exact (set_intact_iff dev name value fits).mp intact
    | executeDeviceCommand dev name param => exact (instcmd_intact_iff dev name param fits).mp intact
  · rintro ⟨fits, safe⟩
    cases request with
    | setDeviceVariable dev name value => exact (set_intact_iff dev name value fits).mpr safe
    | executeDeviceCommand dev name param => exact (instcmd_intact_iff dev name param fits).mpr safe

-- The second line of the parameter is a command of its own.
theorem not_clientRequest_intact :
    (readLines pconfInit (ClientRequest.executeDeviceCommand ⟨cstr "ups", by decide, by decide +kernel⟩
        ⟨cstr "beeper.off", by decide, by decide +kernel⟩ (cstr "1\nFSD ups")).sent =
      [[cstr "INSTCMD", cstr "ups", cstr "beeper.off", cstr "1"], [cstr "FSD", cstr "ups"]]) ∧
      ¬ (ClientRequest.executeDeviceCommand ⟨cstr "ups", by decide, by decide +kernel⟩
        ⟨cstr "beeper.off", by decide, by decide +kernel⟩ (cstr "1\nFSD ups")).Intact := by
  have lines : readLines pconfInit (ClientRequest.executeDeviceCommand ⟨cstr "ups", by decide, by decide +kernel⟩
        ⟨cstr "beeper.off", by decide, by decide +kernel⟩ (cstr "1\nFSD ups")).sent =
      [[cstr "INSTCMD", cstr "ups", cstr "beeper.off", cstr "1"], [cstr "FSD", cstr "ups"]] := by decide +kernel
  refine ⟨lines, fun intact => ?_⟩
  obtain ⟨words, read, _⟩ := intact pconfInit (atLineStart_init 32 512) rfl rfl
  rw [lines] at read
  cases read

end Intact

end Nut
