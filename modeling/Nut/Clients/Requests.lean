import Nut.Common.ParseConfArrival
import Nut.Clients.Sendcmd
import Nut.Clients.Upssched

set_option autoImplicit false

namespace Nut

def requestWords (caller : Caller) (cmd arg1 : CString) (arg2 : Option CString) : List CString :=
  [cmd, arg1, arg2.getD [], caller.notifyType, caller.upsName, caller.notifyMsg.getD []]

def fieldText (word : CString) : CString :=
  [32, 34] ++ escapeAll word ++ [34]

def fieldsText (words : List CString) : CString :=
  words.flatMap fieldText

@[simp] theorem fieldsText_cons (word : CString) (words : List CString) :
    fieldsText (word :: words) = fieldText word ++ fieldsText words := rfl

theorem fieldText_length (word : CString) : (fieldText word).length = (escapeAll word).length + 3 := by
  simp [fieldText]

section Buffer

theorem take_initial {a b : CString} (initial : a <+: b) {n : Nat} (few : n ≤ a.length) : b.take n = a.take n := by
  obtain ⟨rest, rfl⟩ := initial
  exact List.take_append_of_le_length few

theorem requestField_take (word : CString) {n : Nat} (few : n ≤ 1030) :
    (requestField word).take n = (fieldText word).take n := by
  have encoded := pconfEncode_eq (show 2 ≤ largebuf + 8 by decide) word []
  by_cases whole : (escapeAll word).length ≤ 1031
  · rw [requestField, encoded, fitPrefix_all (by simpa [largebuf] using whole), fieldText]
  · have full := @escapeAll_fitPrefix_full 1031 word (by omega)
    have initial : escapeAll (fitPrefix 1031 word) <+: escapeAll word := by
      obtain ⟨rest, split⟩ := fitPrefix_initial 1031 word
      exact ⟨escapeAll rest, by rw [<- escapeAll_append, split]⟩
    have opened : [32, 34] ++ escapeAll (fitPrefix 1031 word) <+: fieldText word :=
      ((List.prefix_append_right_inj [32, 34]).mpr initial).trans (List.prefix_append _ [34])
    have inside : n ≤ ([32, 34] ++ escapeAll (fitPrefix 1031 word)).length := by
      simp
      omega
    rw [requestField, encoded, take_initial opened inside, show largebuf + 8 - 1 = 1031 from rfl,
      List.take_append_of_le_length inside]

-- What the buffer of `sendcmd` holds when `text` was to get into it.
structure Filled (text buf : CString) : Prop where
  initial : buf <+: text
  whole : text.length ≤ 1022 -> buf = text
  cut : 1022 < text.length -> 1022 ≤ buf.length ∧ buf.length ≤ 1023

variable {text buf : CString}

theorem filled_snprintf {cmd : CString} (short : cmd.length ≤ 512) (word : CString) :
    Filled (cmd ++ fieldText word) (snprintf largebuf (cmd ++ requestField word)) := by
  have same : snprintf largebuf (cmd ++ requestField word) = (cmd ++ fieldText word).take 1023 := by
    rw [snprintf, show largebuf - 1 = 1023 from rfl, List.take_append, List.take_append,
      requestField_take word (by omega)]
  rw [same]
  refine ⟨List.take_prefix _ _, fun few => List.take_of_length_le (by omega), fun many => ?_⟩
  rw [List.length_take]
  omega

theorem filled_snprintfcat (filled : Filled text buf) (word : CString) :
    Filled (text ++ fieldText word) (snprintfcat buf largebuf (requestField word)) ∧
      (1022 < (text ++ fieldText word).length ->
        (snprintfcat buf largebuf (requestField word)).length < (text ++ fieldText word).length) := by
  have wide := fieldText_length word
  have room : ¬ buf.length > largebuf - 1 := by
    have := filled.initial.length_le
    have := filled.cut
    simp only [largebuf]
    omega
  have left : largebuf - 1 - buf.length - 1 = 1022 - buf.length := by
    simp only [largebuf]
    omega
  have same : snprintfcat buf largebuf (requestField word) = buf ++ (fieldText word).take (1022 - buf.length) := by
    rw [snprintfcat, if_neg room, left, requestField_take word (by omega)]
  rw [same]
  by_cases before : text.length ≤ 1022
  · have here := filled.whole before
    subst here
    have length : (buf ++ (fieldText word).take (1022 - buf.length)).length =
        buf.length + min (1022 - buf.length) (fieldText word).length := by
      rw [List.length_append, List.length_take]
    refine ⟨⟨(List.prefix_append_right_inj buf).mpr (List.take_prefix _ _), fun few => ?_, fun many => ?_⟩,
      fun many => ?_⟩
    · rw [List.length_append] at few
      rw [List.take_of_length_le (by omega)]
    · rw [List.length_append] at many
      rw [length]
      omega
    · rw [length, List.length_append]
      rw [List.length_append] at many
      omega
  · obtain ⟨low, high⟩ := filled.cut (by omega)
    have nothing : 1022 - buf.length = 0 := by omega
    rw [nothing, List.take_zero, List.append_nil]
    refine ⟨⟨filled.initial.trans (List.prefix_append _ _), fun few => ?_, fun _ => ⟨low, high⟩⟩, fun _ => ?_⟩
    · rw [List.length_append] at few
      omega
    · rw [List.length_append]
      omega

theorem sendcmd_filled (caller : Caller) {cmd : CString} (short : cmd.length ≤ 512) (arg1 : CString)
    (arg2 : Option CString) : ∃ buf, sendcmd caller cmd arg1 arg2 = buf ++ [10] ∧
      Filled (cmd ++ fieldsText (requestWords caller cmd arg1 arg2).tail) buf ∧
      (1022 < (cmd ++ fieldsText (requestWords caller cmd arg1 arg2).tail).length ->
        buf.length < (cmd ++ fieldsText (requestWords caller cmd arg1 arg2).tail).length) := by
  have first := filled_snprintf short arg1
  have second := (filled_snprintfcat first (arg2.getD [])).1
  have third := (filled_snprintfcat second caller.notifyType).1
  have fourth := (filled_snprintfcat third caller.upsName).1
  obtain ⟨last, strict⟩ := filled_snprintfcat fourth (caller.notifyMsg.getD [])
  have text : cmd ++ fieldsText (requestWords caller cmd arg1 arg2).tail =
      cmd ++ fieldText arg1 ++ fieldText (arg2.getD []) ++ fieldText caller.notifyType ++
        fieldText caller.upsName ++ fieldText (caller.notifyMsg.getD []) := by
    simp [requestWords, fieldsText]
  rw [<- text] at last strict
  refine ⟨_, snprintf_fits ?_, last, strict⟩
  have bound := last.initial.length_le
  have := last.whole
  have := last.cut
  rw [List.length_append, List.length_singleton]
  simp only [largebuf] at *
  omega

end Buffer

section Cut

variable {args : List CString}

theorem run_escaped_part {text part : CString} (isPart : part <+: escapeAll text)
    (isText : ∀ b ∈ text, Nut.isText b = true) (word : CString) :
    ∃ state word', runChars ⟨.quotecollect, args, clip 512 word, 32, 512⟩ part = ⟨state, args, word', 32, 512⟩ ∧
      (state = .quotecollect ∨ state = .qcLiteral) := by
  induction text generalizing part word with
  | nil =>
    rw [List.prefix_nil.mp isPart]
    exact ⟨_, _, rfl, Or.inl rfl⟩
  | cons b rest ih =>
    have head := isText b List.mem_cons_self
    have tail : ∀ c ∈ rest, Nut.isText c = true := fun c member => isText c (List.mem_cons_of_mem b member)
    cases part with
    | nil => exact ⟨_, _, rfl, Or.inl rfl⟩
    | cons c part =>
      by_cases special : pconfEscape b = true
      · simp only [escapeAll_cons, special, if_true, List.cons_append, List.nil_append] at isPart
        obtain ⟨rfl, escaped⟩ := List.cons_prefix_cons.mp isPart
        rw [runChars_cons, quotecollect_escape]
        cases part with
        | nil => exact ⟨_, _, rfl, Or.inr rfl⟩
        | cons c part =>
          obtain ⟨rfl, later⟩ := List.cons_prefix_cons.mp escaped
          rw [runChars_cons, qcLiteral_text args word 32 512 head]
          exact ih later tail _
      · have plain : b ≠ 35 ∧ b ≠ 92 ∧ b ≠ 34 := by simpa [pconfEscape, and_assoc] using special
        simp only [escapeAll_cons, special, Bool.false_eq_true, if_false, List.cons_append, List.nil_append] at isPart
        obtain ⟨rfl, later⟩ := List.cons_prefix_cons.mp isPart
        rw [runChars_cons, quotecollect_raw args word 32 512 head plain.2.2 plain.2.1]
        exact ih later tail _

theorem part_append {a b part : CString} (isPart : part <+: a ++ b) :
    part <+: a ∨ ∃ later, part = a ++ later ∧ later <+: b := by
  obtain short | ⟨later, rfl⟩ := List.prefix_or_prefix_of_prefix isPart (List.prefix_append a b)
  · exact Or.inl short
  · exact Or.inr ⟨later, rfl, (List.prefix_append_right_inj a).mp isPart⟩

theorem run_fields_part {words : List CString} {part : CString} (isPart : part <+: fieldsText words)
    (cut : part.length < (fieldsText words).length) (isText : ∀ word ∈ words, ∀ b ∈ word, Nut.isText b = true) :
    ∃ state args' word, runChars ⟨.findwordstart, args, [], 32, 512⟩ part = ⟨state, args', word, 32, 512⟩ ∧
      (state = .findwordstart ∨ state = .quotecollect ∨ state = .qcLiteral) ∧
      args'.length < args.length + words.length := by
  induction words generalizing args part with
  | nil => simp [fieldsText] at cut
  | cons word words ih =>
    have head := isText word List.mem_cons_self
    have tail : ∀ later ∈ words, ∀ b ∈ later, Nut.isText b = true :=
      fun later member => isText later (List.mem_cons_of_mem word member)
    have split : fieldsText (word :: words) = 32 :: 34 :: (escapeAll word ++ 34 :: fieldsText words) := by
      simp [fieldText]
    have fewer : args.length < args.length + (word :: words).length := by
      rw [List.length_cons]
      omega
    rw [split] at isPart cut
    obtain _ | ⟨space, part⟩ := part
    · exact ⟨_, _, _, rfl, Or.inl rfl, fewer⟩
    obtain ⟨rfl, opened⟩ := List.cons_prefix_cons.mp isPart
    rw [runChars_cons, findwordstart_space]
    obtain _ | ⟨quote, part⟩ := part
    · exact ⟨_, _, _, rfl, Or.inl rfl, fewer⟩
    obtain ⟨rfl, quoted⟩ := List.cons_prefix_cons.mp opened
    rw [runChars_cons, findwordstart_quote]
    obtain inside | ⟨later, rfl, behind⟩ := part_append quoted
    · obtain ⟨state, word', run, states⟩ := @run_escaped_part args _ _ inside head []
      rw [clip_nil] at run
      exact ⟨state, args, word', run, Or.inr states, fewer⟩
    · have collected := run_quoted args 32 512 (quotedAs_escapeAll head) []
      rw [clip_nil, List.nil_append] at collected
      rw [runChars_append, collected]
      obtain _ | ⟨closing, later⟩ := later
      · exact ⟨_, _, _, rfl, Or.inr (Or.inl rfl), fewer⟩
      obtain ⟨rfl, next⟩ := List.cons_prefix_cons.mp behind
      rw [runChars_cons, quotecollect_quote]
      have shorter : later.length < (fieldsText words).length := by
        simp only [List.length_cons, List.length_append] at cut
        omega
      obtain ⟨state, args', word', run, states, few⟩ := @ih (addArg 32 args (clip 512 word)) _ next shorter tail
      refine ⟨state, args', word', run, states, ?_⟩
      have added : (addArg 32 args (clip 512 word)).length ≤ args.length + 1 := by
        unfold addArg
        split <;> simp
      rw [List.length_cons]
      omega

end Cut

section Whole

theorem lineOf_fields {written meaning : CString} (token : Token written meaning) {fields : List CString}
    (isText : ∀ word ∈ fields, ∀ b ∈ word, Nut.isText b = true) :
    LineOf (written ++ fieldsText fields) (meaning :: fields) := by
  induction fields generalizing written meaning with
  | nil =>
    rw [show fieldsText [] = [] from rfl, List.append_nil]
    exact .last token
  | cons word fields ih =>
    have quoted := quotedAs_escapeAll (isText word List.mem_cons_self)
    have rest := ih (.quoted quoted) fun later member => isText later (List.mem_cons_of_mem word member)
    have line := LineOf.more token rest
    have split : written ++ fieldsText (word :: fields) =
        written ++ 32 :: (34 :: escapeAll word ++ [34] ++ fieldsText fields) := by
      simp [fieldText]
    rwa [split]

theorem addArgs_intact {words : List CString} (few : words.length ≤ 32) :
    addArgs 32 512 [] words = words ↔ ∀ word ∈ words, word.length ≤ 512 := by
  constructor
  · intro intact word member
    rw [<- intact] at member
    have clipped : ∀ args, (∀ arg ∈ args, arg.length ≤ 512) -> ∀ arg ∈ addArgs 32 512 args words, arg.length ≤ 512 := by
      clear intact member few
      induction words with
      | nil => exact fun args short => short
      | cons first words ih =>
        intro args short
        refine ih (addArg 32 args (clip 512 first)) fun arg member => ?_
        unfold addArg at member
        split at member
        · exact short arg member
        · obtain old | new := List.mem_append.mp member
          · exact short arg old
          · rw [List.mem_singleton.mp new, clip, if_neg (by decide), List.length_take]
            omega
    exact clipped [] (by simp) word member
  · intro short
    exact addArgs_fits (by simpa using few) short

end Whole

theorem request_arrives_iff (caller : Caller) {cmd arg1 : CString} {arg2 : Option CString} (bare : BareWord cmd)
    (short : cmd.length ≤ 512) (isText : ∀ word ∈ requestWords caller cmd arg1 arg2, ∀ b ∈ word, Nut.isText b = true) :
    Arrives (sendcmd caller cmd arg1 arg2) (requestWords caller cmd arg1 arg2) ↔
      (∀ word ∈ requestWords caller cmd arg1 arg2, word.length ≤ 512) ∧
        (cmd ++ fieldsText (requestWords caller cmd arg1 arg2).tail).length ≤ 1022 := by
  obtain ⟨buf, sent, filled, strict⟩ := sendcmd_filled caller short arg1 arg2
  have words : requestWords caller cmd arg1 arg2 = cmd :: (requestWords caller cmd arg1 arg2).tail := rfl
  have fieldsAreText : ∀ word ∈ (requestWords caller cmd arg1 arg2).tail, ∀ b ∈ word, Nut.isText b = true :=
    fun word member => isText word (List.mem_of_mem_tail member)
  have line := lineOf_fields bare.token fieldsAreText
  have oneLine : ∀ b ∈ buf, b ≠ 10 :=
    fun b member => isText_ne_newline (line.isText b (filled.initial.subset member))
  rw [sent, arrives_iff oneLine]
  by_cases fits : (cmd ++ fieldsText (requestWords caller cmd arg1 arg2).tail).length ≤ 1022
  · have run := run_line [] 32 512 line
    rw [<- words, <- filled.whole fits] at run
    rw [waiting, run]
    have intact := addArgs_intact (show (requestWords caller cmd arg1 arg2).length ≤ 32 by simp [requestWords])
    exact (and_iff_right rfl).trans (intact.trans (and_iff_left fits).symm)
  · -- The parser is still inside a word, or has seen too few of them.
    have long := (filled.cut (by omega)).1
    have shorter := strict (by omega)
    obtain inside | ⟨later, rfl, isPart⟩ := part_append filled.initial
    · have := inside.length_le
      omega
    rw [List.length_append] at long
    rw [List.length_append, List.length_append] at shorter
    obtain _ | ⟨space, later⟩ := later
    · rw [List.length_nil] at long
      omega
    have isSpace : space = 32 := (List.cons_prefix_cons.mp isPart).1
    subst isSpace
    obtain ⟨state, args, word, run, states, few⟩ := @run_fields_part [cmd] _ _ isPart (by omega) fieldsAreText
    have first := run_token_space [] 32 512 bare.token
    rw [clip_fits short, addArg_fits cmd (by simp), List.nil_append] at first
    rw [runChars_cons, findwordstart_space] at run
    have whole : runChars (waiting []) (cmd ++ 32 :: later ++ [10]) =
        parseChar ⟨state, args, word, 32, 512⟩ (charToInt 10) := by
      rw [show cmd ++ 32 :: later ++ [10] = (cmd ++ [32]) ++ (later ++ [10]) by simp, runChars_append, waiting, first,
        runChars_append, run]
      rfl
    rw [whole]
    constructor
    · rintro ⟨done, intact⟩
      obtain rfl | rfl | rfl := states
      · rw [findwordstart_newline] at intact
        change args = _ at intact
        rw [intact] at few
        simp [requestWords] at few
      · exact absurd done (by simp [parseChar, enter, quotecollect, charToInt])
      · exact absurd done (by simp [parseChar, enter, qcLiteral, charToInt])
    · rintro ⟨_, small⟩
      exact absurd small fits

section Config

theorem parseAt_sendcmd {conf : UpsschedConf} {caller : Caller} {ntype un cmd ca1 sentCmd arg1 : CString}
    {ca2 arg2 : Option CString} (sent : parseAt conf caller ntype un cmd ca1 ca2 = .sendcmd sentCmd arg1 arg2) :
    sentCmd ∈ [cstr "START", cstr "START-SHARED", cstr "CANCEL"] ∧ arg1 = ca1 ∧ arg2 = ca2 := by
  unfold parseAt at sent
  split_ifs at sent <;> cases sent <;> simp

theorem confArg_sendcmd {caller : Caller} {conf : UpsschedConf} {arglist : List CString} {cmd arg1 : CString}
    {arg2 : Option CString} (sent : (upsschedConfArg caller conf arglist).2 = .sendcmd cmd arg1 arg2) :
    cmd ∈ [cstr "START", cstr "START-SHARED", cstr "CANCEL"] ∧ arg1 ∈ arglist ∧ ∀ arg ∈ arg2, arg ∈ arglist := by
  unfold upsschedConfArg at sent
  split at sent
  next keyword value rest =>
    split_ifs at sent <;> split at sent <;> try cases sent
    next un atCmd ca1 more =>
      obtain ⟨known, rfl, rfl⟩ := parseAt_sendcmd sent
      refine ⟨known, by simp, fun arg member => ?_⟩
      have := List.mem_of_head? member
      simp [this]
  next => cases sent

theorem checkconf_sendcmd {caller : Caller} {conf : UpsschedConf} {lines : List (List CString)}
    {cmd arg1 : CString} {arg2 : Option CString} (sent : .sendcmd cmd arg1 arg2 ∈ checkconf caller conf lines)
    (received : ∀ arglist ∈ lines, ∀ word ∈ arglist, Receivable word) :
    cmd ∈ [cstr "START", cstr "START-SHARED", cstr "CANCEL"] ∧ Receivable arg1 ∧ Receivable (arg2.getD []) := by
  induction lines generalizing conf with
  | nil => simp [checkconf] at sent
  | cons arglist lines ih =>
    have here := received arglist List.mem_cons_self
    have later : ∀ arglist ∈ lines, ∀ word ∈ arglist, Receivable word :=
      fun other member => received other (List.mem_cons_of_mem arglist member)
    have first := @confArg_sendcmd caller conf arglist cmd arg1 arg2
    unfold checkconf at sent
    cases call : upsschedConfArg caller conf arglist with
    | mk conf' action =>
    rw [call] at sent first
    have next : action = .sendcmd cmd arg1 arg2 ∨ .sendcmd cmd arg1 arg2 ∈ checkconf caller conf' lines := by
      cases action with
      | fatalx => simp at sent
      | _ => exact (List.mem_cons.mp sent).imp Eq.symm id
    obtain now | rest := next
    · obtain ⟨known, second, third⟩ := first now
      refine ⟨known, here arg1 second, ?_⟩
      cases arg2 with
      | none => exact receivable_nil
      | some arg => exact here arg (third arg rfl)
    · exact ih rest later

end Config

def Caller.Printable (caller : Caller) : Prop :=
  ∀ word ∈ [caller.notifyType, caller.upsName, caller.notifyMsg.getD []], ∀ b ∈ word, isText b = true

instance (caller : Caller) : Decidable caller.Printable :=
  decidable_of_iff
    ([caller.notifyType, caller.upsName, caller.notifyMsg.getD []].all (fun word => word.all isText) = true)
    (by simp [Caller.Printable])

def Delivered (caller : Caller) (cmd arg1 : CString) (arg2 : Option CString) : Prop :=
  Arrives (sendcmd caller cmd arg1 arg2) (requestWords caller cmd arg1 arg2) ∧
    ∀ now kept s s' ok, upsschedSockArg now kept (requestWords caller cmd arg1 arg2) s = some (s', ok) -> ok = true

-- No word is too long for the parser, nor all of them, encoded and quoted, for the line.
def RequestFits (caller : Caller) (cmd arg1 : CString) (arg2 : Option CString) : Prop :=
  (∀ word ∈ [caller.notifyType, caller.upsName, caller.notifyMsg.getD []], word.length ≤ 512) ∧
    (cmd ++ fieldsText (requestWords caller cmd arg1 arg2).tail).length ≤ 1022

theorem daemon_says_ok {caller : Caller} {cmd arg1 : CString} {arg2 : Option CString}
    (known : cmd ∈ [cstr "START", cstr "START-SHARED", cstr "CANCEL"]) {now : Int} {kept : Nat -> Bool}
    {s s' : Upssched} {ok : Bool}
    (served : upsschedSockArg now kept (requestWords caller cmd arg1 arg2) s = some (s', ok)) : ok = true := by
  have start : cstr "START" ≠ cstr "LIST-TIMERS" ∧ cstr "START" ≠ cstr "CANCEL" ∧
      cstr "START" ≠ cstr "CANCEL-MATCHED" := by decide
  have shared : cstr "START-SHARED" ≠ cstr "LIST-TIMERS" ∧ cstr "START-SHARED" ≠ cstr "CANCEL" ∧
      cstr "START-SHARED" ≠ cstr "CANCEL-MATCHED" ∧ cstr "START-SHARED" ≠ cstr "START" := by decide
  have cancel : cstr "CANCEL" ≠ cstr "LIST-TIMERS" := by decide
  simp only [List.mem_cons, List.not_mem_nil, or_false] at known
  obtain rfl | rfl | rfl := known
  all_goals
    simp only [upsschedSockArg, requestWords, timerRequest, cancelRequest, start, shared, cancel, if_true, if_false,
      Option.map_eq_some_iff, Prod.mk.injEq] at served
    obtain ⟨_, _, _, rfl⟩ := served
    rfl

def sampleCaller : Caller :=
  { upsName := cstr "ups@x", notifyType := cstr "ONBATT", notifyMsg := some (cstr "on \"battery\"") }

def sampleUpsschedConf : CString :=
  cstr "CMDSCRIPT s\nPIPEFN p\nLOCKFN l\nAT ONBATT * START-TIMER t 30\n"

theorem sampleUpsschedConf_lists : fileLists pconfInit sampleUpsschedConf =
      [[cstr "CMDSCRIPT", cstr "s"], [cstr "PIPEFN", cstr "p"], [cstr "LOCKFN", cstr "l"],
        [cstr "AT", cstr "ONBATT", cstr "*", cstr "START-TIMER", cstr "t", cstr "30"]] := by
  have complete : CompleteLines (startLine pconfInit) sampleUpsschedConf := Or.inr (by decide +kernel)
  rw [(feeds_agree _ _ complete).1]
  decide +kernel

theorem requests_delivered (caller : Caller) (printable : caller.Printable) (file : CString) {cmd arg1 : CString}
    {arg2 : Option CString} (sent : .sendcmd cmd arg1 arg2 ∈ checkconf caller .initial (fileLists pconfInit file)) :
    Delivered caller cmd arg1 arg2 ↔ RequestFits caller cmd arg1 arg2 := by
  have received : Received pconfInit := ⟨rfl, receivable_nil, by simp [pconfInit, pconfInitWith]⟩
  obtain ⟨known, first, second⟩ := checkconf_sendcmd sent (received_fileLists received file)
  have bare : BareWord cmd ∧ cmd.length ≤ 512 := by
    simp only [List.mem_cons, List.not_mem_nil, or_false] at known
    obtain rfl | rfl | rfl := known <;> decide +kernel
  have text : ∀ word ∈ requestWords caller cmd arg1 arg2, ∀ b ∈ word, isText b = true := by
    intro word member
    obtain rfl | rfl | rfl | env : word = cmd ∨ word = arg1 ∨ word = arg2.getD [] ∨
        word ∈ [caller.notifyType, caller.upsName, caller.notifyMsg.getD []] := by
      simpa [requestWords] using member
    · exact fun b inside => (isBare_iff.mp (bare.1.2.2 b inside)).1
    · exact first.2
    · exact second.2
    · exact printable word env
  have short : (∀ word ∈ requestWords caller cmd arg1 arg2, word.length ≤ 512) ↔
      ∀ word ∈ [caller.notifyType, caller.upsName, caller.notifyMsg.getD []], word.length ≤ 512 := by
    have firstShort : arg1.length ≤ 512 := first.1
    have secondShort : (arg2.getD []).length ≤ 512 := second.1
    simp [requestWords, bare.2, firstShort, secondShort]
  have arrives := request_arrives_iff caller bare.1 bare.2 text
  rw [short] at arrives
  exact ⟨fun delivered => arrives.mp delivered.1,
    fun fits => ⟨arrives.mpr fits, fun _ _ _ _ _ served => daemon_says_ok known served⟩⟩

theorem requests_delivered_sample : Delivered sampleCaller (cstr "START") (cstr "t") (some (cstr "30")) ↔
      RequestFits sampleCaller (cstr "START") (cstr "t") (some (cstr "30")) :=
  requests_delivered sampleCaller (by decide +kernel) sampleUpsschedConf
    (by rw [sampleUpsschedConf_lists]; decide +kernel)

def longCaller : Caller :=
  { sampleCaller with notifyMsg := some (List.replicate 1100 97) }

-- The closing quote is cut off, and the daemon waits for the rest of the line.
theorem request_cut : longCaller.Printable ∧ .sendcmd (cstr "START") (cstr "t") (some (cstr "30")) ∈
        checkconf longCaller .initial (fileLists pconfInit sampleUpsschedConf) ∧
      readLines pconfInit (sendcmd longCaller (cstr "START") (cstr "t") (some (cstr "30"))) = [] ∧
      ¬ Delivered longCaller (cstr "START") (cstr "t") (some (cstr "30")) := by
  have nothing : readLines pconfInit (sendcmd longCaller (cstr "START") (cstr "t") (some (cstr "30"))) = [] := by
    decide +kernel
  refine ⟨by decide +kernel, by rw [sampleUpsschedConf_lists]; decide +kernel, nothing, fun delivered => ?_⟩
  have read := delivered.1.2 pconfInit (atLineStart_init _ _) rfl rfl
  rw [nothing] at read
  cases read

end Nut
