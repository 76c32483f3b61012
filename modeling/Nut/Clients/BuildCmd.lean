import Nut.Clients.Upsclient
import Nut.Common.ParseConfArrival
import Nut.Common.ParseConfReread

set_option autoImplicit false

namespace Nut

def splitEquals (word : CString) : CString -> List CString
  | [] => if word = [] then [] else [word]
  | b :: text =>
    if b = 61 then (if word = [] then [] else [word]) ++ [61] :: splitEquals [] text
    else splitEquals (word ++ [b]) text

def arrivingWords (arg : CString) : List CString :=
  if 32 ∈ arg then [arg] else splitEquals [] arg

def Sendable (arg : CString) : Prop :=
  32 ∈ arg ∨ (arg ≠ [] ∧ 61 ∉ arg) ∨ arg = [61]

def fieldOf (arg : CString) : CString :=
  if 32 ∈ arg then [34] ++ escapeAll arg ++ [34] else escapeAll arg

def cmdText (cmdname : CString) (args : List CString) : CString :=
  cmdname ++ args.flatMap fun arg => 32 :: fieldOf arg

section Splitting

variable {word text arg : CString}

theorem splitEquals_nonempty : [] ∉ splitEquals word text := by
  induction text generalizing word with
  | nil =>
    unfold splitEquals
    split <;> simp_all [eq_comm]
  | cons b text ih =>
    unfold splitEquals
    split
    · split <;> simp_all [eq_comm]
    · exact ih

theorem splitEquals_length : totalLength (splitEquals word text) = word.length + text.length := by
  induction text generalizing word with
  | nil =>
    unfold splitEquals
    split <;> simp_all [totalLength]
  | cons b text ih =>
    unfold splitEquals
    split
    · have later := @ih []
      split <;> simp_all [totalLength] <;> omega
    · rw [ih]
      simp
      omega

theorem splitEquals_free (free : 61 ∉ text) :
    splitEquals word text = if word ++ text = [] then [] else [word ++ text] := by
  induction text generalizing word with
  | nil => simp [splitEquals]
  | cons b text ih =>
    simp only [List.mem_cons, not_or] at free
    rw [splitEquals, if_neg (fun same => free.1 same.symm), ih free.2]
    simp

theorem splitEquals_equals (member : 61 ∈ text) : [61] ∈ splitEquals word text := by
  induction text generalizing word with
  | nil => cases member
  | cons b text ih =>
    unfold splitEquals
    by_cases equals : b = 61
    · simp [equals]
    · have later : 61 ∈ text := by
        rcases List.mem_cons.mp member with same | later
        · exact absurd same.symm equals
        · exact later
      rw [if_neg equals]
      exact ih later

theorem arrivingWords_sendable (sendable : Sendable arg) : arrivingWords arg = [arg] := by
  unfold arrivingWords
  rcases sendable with space | ⟨some_, free⟩ | rfl
  · rw [if_pos space]
  · split
    · rfl
    · rw [splitEquals_free free]
      simp [some_]
  · rfl

theorem arrivingWords_length (arg : CString) : totalLength (arrivingWords arg) = arg.length := by
  unfold arrivingWords
  split
  · simp [totalLength]
  · rw [splitEquals_length]
    simp

theorem arrivingWords_head {words : List CString} (first : arrivingWords arg = arg :: words) :
    Sendable arg ∧ words = [] := by
  unfold arrivingWords at first
  by_cases space : 32 ∈ arg
  · rw [if_pos space] at first
    exact ⟨Or.inl space, (List.cons.inj first).2.symm⟩
  · rw [if_neg space] at first
    have nonempty := @splitEquals_nonempty [] arg
    have total := @splitEquals_length [] arg
    rw [first] at nonempty total
    have none_ : words = [] := by
      cases words with
      | nil => rfl
      | cons word words =>
        have wordSome : word ≠ [] := fun empty => nonempty (by simp [empty])
        simp [totalLength] at total
        exact absurd total.1 wordSome
    refine ⟨?_, none_⟩
    have some_ : arg ≠ [] := fun empty => nonempty (by simp [empty])
    by_cases equals : 61 ∈ arg
    · have member := @splitEquals_equals [] arg equals
      rw [first, none_] at member
      exact Or.inr (Or.inr (List.mem_singleton.mp member).symm)
    · exact Or.inr (Or.inl ⟨some_, equals⟩)

theorem arrivingWords_some {word : CString} (member : word ∈ arrivingWords arg) : word ≠ [] := by
  rintro rfl
  unfold arrivingWords at member
  split at member
  next space =>
    rw [<- List.mem_singleton.mp member] at space
    cases space
  next => exact splitEquals_nonempty member

theorem arriving_all {args : List CString} {n : Nat} (same : (args.flatMap arrivingWords).take n = args) :
    ∀ arg ∈ args, Sendable arg := by
  induction args generalizing n with
  | nil => simp
  | cons arg args ih =>
    have some_ : arg ≠ [] := by
      rintro rfl
      have member : [] ∈ ((([] : CString) :: args).flatMap arrivingWords).take n := by
        rw [same]
        exact List.mem_cons_self
      obtain ⟨other, _, arrives⟩ := List.mem_flatMap.mp (List.mem_of_mem_take member)
      exact arrivingWords_some arrives rfl
    cases n with
    | zero => simp at same
    | succ n =>
      rw [List.flatMap_cons] at same
      cases words : arrivingWords arg with
      | nil =>
        have total := arrivingWords_length arg
        rw [words] at total
        have length := List.length_pos_iff.mpr some_
        simp [totalLength] at total
        omega
      | cons word words' =>
        rw [words, List.cons_append, List.take_succ_cons] at same
        obtain ⟨rfl, rest⟩ := List.cons.inj same
        obtain ⟨sendable, none_⟩ := arrivingWords_head words
        rw [none_, List.nil_append] at rest
        intro other member
        rcases List.mem_cons.mp member with rfl | later
        · exact sendable
        · exact ih rest other later

end Splitting

section Arrival

variable {argLimit wordlenLimit : Nat} {written : CString} {words : List CString}

def Yields (argLimit wordlenLimit : Nat) (written : CString) (words : List CString) : Prop :=
  ∀ args,
    runChars ⟨.findwordstart, args, [], argLimit, wordlenLimit⟩ (written ++ [32]) =
      ⟨.findwordstart, addArgs argLimit wordlenLimit args words, [], argLimit, wordlenLimit⟩ ∧
    runChars ⟨.findwordstart, args, [], argLimit, wordlenLimit⟩ (written ++ [10]) =
      ⟨.endofline, addArgs argLimit wordlenLimit args words, [], argLimit, wordlenLimit⟩

theorem token_yields {meaning : CString} (token : Token written meaning) :
    Yields argLimit wordlenLimit written [meaning] :=
  fun args => ⟨run_token_space args argLimit wordlenLimit token, run_token_newline args argLimit wordlenLimit token⟩

def inText (argLimit wordlenLimit : Nat) (args : List CString) (word : CString) : PconfCtx :=
  if word = [] then ⟨.findwordstart, args, [], argLimit, wordlenLimit⟩
  else ⟨.collect, args, clip wordlenLimit word, argLimit, wordlenLimit⟩

theorem inText_byte {b : UInt8} (text : isText b = true) (apart : b ≠ 32 ∧ b ≠ 61) (args : List CString)
    (word : CString) (rest : CString) : runChars (inText argLimit wordlenLimit args word) (escapeAll [b] ++ rest) =
      runChars (inText argLimit wordlenLimit args (word ++ [b])) rest := by
  have some_ : word ++ [b] ≠ [] := by simp
  have next : inText argLimit wordlenLimit args (word ++ [b]) =
      ⟨.collect, args, clip wordlenLimit (word ++ [b]), argLimit, wordlenLimit⟩ := if_neg some_
  have literal := collectliteral_text args word argLimit wordlenLimit text
  by_cases special : pconfEscape b = true
  · simp only [escapeAll_cons, special, if_true, escapeAll_nil, List.append_nil, List.cons_append, List.nil_append,
      runChars_cons, next]
    unfold inText
    by_cases start : word = []
    · rw [if_pos start, findwordstart_escape]
      rw [start, clip_nil] at literal
      rw [literal, start]
    · rw [if_neg start, collect_escape, literal]
  · have plain : b ≠ 35 ∧ b ≠ 92 ∧ b ≠ 34 := by simpa [pconfEscape, and_assoc] using special
    have bare : isBare b = true := isBare_iff.mpr ⟨text, apart.1, plain.1, apart.2, plain.2.1⟩
    simp only [escapeAll_cons, special, Bool.false_eq_true, if_false, escapeAll_nil, List.append_nil, List.cons_append,
      List.nil_append, runChars_cons, next]
    unfold inText
    by_cases start : word = []
    · rw [if_pos start, findwordstart_raw args argLimit wordlenLimit bare plain.2.2, start, List.nil_append]
    · rw [if_neg start, collect_raw args word argLimit wordlenLimit bare]

theorem inText_equals (args : List CString) (word rest : CString) :
    runChars (inText argLimit wordlenLimit args word) (61 :: rest) = runChars (inText argLimit wordlenLimit
        (addArgs argLimit wordlenLimit args ((if word = [] then [] else [word]) ++ [[61]])) []) rest := by
  rw [runChars_cons]
  unfold inText
  by_cases start : word = []
  · simp [start, findwordstart_equals, addArgs]
  · simp [start, collect_equals, addArgs]

theorem splitEquals_yields {text : CString} (isText : ∀ b ∈ text, isText b = true) (unspaced : 32 ∉ text)
    (args : List CString) (word : CString) :
    runChars (inText argLimit wordlenLimit args word) (escapeAll text ++ [32]) =
        ⟨.findwordstart, addArgs argLimit wordlenLimit args (splitEquals word text), [], argLimit, wordlenLimit⟩ ∧
      runChars (inText argLimit wordlenLimit args word) (escapeAll text ++ [10]) =
        ⟨.endofline, addArgs argLimit wordlenLimit args (splitEquals word text), [], argLimit, wordlenLimit⟩ := by
  induction text generalizing args word with
  | nil =>
    unfold inText splitEquals
    by_cases start : word = []
    · simp [start, addArgs, findwordstart_space, findwordstart_newline]
    · simp [start, addArgs, collect_space, collect_newline]
  | cons b text ih =>
    have head := isText b List.mem_cons_self
    have tail : ∀ c ∈ text, Nut.isText c = true := fun c member => isText c (List.mem_cons_of_mem b member)
    simp only [List.mem_cons, not_or] at unspaced
    rw [show escapeAll (b :: text) = escapeAll [b] ++ escapeAll text by rw [<- escapeAll_append]; rfl]
    rw [List.append_assoc, List.append_assoc]
    unfold splitEquals
    by_cases equals : b = 61
    · have one : escapeAll [b] = [61] := by
        rw [equals]
        rfl
      rw [one, List.singleton_append, List.singleton_append, inText_equals, inText_equals, if_pos equals]
      have later := ih tail unspaced.2
        (addArgs argLimit wordlenLimit args ((if word = [] then [] else [word]) ++ [[61]])) []
      have split : addArgs argLimit wordlenLimit args ((if word = [] then [] else [word]) ++ [61] :: splitEquals [] text) =
          addArgs argLimit wordlenLimit
            (addArgs argLimit wordlenLimit args ((if word = [] then [] else [word]) ++ [[61]])) (splitEquals [] text) := by
        simp [addArgs]
      rw [split]
      exact later
    · have apart : b ≠ 32 ∧ b ≠ 61 := ⟨fun same => unspaced.1 same.symm, equals⟩
      rw [inText_byte head apart, inText_byte head apart, if_neg equals]
      exact ih tail unspaced.2 args (word ++ [b])

theorem fieldOf_yields {arg : CString} (isText : ∀ b ∈ arg, isText b = true) :
    Yields argLimit wordlenLimit (fieldOf arg) (arrivingWords arg) := by
  unfold fieldOf arrivingWords
  by_cases space : 32 ∈ arg
  · rw [if_pos space, if_pos space]
    exact token_yields (token_quoted (quotedAs_escapeAll isText))
  · rw [if_neg space, if_neg space]
    intro args
    exact splitEquals_yields isText space args []

theorem fields_yield {fields : List CString} (first : Yields argLimit wordlenLimit written words)
    (isText : ∀ arg ∈ fields, ∀ b ∈ arg, isText b = true) (args : List CString) :
    runChars ⟨.findwordstart, args, [], argLimit, wordlenLimit⟩
        (written ++ (fields.flatMap fun arg => 32 :: fieldOf arg) ++ [10]) =
      ⟨.endofline, addArgs argLimit wordlenLimit args (words ++ fields.flatMap arrivingWords), [], argLimit,
        wordlenLimit⟩ := by
  induction fields generalizing written words args with
  | nil => simpa using (first args).2
  | cons arg fields ih =>
    have own := @fieldOf_yields argLimit wordlenLimit arg (isText arg List.mem_cons_self)
    have later := ih own (fun other member => isText other (List.mem_cons_of_mem arg member))
      (addArgs argLimit wordlenLimit args words)
    have split : written ++ ((arg :: fields).flatMap fun arg => 32 :: fieldOf arg) ++ [10] =
        (written ++ [32]) ++ (fieldOf arg ++ (fields.flatMap fun arg => 32 :: fieldOf arg) ++ [10]) := by
      simp
    rw [split, runChars_append, (first args).1, later]
    simp [addArgs]

end Arrival

section Buffer

variable {cmdname : CString} {args : List CString}

theorem encodedField_eq {arg : CString} (fits : (escapeAll arg).length < upscliNetbufLen) :
    encodedField arg = 32 :: fieldOf arg := by
  have enc := pconfEncode_whole fits (by decide) []
  unfold encodedField fieldOf
  rw [enc]
  split <;> simp

theorem encodedField_isText {arg : CString} (isText : ∀ b ∈ arg, isText b = true) :
    ∀ b ∈ encodedField arg, Nut.isText b = true := by
  have enc : ∀ b ∈ pconfEncode arg [] upscliNetbufLen, Nut.isText b = true := by
    rw [pconfEncode_eq (by decide)]
    exact (quotedAs_escapeAll (isText_initial (fitPrefix_initial _ _) isText)).isText
  intro b member
  unfold encodedField at member
  split at member
  · simp only [List.mem_append, List.mem_cons, List.not_mem_nil, or_false] at member
    rcases member with ((rfl | rfl) | inside) | rfl
    · rfl
    · rfl
    · exact enc b inside
    · rfl
  · rcases List.mem_cons.mp member with rfl | inside
    · rfl
    · exact enc b inside

-- What the buffer holds when `text` was to get into it.
structure Written (text buf : CString) : Prop where
  isText : ∀ b ∈ buf, isText b = true
  short : buf.length ≤ 510
  whole : text.length ≤ 510 -> buf = text

theorem written_field {text buf arg : CString} (written : Written text buf) (isText : ∀ b ∈ arg, isText b = true) :
    Written (text ++ 32 :: fieldOf arg) (snprintfcat buf upscliNetbufLen (encodedField arg)) := by
  have short := written.short
  have room : ¬ buf.length > upscliNetbufLen - 1 := by
    simp only [upscliNetbufLen]
    omega
  have added : snprintfcat buf upscliNetbufLen (encodedField arg) = buf ++ (encodedField arg).take (510 - buf.length) := by
    rw [snprintfcat, if_neg room]
    congr 2
    simp only [upscliNetbufLen]
    omega
  rw [added]
  refine ⟨fun b member => ?_, ?_, fun fits => ?_⟩
  · rcases List.mem_append.mp member with old | new
    · exact written.isText b old
    · exact encodedField_isText isText b (List.mem_of_mem_take new)
  · rw [List.length_append, List.length_take]
    omega
  · have longer : (escapeAll arg).length ≤ (fieldOf arg).length := by
      unfold fieldOf
      split
      · simp only [List.length_append, List.length_singleton]
        omega
      · exact Nat.le_refl _
    rw [List.length_append, List.length_cons] at fits
    have own := written.whole (by omega)
    rw [encodedField_eq (by simp only [upscliNetbufLen]; omega), own, List.take_of_length_le]
    rw [List.length_cons]
    omega

theorem written_fields {text buf : CString} (written : Written text buf)
    (isText : ∀ arg ∈ args, ∀ b ∈ arg, isText b = true) : Written (text ++ args.flatMap fun arg => 32 :: fieldOf arg)
      (args.foldl (fun buf arg => snprintfcat buf upscliNetbufLen (encodedField arg)) buf) := by
  induction args generalizing text buf with
  | nil => simpa using written
  | cons arg args ih =>
    have next := written_field written (isText arg List.mem_cons_self)
    have later := ih next fun other member => isText other (List.mem_cons_of_mem arg member)
    simpa using later

theorem buildCmd_written (nameText : ∀ b ∈ cmdname, isText b = true) (short : cmdname.length ≤ 510)
    (isText : ∀ arg ∈ args, ∀ b ∈ arg, isText b = true) :
    ∃ buf, buildCmd upscliNetbufLen cmdname args = buf ++ [10] ∧ Written (cmdText cmdname args) buf := by
  have start : snprintf upscliNetbufLen cmdname = cmdname := snprintf_fits (by simp only [upscliNetbufLen]; omega)
  have first : Written cmdname cmdname := ⟨nameText, short, fun _ => rfl⟩
  have written := written_fields first isText
  refine ⟨_, ?_, written⟩
  have newline : snprintf (upscliNetbufLen -
      (args.foldl (fun buf arg => snprintfcat buf upscliNetbufLen (encodedField arg)) cmdname).length) [10] = [10] := by
    apply snprintf_fits
    have bound := written.short
    simp only [upscliNetbufLen, List.length_singleton] at bound ⊢
    omega
  simp only [buildCmd, start, newline]

theorem buildCmd_full (long : 511 ≤ cmdname.length) : buildCmd upscliNetbufLen cmdname args = cmdname.take 511 := by
  have start : (cmdname.take 511).length = 511 := by
    rw [List.length_take]
    omega
  have full : ∀ args : List CString,
      args.foldl (fun buf arg => snprintfcat buf upscliNetbufLen (encodedField arg)) (cmdname.take 511) =
        cmdname.take 511 := by
    intro args
    induction args with
    | nil => rfl
    | cons arg args ih =>
      have same : snprintfcat (cmdname.take 511) upscliNetbufLen (encodedField arg) = cmdname.take 511 := by
        rw [snprintfcat, start, if_neg (by decide)]
        simp [upscliNetbufLen]
      rw [List.foldl_cons, same, ih]
  have cut : snprintf upscliNetbufLen cmdname = cmdname.take 511 := rfl
  simp only [buildCmd, cut, full, start]
  simp [snprintf, upscliNetbufLen]

theorem addArgs_take {argLimit wordlenLimit : Nat} {words before : List CString} (some_ : 0 < argLimit)
    (few : before.length ≤ argLimit) (short : ∀ word ∈ words, word.length ≤ wordlenLimit) :
    addArgs argLimit wordlenLimit before words = before ++ words.take (argLimit - before.length) := by
  induction words generalizing before with
  | nil => simp [addArgs]
  | cons word words ih =>
    have own := clip_fits (short word List.mem_cons_self)
    have later : ∀ other ∈ words, other.length ≤ wordlenLimit :=
      fun other member => short other (List.mem_cons_of_mem word member)
    have step : addArgs argLimit wordlenLimit before (word :: words) =
        addArgs argLimit wordlenLimit (addArg argLimit before word) words := by
      simp [addArgs, own]
    rw [step]
    by_cases room : before.length < argLimit
    · have next := ih (show (before ++ [word]).length ≤ argLimit by simp; omega) later
      have left : argLimit - before.length = argLimit - (before ++ [word]).length + 1 := by
        simp
        omega
      rw [addArg_fits word room, next, left, List.take_succ_cons]
      simp
    · have full : addArg argLimit before word = before := by
        rw [addArg, if_pos]
        omega
      have none_ : argLimit - before.length = 0 := by omega
      rw [full, ih few later, none_]
      rfl

theorem arriving_short (fits : (cmdText cmdname args).length ≤ 510) :
    ∀ word ∈ args.flatMap arrivingWords, word.length ≤ 512 := by
  intro word member
  obtain ⟨arg, inside, arrives⟩ := List.mem_flatMap.mp member
  have own : word.length ≤ arg.length := by
    rw [<- arrivingWords_length arg, totalLength, <- List.length_flatten]
    exact (List.sublist_flatten_of_mem arrives).length_le
  have field : (32 :: fieldOf arg).length ≤ (cmdText cmdname args).length := by
    have part := (List.sublist_flatten_of_mem (List.mem_map_of_mem inside :
      32 :: fieldOf arg ∈ args.map fun arg => 32 :: fieldOf arg)).length_le
    rw [cmdText, List.length_append, List.flatMap_def]
    omega
  have whole : arg.length ≤ (fieldOf arg).length := by
    have escaped := escapeAll_longer arg
    unfold fieldOf
    split
    · simp only [List.length_append, List.length_singleton]
      omega
    · exact escaped
  rw [List.length_cons] at field
  omega

end Buffer

-- One line, which is the request itself where it fits.
def Intact (cmdname : CString) (args : List CString) : Prop :=
  (∃ text, buildCmd upscliNetbufLen cmdname args = text ++ [10] ∧ 10 ∉ text) ∧
    ((cmdText cmdname args).length ≤ 510 -> Arrives (buildCmd upscliNetbufLen cmdname args) (cmdname :: args))

-- The request arrives intact where each argument does and the parser has room for all of them.
theorem buildCmd_intact {cmdname : CString} (bare : BareWord cmdname) {args : List CString}
    (isText : ∀ arg ∈ args, ∀ b ∈ arg, isText b = true) : Intact cmdname args ↔ cmdname.length ≤ 510 ∧
        ((cmdText cmdname args).length ≤ 510 -> args.length < 32 ∧ ∀ arg ∈ args, Sendable arg) := by
  have nameText : ∀ b ∈ cmdname, Nut.isText b = true := fun b member => (isBare_iff.mp (bare.2.2 b member)).1
  by_cases short : cmdname.length ≤ 510
  · obtain ⟨buf, made, written⟩ := buildCmd_written nameText short isText
    have oneLine : ∀ b ∈ buf, b ≠ 10 := fun b member => isText_ne_newline (written.isText b member)
    have isLine : ∃ text, buildCmd upscliNetbufLen cmdname args = text ++ [10] ∧ 10 ∉ text :=
      ⟨buf, made, fun member => oneLine 10 member rfl⟩
    have arrival (fits : (cmdText cmdname args).length ≤ 510) :
        Arrives (buildCmd upscliNetbufLen cmdname args) (cmdname :: args) ↔
          args.length < 32 ∧ ∀ arg ∈ args, Sendable arg := by
      have run := fields_yield (@token_yields 32 512 _ _ bare.token) isText []
      have words : ∀ word ∈ [cmdname] ++ args.flatMap arrivingWords, word.length ≤ 512 := by
        intro word member
        rcases List.mem_append.mp member with name | field
        · rw [List.mem_singleton.mp name]
          omega
        · exact arriving_short fits word field
      rw [made, arrives_iff oneLine, written.whole fits, waiting, cmdText, run, addArgs_take (by decide) (by simp) words]
      simp only [List.nil_append, List.length_nil, List.singleton_append, List.take_succ_cons, true_and, Nat.sub_zero,
        List.cons.injEq]
      constructor
      · intro same
        have few : args.length < 32 := by
          rw [<- same, List.length_take]
          omega
        exact ⟨few, arriving_all same⟩
      · rintro ⟨few, sendable⟩
        have whole : args.flatMap arrivingWords = args := by
          have each : args.flatMap arrivingWords = args.flatMap fun arg => [arg] :=
            List.flatMap_congr fun arg member => arrivingWords_sendable (sendable arg member)
          rw [each]
          simp
        rw [whole, List.take_of_length_le (by omega)]
    constructor
    · rintro ⟨_, arrives⟩
      exact ⟨short, fun fits => (arrival fits).mp (arrives fits)⟩
    · rintro ⟨_, condition⟩
      exact ⟨isLine, fun fits => (arrival fits).mpr (condition fits)⟩
  · -- The name alone fills the buffer, and there is no room for the newline.
    constructor
    · rintro ⟨⟨text, ends, _⟩, _⟩
      rw [buildCmd_full (by omega)] at ends
      have member : 10 ∈ cmdname.take 511 := by simp [ends]
      exact absurd rfl (isText_ne_newline (nameText 10 (List.mem_of_mem_take member)))
    · rintro ⟨fits, _⟩
      exact absurd fits short

theorem buildCmd_intact_sample : Intact (cstr "GET") [cstr "VAR", cstr "my ups", cstr "a\"b#c"] ↔
      (cstr "GET").length ≤ 510 ∧ ((cmdText (cstr "GET") [cstr "VAR", cstr "my ups", cstr "a\"b#c"]).length ≤ 510 ->
          [cstr "VAR", cstr "my ups", cstr "a\"b#c"].length < 32 ∧
            ∀ arg ∈ [cstr "VAR", cstr "my ups", cstr "a\"b#c"], Sendable arg) := buildCmd_intact (by decide) (by
    have text : [cstr "VAR", cstr "my ups", cstr "a\"b#c"].all (fun arg => arg.all isText) = true := by decide
    simpa using text)

-- An `=` splits the argument, and an empty one is lost.
theorem buildCmd_split :
    ¬ Intact (cstr "GET") [cstr "VAR", cstr "ups", cstr "a=b"] ∧ ¬ Intact (cstr "LIST") [cstr "VAR", []] := by
  constructor
  · rintro ⟨_, arrives⟩
    have read := (arrives (by decide)).2 pconfInit (atLineStart_init _ _) rfl rfl
    revert read
    decide +kernel
  · rintro ⟨_, arrives⟩
    have read := (arrives (by decide)).2 pconfInit (atLineStart_init _ _) rfl rfl
    revert read
    decide +kernel

end Nut
