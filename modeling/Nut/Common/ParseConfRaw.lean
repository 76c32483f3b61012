import Nut.Common.ParseConfArrival
import Nut.Common.ParseConfReread

set_option autoImplicit false

namespace Nut

def Ends (rest : CString) : Prop :=
  ∀ b behind, rest = b :: behind -> b = 32 ∨ b = 35 ∨ b = 61

inductive FirstWord (text word rest : CString) : Prop where
  | quoted (spaces : Nat) (split : text = List.replicate spaces 32 ++ 34 :: (word ++ 34 :: rest)) (closed : 34 ∉ word)
  | bare (spaces : Nat) (split : text = List.replicate spaces 32 ++ (word ++ rest))
      (isWord : BareWord word ∧ Ends rest ∨ word = [61])

theorem Word.starts {word : CString} (plain : Word word) : word ≠ [] ∧ word.head? ≠ some 32 ∧ word.head? ≠ some 34 := by
  rcases plain with ⟨nonempty, noQuote, bare⟩ | rfl
  · exact ⟨nonempty, fun space => (isBare_iff.mp (bare 32 (List.mem_of_head? space))).2.1 rfl, noQuote⟩
  · decide

section FirstWord

variable {argLimit wordlenLimit : Nat} {text : CString}

theorem run_quote (isText : ∀ b ∈ text, isText b = true ∧ b ≠ 92) (args : List CString) (word : CString) :
    (∃ more rest, text = more ++ 34 :: rest ∧ 34 ∉ more ∧
        runChars ⟨.quotecollect, args, clip wordlenLimit word, argLimit, wordlenLimit⟩ (text ++ [10]) =
          runChars ⟨.findwordstart, addArg argLimit args (clip wordlenLimit (word ++ more)), [], argLimit, wordlenLimit⟩
            (rest ++ [10])) ∨
      (runChars ⟨.quotecollect, args, clip wordlenLimit word, argLimit, wordlenLimit⟩ (text ++ [10])).state =
        .quotecollect := by
  induction text generalizing word with
  | nil => exact Or.inr rfl
  | cons b text ih =>
    obtain ⟨isByte, noEscape⟩ := isText b List.mem_cons_self
    rw [List.cons_append, runChars_cons]
    by_cases quote : b = 34
    · subst quote
      rw [quotecollect_quote]
      exact Or.inl ⟨[], text, rfl, by simp, by rw [List.append_nil]⟩
    · rw [quotecollect_raw args word argLimit wordlenLimit isByte quote noEscape]
      rcases ih (fun c member => isText c (List.mem_cons_of_mem b member)) (word ++ [b]) with
        ⟨more, rest, split, free, run⟩ | open_
      · have apart : 34 ∉ b :: more := by
          simp only [List.mem_cons, not_or]
          exact ⟨fun same => quote same.symm, free⟩
        exact Or.inl ⟨b :: more, rest, by rw [split]; rfl, apart, by simpa using run⟩
      · exact Or.inr open_

theorem run_collect (isText : ∀ b ∈ text, isText b = true ∧ b ≠ 92) (args : List CString) (word : CString) :
    ∃ more rest, text = more ++ rest ∧ (∀ b ∈ more, isBare b = true) ∧ Ends rest ∧
      runChars ⟨.collect, args, clip wordlenLimit word, argLimit, wordlenLimit⟩ (text ++ [10]) =
        runChars ⟨.findwordstart, addArg argLimit args (clip wordlenLimit (word ++ more)), [], argLimit, wordlenLimit⟩
          (rest ++ [10]) := by
  induction text generalizing word with
  | nil => exact ⟨[], [], rfl, by simp, by simp [Ends], by simp [collect_newline, findwordstart_newline]⟩
  | cons b text ih =>
    obtain ⟨isByte, noEscape⟩ := isText b List.mem_cons_self
    by_cases end_ : b = 32 ∨ b = 35 ∨ b = 61
    · refine ⟨[], b :: text, rfl, by simp, fun c behind same => ?_, ?_⟩
      · cases same
        exact end_
      · rw [List.append_nil, List.cons_append, runChars_cons, runChars_cons]
        congr 1
        rcases end_ with rfl | rfl | rfl
        · rw [collect_space, findwordstart_space]
        · change enter (endofword _, _) = _
          rw [endofword_eq]
          rfl
        · rw [collect_equals, findwordstart_equals]
    · simp only [not_or] at end_
      have bare : isBare b = true := isBare_iff.mpr ⟨isByte, end_.1, end_.2.1, end_.2.2, noEscape⟩
      obtain ⟨more, rest, split, free, ends, run⟩ :=
        ih (fun c member => isText c (List.mem_cons_of_mem b member)) (word ++ [b])
      refine ⟨b :: more, rest, by rw [split]; rfl, ?_, ends, ?_⟩
      · simp only [List.mem_cons, forall_eq_or_imp]
        exact ⟨bare, free⟩
      · rw [List.cons_append, runChars_cons, collect_raw args word argLimit wordlenLimit bare, run]
        simp

theorem first_word (isText : ∀ b ∈ text, isText b = true ∧ b ≠ 92) (args : List CString) :
    (∃ word rest, FirstWord text word rest ∧
        runChars ⟨.findwordstart, args, [], argLimit, wordlenLimit⟩ (text ++ [10]) =
          runChars ⟨.findwordstart, addArg argLimit args (clip wordlenLimit word), [], argLimit, wordlenLimit⟩
            (rest ++ [10])) ∨
      (runChars ⟨.findwordstart, args, [], argLimit, wordlenLimit⟩ (text ++ [10])).arglist = args ∨
      (runChars ⟨.findwordstart, args, [], argLimit, wordlenLimit⟩ (text ++ [10])).state = .quotecollect := by
  induction text with
  | nil => exact Or.inr (Or.inl rfl)
  | cons b text ih =>
    obtain ⟨isByte, noEscape⟩ := isText b List.mem_cons_self
    have later : ∀ c ∈ text, Nut.isText c = true ∧ c ≠ 92 := fun c member => isText c (List.mem_cons_of_mem b member)
    rw [List.cons_append, runChars_cons]
    by_cases space : b = 32
    · subst space
      rw [findwordstart_space]
      rcases ih later with ⟨word, rest, first, run⟩ | none_
      · refine Or.inl ⟨word, rest, ?_, run⟩
        cases first with
        | quoted spaces split closed => exact .quoted (spaces + 1) (by rw [split]; rfl) closed
        | bare spaces split isWord => exact .bare (spaces + 1) (by rw [split]; rfl) isWord
      · exact Or.inr none_
    by_cases quote : b = 34
    · subst quote
      have opened := @run_quote argLimit wordlenLimit text later args []
      rw [clip_nil] at opened
      rw [findwordstart_quote]
      rcases opened with ⟨word, rest, split, closed, run⟩ | open_
      · exact Or.inl ⟨word, rest, .quoted 0 (by rw [split]; rfl) closed, run⟩
      · exact Or.inr (Or.inr open_)
    by_cases comment : b = 35
    · subst comment
      refine Or.inr (Or.inl ?_)
      change (runChars ⟨.findeol, args, [], argLimit, wordlenLimit⟩ (text ++ [10])).arglist = args
      rw [runChars_append, findeol_run rfl fun c member => isText_ne_newline (later c member).1]
      rfl
    by_cases equals : b = 61
    · subst equals
      exact Or.inl ⟨[61], text, .bare 0 rfl (Or.inr rfl), by rw [findwordstart_equals]⟩
    · have bare : isBare b = true := isBare_iff.mpr ⟨isByte, space, comment, equals, noEscape⟩
      rw [findwordstart_raw args argLimit wordlenLimit bare quote]
      obtain ⟨more, rest, split, free, ends, run⟩ := run_collect later args [b]
      have bareWord : BareWord (b :: more) := by
        refine ⟨by simp, by simpa using quote, ?_⟩
        simp only [List.mem_cons, forall_eq_or_imp]
        exact ⟨bare, free⟩
      exact Or.inl ⟨b :: more, rest, .bare 0 (by rw [split]; rfl) (Or.inl ⟨bareWord, ends⟩), run⟩

theorem run_spaces {ctx : PconfCtx} (between : ctx.state = .findwordstart) {spaces : CString} (all : ∀ b ∈ spaces, b = 32)
    (rest : CString) : runChars ctx (spaces ++ rest) = runChars ctx rest := by
  induction spaces with
  | nil => rfl
  | cons b spaces ih =>
    obtain ⟨state, args, word, argLimit, wordlenLimit⟩ := ctx
    subst between
    rw [List.cons_append, runChars_cons, all b List.mem_cons_self, findwordstart_space]
    exact ih fun c member => all c (List.mem_cons_of_mem b member)

theorem firstWord_within {tail word rest : CString} (first : FirstWord (text ++ 32 :: tail) word rest) (unquoted : 34 ∉ tail) :
    (∀ b ∈ text, b = 32) ∨ ∃ inner, FirstWord text word inner ∧ rest = inner ++ 32 :: tail := by
  cases first with
  | quoted spaces split closed =>
    rw [show List.replicate spaces 32 ++ 34 :: (word ++ 34 :: rest) =
      (List.replicate spaces 32 ++ 34 :: (word ++ [34])) ++ rest by simp] at split
    obtain ⟨excess, inside, behind⟩ | ⟨inner, inside, behind⟩ := List.append_eq_append_iff.mp split
    · rcases List.eq_nil_or_concat excess with rfl | ⟨front, last, rfl⟩
      · refine Or.inr ⟨[], .quoted spaces ?_ closed, by simpa using behind.symm⟩
        simpa using inside.symm
      · refine absurd ?_ unquoted
        have final := congrArg List.getLast? inside
        simp only [List.concat_eq_append, <- List.append_assoc, List.getLast?_concat] at final
        have isQuote : last = 34 := by simpa [List.getLast?_append, List.getLast?_cons] using final.symm
        subst isQuote
        cases front with
        | nil => simp at behind
        | cons b front =>
          simp only [List.concat_eq_append, List.cons_append, List.cons.injEq] at behind
          rw [behind.2]
          simp
    · exact Or.inr ⟨inner, .quoted spaces (by simp [inside]) closed, behind⟩
  | bare spaces split isWord =>
    have spaceless : 32 ∉ word := by
      rcases isWord with ⟨⟨_, _, bare⟩, _⟩ | rfl
      · exact fun member => (isBare_iff.mp (bare 32 member)).2.1 rfl
      · decide
    rw [<- List.append_assoc] at split
    obtain ⟨excess, inside, behind⟩ | ⟨inner, inside, behind⟩ := List.append_eq_append_iff.mp split
    · cases excess with
      | nil =>
        refine Or.inr ⟨[], .bare spaces (by simpa using inside.symm) ?_, by simpa using behind.symm⟩
        rcases isWord with ⟨bare, _⟩ | equals
        · exact Or.inl ⟨bare, by simp [Ends]⟩
        · exact Or.inr equals
      | cons b excess =>
        simp only [List.cons_append, List.cons.injEq] at behind
        obtain ⟨rfl, _⟩ := behind
        obtain ⟨_, _, later⟩ | ⟨_, blank, _⟩ := List.append_eq_append_iff.mp inside
        · exact absurd (by simp [later]) spaceless
        · refine Or.inl fun c member => ?_
          have inSpaces : c ∈ List.replicate spaces (32 : UInt8) := blank ▸ List.mem_append_left _ member
          exact (List.mem_replicate.mp inSpaces).2
    · refine Or.inr ⟨inner, .bare spaces (by simpa using inside) ?_, behind⟩
      rcases isWord with ⟨bare, ends⟩ | equals
      · refine Or.inl ⟨bare, fun b after same => ?_⟩
        exact ends b (after ++ 32 :: tail) (by rw [behind, same]; rfl)
      · exact Or.inr equals

theorem FirstWord.word_length {word rest : CString} (first : FirstWord text word rest) : word.length ≤ text.length := by
  cases first with
  | quoted spaces split closed => simp only [split, List.length_append, List.length_cons]; omega
  | bare spaces split isWord => simp only [split, List.length_append]; omega

theorem firstWord_prefix {word rest behind : CString} (first : FirstWord text word rest) (begins : text <+: word ++ behind) :
    Word word ∧ text = word ++ rest ∧ rest <+: behind ∨ (∀ b ∈ word, b = 32) ∧
        ∃ spaces, List.replicate spaces 32 ++ 34 :: (word ++ 34 :: rest) <+: behind := by
  cases first with
  | quoted spaces split closed =>
    rw [split] at begins
    rcases Nat.lt_or_ge spaces word.length with inside | enough
    · -- The opening quote would be a byte of the word.
      have quote := begins.getElem (show spaces < _ by simp)
      rw [List.getElem_append_left inside, List.getElem_append_right (by simp)] at quote
      simp only [List.length_replicate, Nat.sub_self, List.getElem_cons_zero] at quote
      exact absurd (quote ▸ List.getElem_mem inside) closed
    · rw [show spaces = word.length + (spaces - word.length) by omega, <- List.replicate_append_replicate,
        List.append_assoc] at begins
      have blank : List.replicate word.length 32 = word :=
        (List.prefix_of_prefix_length_le ((List.prefix_append _ _).trans begins) (List.prefix_append _ _) (by simp)).eq_of_length
          (by simp)
      rw [blank, List.prefix_append_right_inj] at begins
      exact Or.inr ⟨fun b member => (List.mem_replicate.mp (blank ▸ member)).2, _, begins⟩
  | bare spaces split isWord =>
    have plain : Word word := isWord.imp_left And.left
    have starts := plain.starts
    obtain ⟨b, word, rfl⟩ := List.exists_cons_of_ne_nil starts.1
    cases spaces with
    | zero =>
      simp only [List.replicate_zero, List.nil_append] at split
      rw [split, List.prefix_append_right_inj] at begins
      exact Or.inl ⟨plain, split, begins⟩
    | succ spaces =>
      simp only [split, List.replicate_succ, List.cons_append, List.cons_prefix_cons] at begins
      exact absurd (by simp [begins.1]) starts.2.1

theorem FirstWord.rest_suffix {word rest : CString} (first : FirstWord text word rest) : rest <:+ text := by
  cases first with
  | quoted spaces split closed => exact ⟨List.replicate spaces 32 ++ 34 :: (word ++ [34]), by simp [split]⟩
  | bare spaces split isWord => exact ⟨List.replicate spaces 32 ++ word, by simp [split]⟩

theorem firstWord_space {word rest : CString} (first : FirstWord (32 :: text) word rest) : FirstWord text word rest := by
  cases first with
  | quoted spaces split closed =>
    cases spaces with
    | zero => simp at split
    | succ spaces => exact .quoted spaces (by simpa [List.replicate_succ] using split) closed
  | bare spaces split isWord =>
    cases spaces with
    | zero =>
      obtain ⟨nonempty, noSpace, _⟩ := Word.starts (isWord.imp_left And.left)
      cases word with
      | nil => exact absurd rfl nonempty
      | cons b word =>
        simp only [List.replicate_zero, List.nil_append, List.cons_append, List.cons.injEq] at split
        exact absurd (by simp [<- split.1]) noSpace
    | succ spaces => exact .bare spaces (by simpa [List.replicate_succ] using split) isWord

theorem firstWord_behind_space {word rest behind : CString} (first : FirstWord text word rest)
    (begins : text <+: 32 :: behind) : ∃ inner, inner <+: behind ∧ text = 32 :: inner ∧ FirstWord inner word rest := by
  cases text with
  | nil =>
    cases first with
    | quoted spaces split closed => simp at split
    | bare spaces split isWord =>
      simp only [List.nil_eq, List.append_eq_nil_iff] at split
      exact absurd split.2.1 (Word.starts (isWord.imp_left And.left)).1
  | cons b inner =>
    rw [List.cons_prefix_cons] at begins
    obtain ⟨rfl, begins⟩ := begins
    exact ⟨inner, begins, rfl, firstWord_space first⟩

theorem firstWord_quoted {word rest : CString} (first : FirstWord text word rest) (begins : text <+: 34 :: (word ++ [34])) :
    34 ∉ word ∧ text = 34 :: (word ++ [34]) := by
  cases first with
  | quoted spaces split closed =>
    refine ⟨closed, begins.eq_of_length_le ?_⟩
    simp only [split, List.length_append, List.length_cons, List.length_replicate, List.length_nil]
    omega
  | bare spaces split isWord =>
    obtain ⟨nonempty, _, noQuote⟩ := Word.starts (isWord.imp_left And.left)
    obtain ⟨b, word, rfl⟩ := List.exists_cons_of_ne_nil nonempty
    cases spaces with
    | zero =>
      simp only [split, List.replicate_zero, List.nil_append, List.cons_append, List.cons_prefix_cons] at begins
      exact absurd (by simp [begins.1]) noQuote
    | succ spaces => simp [split, List.replicate_succ] at begins

theorem firstWord_not_within {word rest name : CString} {spaces : Nat} (first : FirstWord text word rest) :
    ¬ List.replicate spaces 32 ++ 34 :: (name ++ 34 :: text) <+: 32 :: 34 :: (word ++ [34]) := by
  intro begins
  have shorter := begins.length_le
  simp only [List.length_append, List.length_cons, List.length_replicate, List.length_nil] at shorter
  match spaces with
  | 0 => simp at begins
  | spaces + 2 => simp [List.replicate_succ] at begins
  | 1 =>
    cases first with
    | quoted blanks split closed =>
      simp only [split, List.length_append, List.length_cons, List.length_replicate] at shorter
      omega
    | bare blanks split isWord =>
      simp only [split, List.length_append, List.length_replicate] at shorter
      obtain ⟨nonempty, _, noQuote⟩ := Word.starts (isWord.imp_left And.left)
      obtain ⟨b, word, rfl⟩ := List.exists_cons_of_ne_nil nonempty
      obtain rfl : name = [] := List.length_eq_zero_iff.mp (by omega)
      simp only [List.replicate_one, List.nil_append, List.cons_append, List.cons_prefix_cons, true_and] at begins
      exact absurd (by simp [begins.1]) noQuote

end FirstWord

def Reads (args : List CString) (text : CString) (words : List CString) : Prop :=
  (runChars (waiting args) (text ++ [10])).state = .endofline ∧
    (runChars (waiting args) (text ++ [10])).arglist = args ++ words

section Reads

variable {args words : List CString} {text tail word : CString}

theorem reads_line (line : LineOf text words) (few : args.length + words.length ≤ 32)
    (short : ∀ word ∈ words, word.length ≤ 512) : Reads args text words := by
  have run := run_line args 32 512 line
  rw [addArgs_fits few short] at run
  simp only [Reads, waiting, run, and_self]

theorem reads_same {words' : List CString} (reads : Reads args text words) (reads' : Reads args text words') :
    words = words' := List.append_cancel_left (reads.2.symm.trans reads'.2)

theorem reads_first (isText : ∀ b ∈ text ++ 32 :: tail, isText b = true ∧ b ≠ 92) (unquoted : 34 ∉ tail)
    (room : args.length < 32) (short : text.length ≤ 512) (reads : Reads args (text ++ 32 :: tail) (word :: words)) :
    Reads args tail (word :: words) ∨
      ∃ rest, FirstWord text word rest ∧ Reads (args ++ [word]) (rest ++ 32 :: tail) words := by
  rcases @first_word 32 512 _ isText args with ⟨found, rest, first, run⟩ | none_ | open_
  · rcases firstWord_within first unquoted with blank | ⟨inner, firstHere, rfl⟩
    · have spaces : ∀ b ∈ text ++ [32], b = 32 := by
        intro b member
        rcases List.mem_append.mp member with inside | last
        · exact blank b inside
        · exact List.mem_singleton.mp last
      have skipped := run_spaces (show (waiting args).state = .findwordstart from rfl) spaces (tail ++ [10])
      refine Or.inl ?_
      unfold Reads at *
      rw [<- skipped]
      simpa using reads
    · have fits := clip_fits (Nat.le_trans firstHere.word_length short)
      rw [fits, addArg_fits found room] at run
      have ends := (grows_runChars (waiting (args ++ [found])) (inner ++ 32 :: tail ++ [10])).args
      have final := reads.2
      have through : runChars (waiting args) (text ++ 32 :: tail ++ [10]) =
          runChars (waiting (args ++ [found])) (inner ++ 32 :: tail ++ [10]) := run
      rw [<- through, final] at ends
      obtain rfl : found = word := same_next ends (by simp)
      refine Or.inr ⟨inner, firstHere, ?_⟩
      unfold Reads at *
      rw [<- through, final]
      exact ⟨reads.1, by simp⟩
  · have final := reads.2
    rw [waiting, none_] at final
    simp at final
  · have final := reads.1
    rw [waiting, open_] at final
    cases final

end Reads

-- What the parser holds of the bytes it has read.
def gathered (ctx : PconfCtx) : CString :=
  ctx.arglist.flatten ++ ctx.wordbuf

def escaping : PconfState -> Nat
  | .qcLiteral | .collectliteral => 1
  | _ => 0

section Escapes

variable {ctx : PconfCtx}

theorem escapes_addchar (ctx : PconfCtx) (ch : Int) :
    (gathered (addchar ctx ch)).count 92 ≤ (gathered ctx).count 92 + if ch = 92 then 1 else 0 := by
  unfold addchar
  by_cases outside : ch < 0x20 ∨ ch > 0x7f
  · simp [outside]
  by_cases full : ctx.wordlenLimit ≠ 0 ∧ ctx.wordbuf.length ≥ ctx.wordlenLimit
  · simp [outside, full]
  rw [if_neg outside, if_neg full]
  by_cases escape : ch = 92
  · simp [gathered, escape, <- Nat.add_assoc]
  · have other : UInt8.ofNat ch.toNat ≠ 92 := by
      intro same
      have value := congrArg UInt8.toNat same
      rw [UInt8.toNat_ofNat'] at value
      simp at value
      omega
    simp [gathered, other, escape]

theorem escapes_endofword (ctx : PconfCtx) : (gathered (endofword ctx)).count 92 ≤ (gathered ctx).count 92 := by
  unfold endofword gathered
  split_ifs <;> simp

theorem escapes_findwordstart (ctx : PconfCtx) (ch : Int) :
    (gathered (findwordstart ctx ch).1).count 92 ≤ (gathered ctx).count 92 := by
  unfold findwordstart
  by_cases escape : ch = 92
  · simp [escape, isspace]
  · have added := escapes_addchar ctx ch
    have ended := escapes_endofword (addchar ctx ch)
    rw [if_neg escape] at added
    split_ifs <;> dsimp only <;> omega

theorem escapes_parseChar (ctx : PconfCtx) (b : UInt8) :
    2 * (gathered (parseChar ctx (charToInt b))).count 92 + escaping (parseChar ctx (charToInt b)).state ≤
      2 * (gathered ctx).count 92 + escaping ctx.state + List.count 92 [b] := by
  have added := escapes_addchar ctx (charToInt b)
  have ended := escapes_endofword ctx
  have started := escapes_findwordstart ctx (charToInt b)
  have again := escapes_findwordstart (endofword ctx) (charToInt b)
  have entered (next : PconfCtx × PconfState) : gathered (enter next) = gathered next.1 ∧ (enter next).state = next.2 :=
    ⟨rfl, rfl⟩
  have one : List.count 92 [b] = if charToInt b = 92 then 1 else 0 := by
    have same : charToInt b = 92 ↔ b = 92 := charToInt_eq_iff 92 (by omega)
    simp only [same]
    by_cases escape : b = 92 <;> simp [escape]
  rw [one]
  generalize charToInt b = ch at *
  by_cases escape : ch = 92
  · subst escape
    rw [if_pos rfl] at *
    cases state : ctx.state <;> simp [parseChar, state, entered, escaping, findwordstart, findeol, quotecollect, qcLiteral,
      collect, collectliteral, isspace] <;> omega
  · rw [if_neg escape] at *
    have literal : escaping (findwordstart ctx ch).2 = 0 := by
      unfold findwordstart
      rw [if_neg escape]
      split_ifs <;> rfl
    cases state : ctx.state <;>
      simp only [parseChar, state, entered, findeol, quotecollect, qcLiteral, collect, collectliteral, literal]
    all_goals try split_ifs
    all_goals simp only [escaping]
    all_goals omega

theorem escapes_run (ctx : PconfCtx) (text : CString) :
    2 * (gathered (runChars ctx text)).count 92 ≤ 2 * (gathered ctx).count 92 + escaping ctx.state + text.count 92 := by
  have run : 2 * (gathered (runChars ctx text)).count 92 + escaping (runChars ctx text).state ≤
      2 * (gathered ctx).count 92 + escaping ctx.state + text.count 92 := by
    induction text generalizing ctx with
    | nil => simp
    | cons b rest ih =>
      have first := escapes_parseChar ctx b
      have later := ih (parseChar ctx (charToInt b))
      rw [runChars_cons, <- List.singleton_append, List.count_append]
      omega
  omega

end Escapes

end Nut
