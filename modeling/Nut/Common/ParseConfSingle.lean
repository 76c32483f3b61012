import Nut.Common.ParseConfEof
import Nut.Common.ParseConfRaw

set_option autoImplicit false

namespace Nut

def CompleteLine (n : Nat) (ctx : PconfCtx) (text : CString) : Prop :=
  ∃ words, readLines ctx text = [words] ∧ lineDone (readCtx ctx text) = true ∧ words.length = n

def LeadsTo (ctx : PconfCtx) (text : CString) (ctx' : PconfCtx) : Prop :=
  ∀ more, readLines ctx (text ++ more) = readLines ctx' more ∧ readCtx ctx (text ++ more) = readCtx ctx' more

section Steps

variable {ctx ctx' ctx'' : PconfCtx} {n : Nat}

theorem leadsTo_trans {text text' : CString} (first : LeadsTo ctx text ctx') (second : LeadsTo ctx' text' ctx'') :
    LeadsTo ctx (text ++ text') ctx'' := by
  intro more
  rw [List.append_assoc, (first _).1, (first _).2]
  exact second more

theorem leadsTo_char (running : lineDone ctx = false) {b : UInt8}
    (still : lineDone (parseChar ctx (charToInt b)) = false) : LeadsTo ctx [b] (parseChar ctx (charToInt b)) := by
  intro more
  have states : (parseChar ctx (charToInt b)).state ≠ .endofline ∧ (parseChar ctx (charToInt b)).state ≠ .parseerr := by
    simpa [lineDone] using still
  have step : pconfChar ctx b = (parseChar ctx (charToInt b), 0) := by
    simp [pconfChar, running, states.1, states.2]
  simp [readLines, readCtx, step]

theorem leadsTo_run (running : lineDone ctx = false) {text : CString} (oneLine : ∀ b ∈ text, b ≠ 10) :
    LeadsTo ctx text (runChars ctx text) := by
  induction text generalizing ctx with
  | nil => exact fun _ => ⟨rfl, rfl⟩
  | cons b text ih =>
    have still := parseChar_not_done running (oneLine b List.mem_cons_self)
    exact leadsTo_trans (leadsTo_char running still)
      (ih still fun c member => oneLine c (List.mem_cons_of_mem b member))

theorem completeLine_leadsTo {text rest : CString} (leads : LeadsTo ctx text ctx') :
    CompleteLine n ctx (text ++ rest) ↔ CompleteLine n ctx' rest := by
  rw [CompleteLine, (leads rest).1, (leads rest).2, CompleteLine]

theorem readLines_done (sane : ctx.state ≠ .parseerr) {text : CString} (some_ : text ≠ [])
    (done : lineDone (readCtx ctx text) = true) : readLines ctx text ≠ [] := by
  induction text generalizing ctx with
  | nil => exact absurd rfl some_
  | cons b rest ih =>
    obtain ⟨begun, start⟩ : ∃ begun, begun = if lineDone ctx then startLine ctx else ctx := ⟨_, rfl⟩
    have started : begun.state ≠ .parseerr := by
      rw [start]
      split
      · simp [startLine]
      · exact sane
    have still := parseChar_ne_parseerr started (charToInt b)
    by_cases ended : (parseChar begun (charToInt b)).state = .endofline
    · simp [readLines, pconfChar, <- start, ended]
    · have step : pconfChar ctx b = (parseChar begun (charToInt b), 0) := by
        simp only [pconfChar, <- start, if_neg ended, if_neg still]
      have lines : readLines ctx (b :: rest) = readLines (parseChar begun (charToInt b)) rest := by
        simp [readLines, step]
      have after : readCtx ctx (b :: rest) = readCtx (parseChar begun (charToInt b)) rest := by
        simp [readCtx, step]
      rw [after] at done
      rw [lines]
      refine ih still (fun last => ?_) done
      subst last
      simp [readCtx, lineDone, ended, still] at done

theorem completeLine_end (running : lineDone ctx = false) {b : UInt8}
    (ended : (parseChar ctx (charToInt b)).state = .endofline) (rest : CString) :
    CompleteLine n ctx (b :: rest) ↔ rest = [] ∧ (parseChar ctx (charToInt b)).arglist.length = n := by
  have step : pconfChar ctx b = (parseChar ctx (charToInt b), 1) := by
    simp [pconfChar, running, ended]
  constructor
  · rintro ⟨words, read, done, count⟩
    simp only [readLines, readCtx, step, if_true, true_or, List.cons.injEq] at read done
    refine ⟨?_, by rw [read.1, count]⟩
    by_contra some_
    exact readLines_done (by rw [ended]; decide) some_ done read.2
  · rintro ⟨rfl, count⟩
    exact ⟨_, by simp [readLines, step], by simp [readCtx, step, lineDone, ended], count⟩

theorem parseChar_continues {b : UInt8} (sane : ctx.state ≠ .parseerr)
    (ended : (parseChar ctx (charToInt b)).state ≠ .endofline) : lineDone (parseChar ctx (charToInt b)) = false := by
  simp [lineDone, ended, parseChar_ne_parseerr sane]

theorem running_sane (running : lineDone ctx = false) : ctx.state ≠ .parseerr := by
  intro failed
  simp [lineDone, failed] at running

theorem readLines_initial (running : lineDone ctx = false) {text : CString} {line : List CString}
    {rest : List (List CString)} (read : readLines ctx text = line :: rest) : ctx.arglist <+: line := by
  induction text generalizing ctx with
  | nil => cases read
  | cons b text ih =>
    have grown := (grows_parseChar ctx (charToInt b)).args
    by_cases ended : (parseChar ctx (charToInt b)).state = .endofline
    · simp only [readLines, pconfChar, running, Bool.false_eq_true, if_false, ended, if_true, List.cons.injEq] at read
      rw [<- read.1]
      exact grown
    · have still := parseChar_continues (running_sane running) ended
      have leads := (leadsTo_char running still text).1
      rw [List.singleton_append, read] at leads
      exact grown.trans (ih still leads.symm)

theorem completeLine_few (running : lineDone ctx = false) {text : CString} (line : CompleteLine n ctx text) :
    ctx.arglist.length ≤ n := by
  obtain ⟨words, read, _, rfl⟩ := line
  exact (readLines_initial running read).length_le

theorem completeLine_step (running : lineDone ctx = false) {b : UInt8}
    (more : (parseChar ctx (charToInt b)).state ≠ .endofline) (rest : CString) :
    CompleteLine n ctx (b :: rest) ↔ CompleteLine n (parseChar ctx (charToInt b)) rest := by
  have leads := leadsTo_char running (parseChar_continues (running_sane running) more)
  rw [<- List.singleton_append, completeLine_leadsTo leads]

theorem completeLine_enter (running : lineDone ctx = false) {b : UInt8} {next : PconfCtx} {state : PconfState}
    (step : parseChar ctx (charToInt b) = enter (next, state)) (more : state ≠ .endofline) (rest : CString) :
    CompleteLine n ctx (b :: rest) ↔ CompleteLine n (enter (next, state)) rest := by
  rw [completeLine_step running (by rw [step]; exact more), step]

theorem not_completeLine_nil : ¬ CompleteLine n ctx [] := by
  rintro ⟨words, read, _⟩
  cases read

end Steps

def blankBehind : CString -> Bool
  | [] => true
  | b :: rest => if b = 35 then decide (10 ∉ rest) else b != 10 && isspace (charToInt b) && blankBehind rest

def quoteThenBlank : CString -> Bool
  | [] => false
  | 92 :: _ :: rest => quoteThenBlank rest
  | b :: rest => if b = 34 then blankBehind rest else quoteThenBlank rest

-- An `=` would be a word of its own, and a backslash takes its meaning from the end of the line.
def bareThenBlank : CString -> Bool
  | [] => true
  | 92 :: _ :: rest => bareThenBlank rest
  | b :: rest =>
    if b = 10 ∨ b = 61 ∨ b = 92 then false
    else if b = 35 ∨ isspace (charToInt b) then blankBehind (b :: rest)
    else bareThenBlank rest

def singleWord : CString -> Bool
  | [] => false
  | b :: rest =>
    if b = 10 ∨ b = 35 then false
    else if isspace (charToInt b) then singleWord rest
    else if b = 34 then quoteThenBlank rest
    else if b = 61 then blankBehind rest
    else bareThenBlank (b :: rest)

section SingleWord

variable {ctx : PconfCtx} {n : Nat}

def Collecting (state : PconfState) : Prop :=
  state = .collect ∨ state = .collectliteral ∨ state = .quotecollect ∨ state = .qcLiteral

theorem collecting_running (collecting : Collecting ctx.state) : lineDone ctx = false := by
  obtain state | state | state | state := collecting <;> simp [lineDone, state]

theorem endofword_length (room : ctx.arglist.length < ctx.argLimit) :
    (endofword ctx).arglist.length = ctx.arglist.length + 1 ∧ (endofword ctx).argLimit = ctx.argLimit := by
  rw [endofword, if_neg (by omega)]
  simp

theorem collecting_step (collecting : Collecting ctx.state) (room : ctx.arglist.length < ctx.argLimit) (ch : Int) :
    Collecting (parseChar ctx ch).state ∧ (parseChar ctx ch).arglist = ctx.arglist ∨
      ctx.arglist.length < (parseChar ctx ch).arglist.length := by
  have ended := (endofword_length room).1
  have again := (grows_findwordstart (endofword ctx) ch).args.length_le
  obtain state | state | state | state := collecting <;>
    simp only [parseChar, state, collect, collectliteral, quotecollect, qcLiteral, enter] <;> split_ifs <;>
    simp [Collecting, addchar_arglist] <;> omega

theorem not_completeLine_collecting (collecting : Collecting ctx.state) (room : ctx.arglist.length < ctx.argLimit)
    (full : ctx.arglist.length = n) (text : CString) : ¬ CompleteLine n ctx text := by
  induction text generalizing ctx with
  | nil => exact not_completeLine_nil
  | cons b rest ih =>
    have running := collecting_running collecting
    have limit := (grows_parseChar ctx (charToInt b)).argLimit
    by_cases ended : (parseChar ctx (charToInt b)).state = .endofline
    · rw [completeLine_end running ended]
      obtain ⟨still, _⟩ | more := collecting_step collecting room (charToInt b)
      · rw [ended] at still
        simp [Collecting] at still
      · omega
    · rw [completeLine_step running ended]
      obtain ⟨still, same⟩ | more := collecting_step collecting room (charToInt b)
      · exact ih still (by rw [same, limit]; exact room) (by rw [same]; exact full)
      · intro line
        have few := completeLine_few (parseChar_continues (running_sane running) ended) line
        omega

theorem completeLine_comment (comment : ctx.state = .findeol) (text : CString) :
    CompleteLine n ctx (text ++ [10]) ↔ 10 ∉ text ∧ ctx.arglist.length = n := by
  have running : lineDone ctx = false := by simp [lineDone, comment]
  induction text with
  | nil =>
    have step : parseChar ctx (charToInt 10) = enter (ctx, .endofline) := parseChar_comment comment _
    simp [completeLine_end running (congrArg PconfCtx.state step), step, enter]
  | cons b rest ih =>
    by_cases newline : b = 10
    · subst newline
      have ended : (parseChar ctx (charToInt 10)).state = .endofline := congrArg PconfCtx.state (parseChar_comment comment _)
      simp [completeLine_end running ended]
    · have stays := findeol_run comment (show ∀ c ∈ [b], c ≠ 10 by simpa using newline)
      have more : (parseChar ctx (charToInt b)).state ≠ .endofline := by
        rw [<- runChars_nil (parseChar ctx (charToInt b)), <- runChars_cons, stays, comment]
        decide
      rw [List.cons_append, completeLine_step running more]
      rw [runChars_cons, runChars_nil] at stays
      rw [stays]
      exact ih.trans (by simp [Ne.symm newline])

theorem not_completeLine_further (between : ctx.state = .findwordstart) (room : ctx.arglist.length < ctx.argLimit)
    (full : ctx.arglist.length = n) {b : UInt8} (word : b ≠ 10 ∧ b ≠ 35 ∧ isspace (charToInt b) = false) (text : CString) :
    ¬ CompleteLine n ctx (b :: text) := by
  have running : lineDone ctx = false := by simp [lineDone, between]
  have limit := (grows_parseChar ctx (charToInt b)).argLimit
  have added : (addchar ctx (charToInt b)).arglist.length < (addchar ctx (charToInt b)).argLimit := by
    rw [addchar_arglist, (grows_addchar ctx (charToInt b)).argLimit]
    exact room
  have longer := (endofword_length added).1
  rw [addchar_arglist] at longer
  have began : Collecting (parseChar ctx (charToInt b)).state ∧ (parseChar ctx (charToInt b)).arglist = ctx.arglist ∨
      (parseChar ctx (charToInt b)).state = .findwordstart ∧
        ctx.arglist.length < (parseChar ctx (charToInt b)).arglist.length := by
    simp only [parseChar_between between, findwordstart, charToInt_newline, charToInt_hash, word, if_false, Bool.false_eq_true,
      enter]
    split_ifs <;> simp [Collecting, addchar_arglist]
    omega
  obtain ⟨collecting, same⟩ | ⟨again, more⟩ := began
  · rw [completeLine_step running (by rintro ended; simp [Collecting, ended] at collecting)]
    exact not_completeLine_collecting collecting (by rw [same, limit]; exact room) (by rw [same]; exact full) text
  · rw [completeLine_step running (by simp [again])]
    intro line
    have few := completeLine_few (by simp [lineDone, again]) line
    omega

theorem completeLine_blank (between : ctx.state = .findwordstart) (room : n < ctx.argLimit) (full : ctx.arglist.length = n)
    (text : CString) : CompleteLine n ctx (text ++ [10]) ↔ blankBehind text = true := by
  have running : lineDone ctx = false := by simp [lineDone, between]
  have newline : parseChar ctx (charToInt 10) = enter (ctx, .endofline) := parseChar_between between _
  have ended := congrArg PconfCtx.state newline
  induction text with
  | nil => simp only [List.nil_append, completeLine_end running ended, newline, enter, full, blankBehind, true_and]
  | cons b rest ih =>
    rw [List.cons_append, blankBehind]
    by_cases hash : b = 35
    · subst hash
      have step : parseChar ctx (charToInt 35) = enter (ctx, .findeol) := parseChar_between between _
      rw [completeLine_enter running step (by decide), completeLine_comment rfl, if_pos rfl]
      simpa [enter] using fun _ => full
    rw [if_neg hash]
    by_cases newline : b = 10
    · subst newline
      simp [completeLine_end running ended]
    by_cases space : isspace (charToInt b) = true
    · have step := parseChar_blank between newline hash space
      have more : (parseChar ctx (charToInt b)).state ≠ .endofline := by rw [step, between]; decide
      rw [completeLine_step running more, step]
      exact ih.trans (by simp [newline, space])
    · have notSpace : isspace (charToInt b) = false := by simpa using space
      have further := not_completeLine_further between (by omega) full ⟨newline, hash, notSpace⟩ (rest ++ [10])
      simp [further, space]

theorem completeLine_ended (room : n < ctx.argLimit) (one : ctx.arglist.length + 1 = n) (text : CString) :
    CompleteLine n (enter (endofword ctx, .findwordstart)) (text ++ [10]) ↔ blankBehind text = true := by
  obtain ⟨count, limit⟩ := endofword_length (show ctx.arglist.length < ctx.argLimit by omega)
  refine completeLine_blank rfl ?_ ?_ text
  · exact lt_of_lt_of_eq room limit.symm
  · exact count.trans one

-- A backslash and what it takes are nothing but part of the word.
theorem completeLine_literal (running : lineDone ctx = false) {inside literal : PconfState} (going : inside ≠ .endofline)
    (still : literal ≠ .endofline ∧ literal ≠ .parseerr) {b : UInt8}
    (first : parseChar ctx (charToInt 92) = enter (ctx, literal))
    (second : parseChar (enter (ctx, literal)) (charToInt b) = enter (if charToInt b = 10 then enter (ctx, literal)
      else addchar (enter (ctx, literal)) (charToInt b), inside)) (text : CString) :
    ∃ behind, (CompleteLine n ctx (92 :: b :: text) ↔ CompleteLine n (enter (behind, inside)) text) ∧
      behind.arglist = ctx.arglist ∧ behind.argLimit = ctx.argLimit := by
  refine ⟨if charToInt b = 10 then enter (ctx, literal) else addchar (enter (ctx, literal)) (charToInt b), ?_, ?_⟩
  · rw [completeLine_enter running first still.1, completeLine_enter (by simp [lineDone, enter, still]) second going]
  · split
    next => exact ⟨rfl, rfl⟩
    next => exact ⟨addchar_arglist _ _, (grows_addchar _ _).argLimit⟩

theorem completeLine_quote (quoted : ctx.state = .quotecollect) (room : n < ctx.argLimit)
    (one : ctx.arglist.length + 1 = n) (text : CString) :
    CompleteLine n ctx (text ++ [10]) ↔ quoteThenBlank text = true := by
  fun_induction quoteThenBlank text generalizing ctx with
  | case1 =>
    have running : lineDone ctx = false := by simp [lineDone, quoted]
    have step : parseChar ctx (charToInt 10) = enter (addchar ctx (charToInt 10), .quotecollect) := parseChar_quote quoted _
    rw [List.nil_append, completeLine_enter running step (by decide)]
    simp [not_completeLine_nil]
  | case2 b rest ih =>
    have running : lineDone ctx = false := by simp [lineDone, quoted]
    obtain ⟨behind, line, same, limit⟩ := @completeLine_literal ctx n running .quotecollect .qcLiteral (by decide) (by decide)
      b (parseChar_quote quoted _) (by change enter (qcLiteral _ _) = _; unfold qcLiteral; split_ifs <;> rfl) (rest ++ [10])
    rw [List.cons_append, List.cons_append, line]
    exact ih rfl (by simpa [enter, limit] using room) (by simpa [enter, same] using one)
  | case3 rest notPair =>
    have running : lineDone ctx = false := by simp [lineDone, quoted]
    have step : parseChar ctx (charToInt 34) = enter (endofword ctx, .findwordstart) := parseChar_quote quoted _
    rw [List.cons_append, completeLine_enter running step (by decide), completeLine_ended room one]
  | case4 b rest notPair quote ih =>
    have running : lineDone ctx = false := by simp [lineDone, quoted]
    by_cases escape : b = 92
    · subst escape
      obtain rfl : rest = [] := nil_of_noPair fun c more => notPair c more rfl
      have first : parseChar ctx (charToInt 92) = enter (ctx, .qcLiteral) := parseChar_quote quoted _
      have second : parseChar (enter (ctx, .qcLiteral)) (charToInt 10) = enter (enter (ctx, .qcLiteral), .quotecollect) := rfl
      rw [List.cons_append, completeLine_enter running first (by decide), List.nil_append,
        completeLine_enter rfl second (by decide)]
      simp [not_completeLine_nil, quoteThenBlank]
    · rw [List.cons_append, completeLine_enter running (parseChar_quotePlain quoted quote escape) (by decide)]
      exact ih rfl (by simpa [enter, (grows_addchar ctx (charToInt b)).argLimit] using room)
        (by simpa [enter, addchar_arglist] using one)

theorem completeLine_bare (inside : ctx.state = .collect) (room : n < ctx.argLimit)
    (one : ctx.arglist.length + 1 = n) (text : CString) :
    CompleteLine n ctx (text ++ [10]) ↔ bareThenBlank text = true := by
  fun_induction bareThenBlank text generalizing ctx with
  | case1 =>
    have running : lineDone ctx = false := by simp [lineDone, inside]
    have step : parseChar ctx (charToInt 10) = enter (endofword ctx, .endofline) := parseChar_inside inside _
    have count := (endofword_length (show ctx.arglist.length < ctx.argLimit by omega)).1
    simp [completeLine_end running (congrArg PconfCtx.state step), step, enter, count, one]
  | case2 b rest ih =>
    have running : lineDone ctx = false := by simp [lineDone, inside]
    obtain ⟨behind, line, same, limit⟩ := @completeLine_literal ctx n running .collect .collectliteral (by decide) (by decide)
      b (parseChar_inside inside _) (by change enter (collectliteral _ _) = _; unfold collectliteral; split_ifs <;> rfl) (rest ++ [10])
    rw [List.cons_append, List.cons_append, line]
    exact ih rfl (by simpa [enter, limit] using room) (by simpa [enter, same] using one)
  | case3 b rest notPair special =>
    have running : lineDone ctx = false := by simp [lineDone, inside]
    simp only [Bool.false_eq_true, iff_false, List.cons_append]
    obtain rfl | rfl | rfl := special
    · have ended : (parseChar ctx (charToInt 10)).state = .endofline := congrArg PconfCtx.state (parseChar_inside inside _)
      simp [completeLine_end running ended]
    · have step : parseChar ctx (charToInt 61) =
          enter (endofword (addchar (endofword ctx) (charToInt 61)), .findwordstart) := parseChar_inside inside _
      obtain ⟨count, limit⟩ := endofword_length (show ctx.arglist.length < ctx.argLimit by omega)
      have added : (addchar (endofword ctx) (charToInt 61)).arglist.length <
          (addchar (endofword ctx) (charToInt 61)).argLimit := by
        rw [addchar_arglist, (grows_addchar _ _).argLimit]
        omega
      have further := (endofword_length added).1
      rw [addchar_arglist] at further
      rw [completeLine_enter running step (by decide)]
      intro line
      have few := completeLine_few rfl line
      change (endofword (addchar (endofword ctx) (charToInt 61))).arglist.length ≤ n at few
      omega
    · obtain rfl : rest = [] := nil_of_noPair fun c more => notPair c more rfl
      have first : parseChar ctx (charToInt 92) = enter (ctx, .collectliteral) := parseChar_inside inside _
      have second : parseChar (enter (ctx, .collectliteral)) (charToInt 10) = enter (enter (ctx, .collectliteral), .collect) := rfl
      rw [completeLine_enter running first (by decide), List.nil_append, completeLine_enter rfl second (by decide)]
      exact not_completeLine_nil
  | case4 b rest notPair special blank =>
    have running : lineDone ctx = false := by simp [lineDone, inside]
    simp only [not_or] at special
    rw [List.cons_append, blankBehind]
    by_cases hash : b = 35
    · subst hash
      have step : parseChar ctx (charToInt 35) = enter (endofword ctx, .findeol) := parseChar_inside inside _
      have count : (enter (endofword ctx, .findeol)).arglist.length = ctx.arglist.length + 1 :=
        (endofword_length (by omega)).1
      rw [completeLine_enter running step (by decide), completeLine_comment rfl, if_pos rfl, count]
      simpa using fun _ => one
    · have space := blank.resolve_left hash
      have step : parseChar ctx (charToInt b) = enter (endofword ctx, .findwordstart) := by
        simp [parseChar, inside, collect, special.1, hash, space]
      rw [completeLine_enter running step (by decide), completeLine_ended room one]
      simp [hash, special.1, space]
  | case5 b rest notPair special blank ih =>
    have running : lineDone ctx = false := by simp [lineDone, inside]
    simp only [not_or, Bool.not_eq_true] at special blank
    have step := parseChar_insidePlain inside blank.1 special.1 blank.2 special.2.1 special.2.2
    rw [List.cons_append, completeLine_enter running step (by decide)]
    exact ih rfl (by simpa [enter, (grows_addchar ctx (charToInt b)).argLimit] using room)
      (by simpa [enter, addchar_arglist] using one)

theorem completeLine_single (between : ctx.state = .findwordstart) (room : n < ctx.argLimit)
    (one : ctx.arglist.length + 1 = n) (text : CString) :
    CompleteLine n ctx (text ++ [10]) ↔ singleWord text = true := by
  have running : lineDone ctx = false := by simp [lineDone, between]
  have newline : parseChar ctx (charToInt 10) = enter (ctx, .endofline) := parseChar_between between _
  have ended := congrArg PconfCtx.state newline
  fun_induction singleWord text with
  | case1 =>
    simp [completeLine_end running ended, newline, enter]
    omega
  | case2 b rest nothing =>
    rw [List.cons_append]
    obtain rfl | rfl := nothing
    · simp [completeLine_end running ended]
    · have step : parseChar ctx (charToInt 35) = enter (ctx, .findeol) := parseChar_between between _
      have few : (enter (ctx, .findeol)).arglist.length ≠ n := by
        change ctx.arglist.length ≠ n
        omega
      rw [completeLine_enter running step (by decide), completeLine_comment rfl]
      simp [few]
  | case3 b rest nothing space ih =>
    simp only [not_or] at nothing
    have step := parseChar_blank between nothing.1 nothing.2 space
    rw [List.cons_append, completeLine_step running (by rw [step, between]; decide), step]
    exact ih
  | case4 rest nothing space =>
    have step : parseChar ctx (charToInt 34) = enter (ctx, .quotecollect) := parseChar_between between _
    rw [List.cons_append, completeLine_enter running step (by decide)]
    have opened : (enter (ctx, .quotecollect)).state = .quotecollect := rfl
    exact completeLine_quote opened room one rest
  | case5 rest nothing space quote =>
    have step : parseChar ctx (charToInt 61) = enter (endofword (addchar ctx (charToInt 61)), .findwordstart) :=
      parseChar_between between _
    rw [List.cons_append, completeLine_enter running step (by decide)]
    refine completeLine_ended ?_ ?_ rest
    · rwa [(grows_addchar ctx (charToInt 61)).argLimit]
    · rwa [addchar_arglist]
  | case6 b rest nothing space quote equals =>
    simp only [not_or] at nothing
    have notSpace : isspace (charToInt b) = false := by simpa using space
    have same : parseChar (enter (ctx, .collect)) (charToInt b) = parseChar ctx (charToInt b) :=
      parseChar_begins between nothing.1 nothing.2 notSpace quote equals
    have more : (parseChar ctx (charToInt b)).state ≠ .endofline := by
      rw [parseChar_between between]
      simp only [findwordstart, charToInt_newline, charToInt_hash, charToInt_quote, charToInt_equals, nothing.1, quote,
        nothing.2, equals, notSpace, if_false, Bool.false_eq_true]
      split_ifs <;> simp [enter]
    have collecting : (enter (ctx, .collect)).state = .collect := rfl
    have inside := completeLine_bare collecting room one (b :: rest)
    rw [List.cons_append, completeLine_step rfl (by rw [same]; exact more), same] at inside
    rw [List.cons_append, completeLine_step running more]
    exact inside

end SingleWord

section Alone

variable {ctx : PconfCtx} {args : List CString} {text : CString}

theorem readLine_iff (running : lineDone ctx = false) (oneLine : ∀ b ∈ text, b ≠ 10) (words : List CString) :
    readLines ctx (text ++ [10]) = [words] ∧ lineDone (readCtx ctx (text ++ [10])) = true ↔
      (runChars ctx (text ++ [10])).state = .endofline ∧ (runChars ctx (text ++ [10])).arglist = words := by
  have before := runChars_not_done running oneLine
  rw [(leadsTo_run running oneLine [10]).2, readLines_one running oneLine, runChars_append, runChars_cons, runChars_nil]
  by_cases ended : (parseChar (runChars ctx text) (charToInt 10)).state = .endofline
  · have step : pconfChar (runChars ctx text) 10 = (parseChar (runChars ctx text) (charToInt 10), 1) := by
      simp [pconfChar, before, ended]
    simp [ended, readCtx, step, lineDone]
  · simp [ended]

theorem clip_length (wordlenLimit : Nat) (word : CString) :
    (clip wordlenLimit word).length ≤ word.length ∧ (wordlenLimit ≠ 0 -> (clip wordlenLimit word).length ≤ wordlenLimit) := by
  rw [clip]
  split
  next none_ => exact ⟨Nat.le_refl _, fun limited => absurd none_ limited⟩
  next => exact ⟨List.length_take_le' _ _, fun _ => List.length_take_le _ _⟩

theorem reads_itself (isText : ∀ b ∈ text, isText b = true) (room : args.length < 32) :
    Reads args text [text] ↔ Word text ∧ text.length ≤ 512 := by
  constructor
  · rintro ⟨ended, words⟩
    have escapes := escapes_run (waiting args) (text ++ [10])
    have plain : 92 ∉ text := by
      have whole : gathered (runChars (waiting args) (text ++ [10])) =
          args.flatten ++ (text ++ (runChars (waiting args) (text ++ [10])).wordbuf) := by
        rw [gathered, words]
        simp
      rw [whole] at escapes
      simp only [List.count_append, gathered, waiting, escaping] at escapes
      rw [<- List.count_eq_zero]
      simp at escapes
      omega
    have noEscape : ∀ b ∈ text, Nut.isText b = true ∧ b ≠ 92 := fun b member =>
      ⟨isText b member, fun same => plain (same ▸ member)⟩
    rcases @first_word 32 512 text noEscape args with ⟨word, rest, first, run⟩ | none_ | open_
    · have grown := (grows_runChars (waiting (addArg 32 args (clip 512 word))) (rest ++ [10])).args
      have through : runChars (waiting args) (text ++ [10]) =
          runChars (waiting (addArg 32 args (clip 512 word))) (rest ++ [10]) := run
      rw [<- through, words] at grown
      have here : args ++ [clip 512 word] <+: args ++ [text] := by
        rwa [<- addArg_fits _ room]
      have same : clip 512 word = text := same_next here (List.prefix_refl _)
      obtain ⟨shorter, limited⟩ := clip_length 512 word
      rw [same] at shorter limited
      cases first with
      | quoted spaces split closed =>
        rw [split] at shorter
        simp only [List.length_append, List.length_replicate, List.length_cons] at shorter
        omega
      | bare spaces split isWord =>
        have counted := congrArg List.length split
        simp only [List.length_append, List.length_replicate] at counted
        obtain rfl : spaces = 0 := by omega
        obtain rfl : rest = [] := List.length_eq_zero_iff.mp (by omega)
        have whole : text = word := by simpa using split
        subst whole
        exact ⟨isWord.imp_left And.left, limited (by decide)⟩
    · rw [waiting, none_] at words
      simp at words
    · rw [waiting, open_] at ended
      cases ended
  · rintro ⟨word, short⟩
    exact reads_line (.last word.token) (by simp; omega) (by simpa using short)

end Alone

end Nut
