import Nut.Drivers.DummyLines

set_option autoImplicit false

namespace Nut.Dummy

section Ends

theorem lineEnds_cons (ctx : PconfCtx) (b : UInt8) (rest : CString) : lineEnds ctx (b :: rest) =
      if lineDone (parseChar ctx (fgetcToInt b)) then
        (parseChar ctx (fgetcToInt b), rest) :: lineEnds (startLine (parseChar ctx (fgetcToInt b))) rest
      else lineEnds (parseChar ctx (fgetcToInt b)) rest := by
  rw [lineEnds]

theorem lineEnds_lines (ctx : PconfCtx) (file : CString) :
    (lineEnds ctx file).map (fun ends => ends.1.arglist) = fileLines ctx file := by
  induction file generalizing ctx with
  | nil =>
    rw [lineEnds, fileLines]
    split <;> rfl
  | cons b rest ih =>
    rw [lineEnds_cons, fileLines]
    split
    · rw [List.map_cons, ih]
    · exact ih _

theorem lineEnds_after {ctx ctx' : PconfCtx} {file rest : CString} {before after : List (PconfCtx × CString)}
    (split_ : lineEnds ctx file = before ++ (ctx', rest) :: after) : lineEnds (startLine ctx') rest = after := by
  induction file generalizing ctx before with
  | nil =>
    rw [lineEnds] at split_
    by_cases some_ : ctx.arglist ≠ []
    · rw [if_pos some_, <- List.nil_append [_]] at split_
      obtain ⟨-, last⟩ := List.append_inj' split_ (by
        have length := congrArg List.length split_
        simp only [List.length_append, List.length_cons, List.length_nil] at length ⊢
        omega)
      cases last
      rfl
    · rw [if_neg some_] at split_
      exact absurd split_ (by simp)
  | cons b more ih =>
    rw [lineEnds_cons] at split_
    split at split_
    · cases before with
      | nil =>
        cases split_
        rfl
      | cons first before => exact ih (List.cons.inj split_).2
    · exact ih split_

end Ends

-- What the driver does: it goes on with the file, and between the passes it changes what it publishes or when to go on.
inductive DummyStep where
  | pass (call : DummyCall)
  | meanwhile (nextUpdate : Int) (ops : List StatusOp)

structure Reading where
  state : Dummy
  done : List (List CString)

section Passes

variable (nutData : List DummyInfo) (file : CString)

def taken : List (PconfCtx × CString) -> List (List CString)
  | [] => []
  | (ctx, _) :: ends => ctx.arglist :: if isTimer ctx.arglist then [] else taken ends

def left (s : Dummy) : List (List CString) :=
  if s.ctx.isNone then [] else (s.remaining file).map fun ends => ends.1.arglist

def Reading.step (r : Reading) : DummyStep -> Reading
  | .pass call =>
    if call.now < r.state.nextUpdate then r
    else
      { state := parseDataFile nutData call file r.state
        done := (if r.state.ctx.isNone then [] else r.done) ++ taken (r.state.remaining file) }
  | .meanwhile nextUpdate ops =>
    { r with state := { r.state with nextUpdate, own := ops.foldl Status.perform r.state.own } }

def OfWords (P : CString -> List CString -> Prop) : List CString -> Prop
  | [] => True
  | name :: words => P name words

instance (P : CString -> List CString -> Prop) [∀ name words, Decidable (P name words)] (line : List CString) :
    Decidable (OfWords P line) :=
  match line with
  | [] => inferInstanceAs (Decidable True)
  | name :: words => inferInstanceAs (Decidable (P name words))

def EachTaken (call : DummyCall) (P : Pass -> CString -> List CString -> Prop) : List (PconfCtx × CString) -> Pass -> Prop
  | [], _ => True
  | (ctx, _) :: ends, p =>
    OfWords (P p) ctx.arglist ∧ (isTimer ctx.arglist = false -> EachTaken call P ends (parseLine nutData call p ctx.arglist))

instance EachTaken.decidable (call : DummyCall) (P : Pass -> CString -> List CString -> Prop)
    [∀ p name words, Decidable (P p name words)] : (ends : List (PconfCtx × CString)) -> (p : Pass) ->
    Decidable (EachTaken nutData call P ends p)
  | [], _ => inferInstanceAs (Decidable True)
  | (ctx, _) :: ends, p =>
    have := EachTaken.decidable call P ends (parseLine nutData call p ctx.arglist)
    inferInstanceAs (Decidable (_ ∧ (isTimer ctx.arglist = false -> _)))

def RegularStep (r : Reading) : DummyStep -> Prop
  | .pass call =>
    call.now < r.state.nextUpdate ∨
      EachTaken nutData call (LineRegular call) (r.state.remaining file) (r.state.passStart call)
  | .meanwhile _ _ => True

def MeansStep (r : Reading) : DummyStep -> Prop
  | .pass call =>
    call.now < r.state.nextUpdate ∨
      EachTaken nutData call (LineMeans nutData call) (r.state.remaining file) (r.state.passStart call) ∧
        (r.step nutData file (.pass call)).done ++ left file (r.step nutData file (.pass call)).state =
          fileLines (startLine pconfInit) file
  | .meanwhile _ _ => True

end Passes

section Steps

variable {nutData : List DummyInfo} {file : CString} {call : DummyCall}

theorem ordered_lines {p : Pass} (ordered : Ordered p.tree) (ends : List (PconfCtx × CString)) :
    Ordered (parseLines nutData call ends p).1.tree := by
  induction ends generalizing p with
  | nil => exact ordered
  | cons first ends ih =>
    have next := ordered_line nutData call ordered first.1.arglist
    rw [parseLines]
    split
    · exact next
    · exact ih next

theorem taken_means {p : Pass} (ordered : Ordered p.tree) {ends : List (PconfCtx × CString)}
    (regular : EachTaken nutData call (LineRegular call) ends p) : EachTaken nutData call (LineMeans nutData call) ends p := by
  induction ends generalizing p with
  | nil => trivial
  | cons first ends ih =>
    obtain ⟨here, later⟩ := regular
    refine ⟨?_, fun goes => ih (ordered_line nutData call ordered first.1.arglist) (later goes)⟩
    revert here
    cases first.1.arglist with
    | nil => exact id
    | cons name words => exact line_means ordered

theorem parseLines_end {p : Pass} (idle : p.nextUpdate = -1) {ends : List (PconfCtx × CString)}
    (regular : EachTaken nutData call (LineRegular call) ends p) :
    ((parseLines nutData call ends p).2 = none ∧ (parseLines nutData call ends p).1.nextUpdate = -1 ∧
        taken ends = ends.map fun ends => ends.1.arglist) ∨
      ∃ before ctx rest after, ends = before ++ (ctx, rest) :: after ∧
        (parseLines nutData call ends p).2 = some (ctx, rest) ∧ (parseLines nutData call ends p).1.nextUpdate ≠ -1 ∧
        taken ends = (before ++ [(ctx, rest)]).map fun ends => ends.1.arglist := by
  induction ends generalizing p with
  | nil => exact .inl ⟨rfl, idle, rfl⟩
  | cons first ends ih =>
    obtain ⟨ctx, rest⟩ := first
    obtain ⟨here, later⟩ := regular
    rw [parseLines, taken]
    cases timer : isTimer ctx.arglist with
    | true =>
      rw [if_pos rfl, if_pos rfl]
      refine .inr ⟨[], ctx, rest, ends, rfl, rfl, ?_, rfl⟩
      revert here timer
      cases ctx.arglist with
      | nil => exact fun _ timer => by cases timer
      | cons name words =>
        intro here timer
        obtain ⟨some_, waits⟩ := here.timer timer
        dsimp only
        have lead : hasLead "TIMER" name = true := timer
        rw [parseLine, if_pos lead]
        cases words with
        | nil => exact absurd rfl some_
        | cons => exact waits
    | false =>
      rw [if_neg (by decide), if_neg (by decide)]
      have idle' : (parseLine nutData call p ctx.arglist).nextUpdate = -1 := by
        revert timer
        cases ctx.arglist with
        | nil => exact fun _ => idle
        | cons name words => exact fun timer => (line_kept timer).2.trans idle
      rcases ih idle' (later timer) with ⟨none_, nextUpdate, all⟩ | ⟨before, ctx', rest', after, rfl, some_, nextUpdate, upto⟩
      · exact .inl ⟨none_, nextUpdate, by rw [all, List.map_cons]⟩
      · exact .inr ⟨(ctx, rest) :: before, ctx', rest', after, rfl, some_, nextUpdate, by rw [upto]; rfl⟩

structure Between (file : CString) (r : Reading) : Prop where
  ordered : Ordered r.state.own.dstate.dtreeRoot
  whole : r.state.ctx ≠ none -> r.done ++ left file r.state = fileLines (startLine pconfInit) file

theorem start_lines (r : Reading) (between : Between file r) :
    (if r.state.ctx.isNone then [] else r.done) ++ (r.state.remaining file).map (fun ends => ends.1.arglist) =
      fileLines (startLine pconfInit) file := by
  cases open_ : r.state.ctx with
  | none =>
    rw [Option.isNone_none, if_pos rfl, List.nil_append, remaining, opened, open_, lineEnds_lines]
    rfl
  | some at_ =>
    have whole := between.whole (by rw [open_]; exact Option.some_ne_none at_)
    rw [left, open_, Option.isNone_some, if_neg (by decide)] at whole
    rw [Option.isNone_some, if_neg (by decide)]
    exact whole

theorem passStart_tree (s : Dummy) (call : DummyCall) : (s.passStart call).tree = s.own.dstate.dtreeRoot := by
  rw [Pass.tree, passStart]
  dsimp only
  split <;> rfl

theorem pass_state {s : Dummy} (due : ¬ call.now < s.nextUpdate) (p : Pass) (next : Option (PconfCtx × CString))
    (lines : parseLines nutData call (s.remaining file) (s.passStart call) = (p, next)) :
    parseDataFile nutData call file s =
      { ctx := if p.nextUpdate = -1 then none else next
        nextUpdate := p.nextUpdate
        own := ((p.call (.alarmCommit call.clock)).statusCommit call.clock).own } := by
  rw [parseDataFile, if_neg due, lines]
  rfl

theorem left_pass {s : Dummy} (due : ¬ call.now < s.nextUpdate)
    (regular : EachTaken nutData call (LineRegular call) (s.remaining file) (s.passStart call)) :
    taken (s.remaining file) ++ left file (parseDataFile nutData call file s) =
      (s.remaining file).map fun ends => ends.1.arglist := by
  rcases parseLines_end rfl regular with ⟨none_, nextUpdate, done⟩ | ⟨before, ctx, rest, after, ends, some_, nextUpdate, done⟩
  · rw [pass_state due _ _ rfl, left, if_pos nextUpdate, Option.isNone_none, if_pos rfl, List.append_nil, done]
  · have next (nextUpdate : Int) (own : Status) : remaining file { ctx := some (ctx, rest), nextUpdate, own } = after := by
      rw [remaining, opened, Option.getD_some, lineEnds_after ends]
    rw [pass_state due _ _ rfl, left, if_neg nextUpdate, some_, Option.isNone_some, if_neg (by decide), next, done, ends]
    simp

theorem pass_means {r : Reading} (between : Between file r) (due : ¬ call.now < r.state.nextUpdate)
    (regular : EachTaken nutData call (LineRegular call) (r.state.remaining file) (r.state.passStart call)) :
    EachTaken nutData call (LineMeans nutData call) (r.state.remaining file) (r.state.passStart call) ∧
      (r.step nutData file (.pass call)).done ++ left file (r.step nutData file (.pass call)).state =
        fileLines (startLine pconfInit) file ∧
      Ordered (r.step nutData file (.pass call)).state.own.dstate.dtreeRoot := by
  have ordered : Ordered (r.state.passStart call).tree := passStart_tree r.state call ▸ between.ordered
  have lines := @ordered_lines nutData call _ ordered (r.state.remaining file)
  refine ⟨taken_means ordered regular, ?_⟩
  rw [Reading.step, if_neg due]
  constructor
  · dsimp only
    rw [List.append_assoc, left_pass due regular]
    exact start_lines r between
  · dsimp only
    rw [pass_state due _ _ rfl]
    exact ordered_commit (ordered_call lines (.alarmCommit call.clock)) call.clock

theorem step_means (r : Reading) (step : DummyStep) (between : Between file r) (regular : RegularStep nutData file r step) :
    MeansStep nutData file r step ∧ Between file (r.step nutData file step) := by
  cases step with
  | meanwhile nextUpdate ops =>
    refine ⟨trivial, ?_, between.whole⟩
    have kept (s : Status) (op : StatusOp) (here : Ordered s.dstate.dtreeRoot) : Ordered (s.perform op).dstate.dtreeRoot :=
      ordered_perform here op
    exact invariant_foldl kept between.ordered ops
  | pass call =>
    by_cases paused : call.now < r.state.nextUpdate
    · refine ⟨.inl paused, ?_⟩
      rw [Reading.step, if_pos paused]
      exact between
    · obtain ⟨means, whole, ordered⟩ := pass_means between paused (regular.resolve_left paused)
      exact ⟨.inr ⟨means, whole⟩, ordered, fun _ => whole⟩

end Steps

section Samples

instance (t : StTree) (var : CString) : Decidable (Fixed t var) :=
  decidable_of_iff ((stateTreeFind t var).any StNode.immutable = true) (by
    rw [Option.any_eq_true]
    rfl)

set_option synthInstance.maxSize 1000 in
instance (call : DummyCall) (p : Pass) (name : CString) (words : List CString) : Decidable (LineRegular call p name words) :=
  decidable_of_iff
    ((setsVariable name = true -> hasLead "TIMER" name = false ∧ hasLead "ALARM" name = false ∧
        hasLead "ups.status" (varName name) = false) ∧
      (setsVariable name = true -> words = [] -> p.varValue = [] ∧ ¬ Fixed p.tree (varName name)) ∧
      (setsVariable name = true -> words ≠ [] -> joined words ≠ [] ∧
        ((joined words).length < maxStringSize - 1 ∨ maxStringSize - 1 ≤ (words.headD []).length) ∧
          (Fixed p.tree (varName name) -> held p.tree (varName name) = some ((joined words).take (maxStringSize - 1)))) ∧
      (alarmName name = true -> words ≠ [] -> joined words ≠ []) ∧
      (hasLead "TIMER" name = true -> words ≠ [] ∧ call.timerNow + (atoi (words.headD [])).toInt ≠ -1))
    ⟨fun ⟨named, empty, room, alarm, timer⟩ => ⟨named, empty, room, alarm, timer⟩,
      fun ⟨named, empty, room, alarm, timer⟩ => ⟨named, empty, room, alarm, timer⟩⟩

instance (nutData : List DummyInfo) (file : CString) (r : Reading) (step : DummyStep) :
    Decidable (RegularStep nutData file r step) :=
  match step with
  | .pass call =>
    inferInstanceAs (Decidable (call.now < r.state.nextUpdate ∨
      EachTaken nutData call (LineRegular call) (r.state.remaining file) (r.state.passStart call)))
  | .meanwhile _ _ => inferInstanceAs (Decidable True)

def start : Dummy :=
  { ctx := none, nextUpdate := -1, own := .start }

def callAt (now : Int) : DummyCall :=
  { now, timerNow := now, clock := now, trends := [], scratch := [], beyond := [] }

end Samples

section Runs

variable {nutData : List DummyInfo} {file : CString}

-- A file means what each line says in every run whose lines are regular.
theorem lines_mean {s : Dummy} (closed : s.ctx = none) (ordered : Ordered s.own.dstate.dtreeRoot) {steps : List DummyStep}
    (regular : Always (Reading.step nutData file) (EachAction (RegularStep nutData file)) ⟨s, []⟩ steps) :
    Always (Reading.step nutData file) (EachAction (MeansStep nutData file)) ⟨s, []⟩ steps :=
  have start : Between file ⟨s, []⟩ := ⟨ordered, fun open_ => absurd closed open_⟩
  always_while step_means start regular

theorem lines_mean_timer :
    Always (Reading.step [] (cstr "a: x y\nTIMER 5\nb:\nALARM z\n")) (EachAction (MeansStep [] (cstr "a: x y\nTIMER 5\nb:\nALARM z\n")))
      ⟨start, []⟩ [.pass (callAt 0), .pass (callAt 3), .pass (callAt 6)] :=
  @lines_mean [] _ start rfl trivial _ (by decide)

theorem nameOnly_old_words :
    held (parseDataFile [] (callAt 0) (cstr "a: x\nb:\n") start).own.dstate.dtreeRoot (cstr "b") = some (cstr "x") ∧
      ¬ Always (Reading.step [] (cstr "a: x\nb:\n")) (EachAction (MeansStep [] (cstr "a: x\nb:\n"))) ⟨start, []⟩
        [.pass (callAt 0)] := by
  refine ⟨by decide, ?_⟩
  rintro ⟨paused | ⟨lines, -⟩, -⟩
  · exact absurd paused (by decide)
  · have second := (lines.2 (by decide)).1
    exact absurd (second.sets (by decide)) (by decide)

end Runs

end Nut.Dummy
