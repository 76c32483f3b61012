import Nut.Common.ParseConfReuse
import Nut.Drivers.DstateRun

set_option autoImplicit false

namespace Nut

def dstateCalls (calls : List (Int × DstateOp)) (d : Dstate) : Dstate :=
  calls.foldl (fun d call => (call.2.apply call.1 d).1) d

structure Survives (node node' : StNode) : Prop where
  var : node'.var = node.var
  raw : node'.raw = node.raw
  val : node'.val = node.val
  flags : node'.flags = node.flags

theorem Survives.refl (node : StNode) : Survives node node := ⟨rfl, rfl, rfl, rfl⟩

theorem Survives.trans {a b c : StNode} (first : Survives a b) (second : Survives b c) : Survives a c :=
  ⟨second.var.trans first.var, second.raw.trans first.raw, second.val.trans first.val, second.flags.trans first.flags⟩

theorem Survives.immutable {node node' : StNode} (survives : Survives node node') :
    node'.immutable = node.immutable := by
  rw [StNode.immutable, survives.flags, StNode.immutable]

def Guards (t t' : StTree) : Prop :=
  Ordered t -> Ordered t' ∧ ∀ name node, stateTreeFind t name = some node -> node.immutable = true ->
    ∃ node', stateTreeFind t' name = some node' ∧ Survives node node'

section Guards

variable {t : StTree} {d : Dstate}

theorem Guards.refl (t : StTree) : Guards t t :=
  fun ordered => ⟨ordered, fun _ node present _ => ⟨node, present, Survives.refl node⟩⟩

theorem Guards.trans {t t' t'' : StTree} (first : Guards t t') (second : Guards t' t'') : Guards t t'' := by
  intro ordered
  obtain ⟨ordered', kept⟩ := first ordered
  obtain ⟨ordered'', kept'⟩ := second ordered'
  refine ⟨ordered'', ?_⟩
  intro name node present immutable
  obtain ⟨node', present', survives⟩ := kept name node present immutable
  obtain ⟨node'', present'', survives'⟩ := kept' name node' present' (survives.immutable.trans immutable)
  exact ⟨node'', present'', survives.trans survives'⟩

theorem guards_stateVisit {ρ : Type} (t : StTree) (var : CString) {found : StNode -> Option StNode × ρ}
    {missing : Option StNode × ρ} (keep : ∀ node node', (found node).1 = some node' -> node'.var = node.var)
    (fresh : ∀ node, missing.1 = some node -> node.var = var)
    (guarded : ∀ node, stateTreeFind t var = some node -> node.immutable = true ->
      ∃ node', (found node).1 = some node' ∧ Survives node node') : Guards t (stateVisit var found missing t).1 := by
  intro ordered
  refine ⟨ordered_stateVisit ordered keep fresh, ?_⟩
  intro name node present immutable
  have foundKey (a a' : StNode) (same : strcasecmp a.var var = .eq) (kept : (found a).1 = some a') :
      strcasecmp a'.var var = .eq := by
    rw [keep a a' kept]
    exact same
  have missingKey (a : StNode) (made : missing.1 = some a) : strcasecmp a.var var = .eq := by
    rw [fresh a made]
    exact strcasecmp_self var
  rw [stateVisit, SearchTree.visit_eq]
  by_cases same : strcasecmp var name = .eq
  · have there : stateTreeFind t var = some node := (stateTreeFind_congr same t).trans present
    obtain ⟨node', kept, survives⟩ := guarded node there immutable
    refine ⟨node', ?_, survives⟩
    rw [<- stateTreeFind_congr same]
    refine (SearchTree.find?_alter_self _ _ ordered foundKey missingKey).trans ?_
    change (stateTreeFind t var).elim _ _ = _
    rw [there]
    exact kept
  · refine ⟨node, ?_, Survives.refl node⟩
    exact (SearchTree.find?_alter_other _ _ ordered same foundKey missingKey).trans present

theorem guards_stateOp (op : StateOp) (other : ∀ var flag, op ≠ .setflags var flag) (now : Int) (t : StTree) :
    Guards t (op.apply now t).1 := by
  rw [StateOp.apply_eq]
  apply guards_stateVisit
  · exact fun node node' => op.found_var now
  · exact fun node => op.missing_var now
  · intro node _ immutable
    cases op with
    | setinfo var val =>
      refine ⟨node.refreshTimestamp now, ?_, ⟨rfl, rfl, rfl, rfl⟩⟩
      have still : (node.refreshTimestamp now).immutable = true := immutable
      simp [StateOp.found, StNode.setinfo, still]
    | delinfo var => exact ⟨node, by simp [StateOp.found, StNode.delinfo, immutable], Survives.refl node⟩
    | delinfoOlderthan var cutoff =>
      exact ⟨node, by simp [StateOp.found, StNode.delinfoOlderthan, immutable], Survives.refl node⟩
    | addrange var min max =>
      by_cases reversed : min > max
      · exact ⟨node, by simp [StateOp.found, reversed], Survives.refl node⟩
      · refine ⟨((node.refreshTimestamp now).addrange min max).1, ?_, ⟨rfl, rfl, rfl, rfl⟩⟩
        simp only [StateOp.found, reversed, if_false]
        rfl
    | setaux var auxs =>
      refine ⟨_, rfl, ?_⟩
      simp only [StNode.setaux]
      split <;> exact ⟨rfl, rfl, rfl, rfl⟩
    | setflags var flag => exact absurd rfl (other var flag)
    | addenum | delenum | delrange => exact ⟨_, rfl, ⟨rfl, rfl, rfl, rfl⟩⟩

theorem guards_assign {ρ : Type} (t : StTree) (var : CString) (change : StNode -> StNode) (result : ρ)
    (keep : ∀ node, (change node).var = node.var)
    (guarded : ∀ node, stateTreeFind t var = some node -> node.immutable = true -> Survives node (change node)) :
    Guards t (stateVisit var (fun node => (some (change node), result)) (none, result) t).1 := by
  apply guards_stateVisit
  · intro node node' kept
    cases kept
    exact keep node
  · intro node made
    cases made
  · exact fun node present immutable => ⟨change node, rfl, guarded node present immutable⟩

theorem guards_setflags (var : CString) (flags : BitVec 32) (d : Dstate) :
    Guards d.dtreeRoot (Dstate.dstateSetflags var flags d).1.dtreeRoot := by
  unfold Dstate.dstateSetflags
  split
  next => exact Guards.refl _
  next found present =>
    split_ifs with immutable same
    · exact Guards.refl _
    · exact Guards.refl _
    · apply guards_assign
      · exact fun _ => rfl
      · intro node present' immutable'
        obtain rfl : found = node := Option.some.inj (present.symm.trans present')
        exact absurd immutable' immutable

theorem guards_addflags (var : CString) (flags : BitVec 32) (d : Dstate) :
    Guards d.dtreeRoot (Dstate.dstateAddflags var flags d).1.dtreeRoot := by
  simp only [Dstate.dstateAddflags]
  split_ifs
  · exact Guards.refl _
  · exact Guards.refl _
  · exact guards_setflags var _ d

theorem guards_delflags (var : CString) (flags : BitVec 32) (d : Dstate) :
    Guards d.dtreeRoot (Dstate.dstateDelflags var flags d).1.dtreeRoot := by
  simp only [Dstate.dstateDelflags]
  split_ifs
  · exact Guards.refl _
  · exact Guards.refl _
  · exact guards_setflags var _ d

-- `dstate_setaux` has no guard of its own: the auxiliary value is not part of the override.
theorem guards_setaux (var : CString) (aux : Int64) (d : Dstate) :
    Guards d.dtreeRoot (Dstate.dstateSetaux var aux d).1.dtreeRoot := by
  unfold Dstate.dstateSetaux
  split
  next => exact Guards.refl _
  next =>
    split_ifs
    · exact Guards.refl _
    · apply guards_assign
      · exact fun _ => rfl
      · exact fun node _ _ => ⟨rfl, rfl, rfl, rfl⟩

theorem guards_apply (op : DstateOp) (now : Int) (d : Dstate) : Guards d.dtreeRoot (op.apply now d).1.dtreeRoot := by
  cases op with
  | setinfo var text => exact guards_stateOp (.setinfo var (snprintf stMaxValueLen text)) (by simp) now _
  | addenum var text => exact guards_stateOp (.addenum var (snprintf stMaxValueLen text)) (by simp) now _
  | delenum var val => exact guards_stateOp (.delenum var val) (by simp) now _
  | delrange var min max => exact guards_stateOp (.delrange var min max) (by simp) now _
  | delinfo var => exact guards_stateOp (.delinfo var) (by simp) now _
  | delinfoOlderthan var cutoff => exact guards_stateOp (.delinfoOlderthan var cutoff) (by simp) now _
  | addrange var min max =>
    have added := guards_stateOp (.addrange var min max) (by simp) now d.dtreeRoot
    simp only [DstateOp.apply, Dstate.dstateAddrange]
    split
    next => exact added.trans (guards_addflags var stFlagNumber { d with dtreeRoot := _ })
    next => exact added
  | setflags var flags => exact guards_setflags var flags d
  | addflags var flags => exact guards_addflags var flags d
  | delflags var flags => exact guards_delflags var flags d
  | setaux var aux => exact guards_setaux var aux d
  | addcmd | delcmd => exact Guards.refl _
  | dataok =>
    simp only [DstateOp.apply, Dstate.dstateDataok]
    split <;> exact Guards.refl _
  | datastale =>
    simp only [DstateOp.apply, Dstate.dstateDatastale]
    split <;> exact Guards.refl _

theorem guards_calls (calls : List (Int × DstateOp)) (d : Dstate) :
    Guards d.dtreeRoot (dstateCalls calls d).dtreeRoot := by
  induction calls generalizing d with
  | nil => exact Guards.refl _
  | cons call rest ih => exact (guards_apply call.2 call.1 d).trans (ih _)

end Guards

section Told

-- The line tells a listener of a new value, of new flags or of the removal of the variable.
def tells (name : CString) : List CString -> Bool
  | keyword :: var :: _ =>
    [cstr "SETINFO", cstr "DELINFO", cstr "SETFLAGS"].any (strcasecmp keyword · == .eq) && strcasecmp var name == .eq
  | _ => false

-- A text of `send_to_all` that starts as a line about something else, whatever comes behind.
inductive Untelling (name : CString) : CString -> Prop where
  | line {text : CString} {words : List CString} (isLine : IsLine 32 512 text words)
      (other : tells name words = false) : Untelling name text
  | started {keyword var tail : CString} (keywordBare : BareWord keyword) (varBare : BareWord var)
      (keywordShort : keyword.length ≤ 512) (varShort : var.length ≤ 512)
      (other : tells name [keyword, var] = false)
      (oneLine : ∀ b ∈ tail.dropLast, b ≠ 10) : Untelling name (keyword ++ [32] ++ (var ++ [32]) ++ tail)

-- The line the parser is in has its first two words, and they tell nothing of the variable.
def OtherBegun (name : CString) (ctx : PconfCtx) : Prop :=
  lineDone ctx = false ∧
    ∃ keyword var more, ctx.arglist = keyword :: var :: more ∧ tells name [keyword, var] = false

structure Hearing (name : CString) (ctx : PconfCtx) : Prop where
  argLimit : ctx.argLimit = 32
  wordlenLimit : ctx.wordlenLimit = 512
  emptied : Emptied ctx
  here : AtLineStart ctx ∨ OtherBegun name ctx

def heard (name : CString) (told : Bool) (words : List CString) : Bool :=
  told || tells name words

variable {name : CString} {ctx : PconfCtx}

theorem heard_readLines (name : CString) (ctx : PconfCtx) (text : CString) :
    (readChars (heard name) (ctx, false) text).2 = (readLines ctx text).any (tells name) := by
  have folded (told : Bool) (lines : List (List CString)) :
      lines.foldl (heard name) told = (told || lines.any (tells name)) := by
    induction lines generalizing told with
    | nil => simp
    | cons words rest ih => rw [List.foldl_cons, ih, heard, List.any_cons, Bool.or_assoc]
  rw [readChars_eq, folded, Bool.false_or]

theorem tells_begun {words : List CString} {keyword var : CString} {more : List CString}
    (starts : keyword :: var :: more <+: words) (other : tells name [keyword, var] = false) :
    tells name words = false := by
  obtain ⟨rest, rfl⟩ := starts
  exact other

theorem emptied_runChars (emptied : Emptied ctx) (text : CString) : Emptied (runChars ctx text) := by
  induction text generalizing ctx with
  | nil => exact emptied
  | cons b rest ih => exact ih (emptied_parseChar ctx _ emptied)

theorem readChars_through (told : Bool) {body : CString} (oneLine : ∀ b ∈ body, b ≠ 10)
    (running : lineDone ctx = false) (rest : CString) :
    readChars (heard name) (ctx, told) (body ++ rest) = readChars (heard name) (runChars ctx body, told) rest ∧
      lineDone (runChars ctx body) = false := by
  induction body generalizing ctx with
  | nil => exact ⟨rfl, running⟩
  | cons b body ih =>
    have notNewline := oneLine b (by simp)
    have step := ih (fun c member => oneLine c (by simp [member])) (parseChar_not_done running notNewline)
    simpa [readChars, pconfChar_more running notNewline] using step

theorem begun_grows {added : Nat} {ctx' : PconfCtx} (begun : OtherBegun name ctx) (grows : Grows added ctx ctx')
    (running : lineDone ctx' = false) : OtherBegun name ctx' := by
  obtain ⟨_, keyword, var, more, words, other⟩ := begun
  obtain ⟨rest, grown⟩ := grows.args
  exact ⟨running, keyword, var, more ++ rest, by rw [<- grown, words]; rfl, other⟩

theorem hearing_grows {added : Nat} {ctx' : PconfCtx} (hearing : Hearing name ctx) (grows : Grows added ctx ctx')
    (emptied : Emptied ctx') (here : AtLineStart ctx' ∨ OtherBegun name ctx') : Hearing name ctx' :=
  ⟨grows.argLimit.trans hearing.argLimit, grows.wordlenLimit.trans hearing.wordlenLimit, emptied, here⟩

theorem readChars_newline (told : Bool) (hearing : Hearing name ctx) (begun : OtherBegun name ctx) (rest : CString) :
    ∃ ctx', Hearing name ctx' ∧
      readChars (heard name) (ctx, told) (10 :: rest) = readChars (heard name) (ctx', told) rest := by
  have grows := grows_parseChar ctx (charToInt 10)
  have emptied := emptied_parseChar ctx (charToInt 10) hearing.emptied
  refine ⟨parseChar ctx (charToInt 10), hearing_grows hearing grows emptied ?_, ?_⟩
  · by_cases done : lineDone (parseChar ctx (charToInt 10)) = true
    · exact .inl ⟨emptied_done emptied done, .inl done⟩
    · exact .inr (begun_grows begun grows (by simpa using done))
  · obtain ⟨running, keyword, var, more, words, other⟩ := begun
    have starts : keyword :: var :: more <+: (parseChar ctx (charToInt 10)).arglist := words ▸ grows.args
    by_cases ended : (parseChar ctx (charToInt 10)).state = .endofline
    · simp [readChars, pconfChar, running, ended, heard, tells_begun starts other]
    · simp [readChars, pconfChar, running, ended, emptied.1]

theorem readChars_begun (told : Bool) (hearing : Hearing name ctx) (begun : OtherBegun name ctx) {text : CString}
    (oneLine : ∀ b ∈ text.dropLast, b ≠ 10) (rest : CString) : ∃ ctx', Hearing name ctx' ∧
      readChars (heard name) (ctx, told) (text ++ rest) = readChars (heard name) (ctx', told) rest := by
  have within {ctx : PconfCtx} (hearing : Hearing name ctx) (begun : OtherBegun name ctx) (body : CString)
      (oneLine : ∀ b ∈ body, b ≠ 10) (rest : CString) :
      readChars (heard name) (ctx, told) (body ++ rest) = readChars (heard name) (runChars ctx body, told) rest ∧
        Hearing name (runChars ctx body) ∧ OtherBegun name (runChars ctx body) := by
    obtain ⟨step, running⟩ := readChars_through told oneLine begun.1 rest
    have begun' := begun_grows begun (grows_runChars ctx body) running
    have emptied := emptied_runChars hearing.emptied body
    exact ⟨step, hearing_grows hearing (grows_runChars ctx body) emptied (.inr begun'), begun'⟩
  rcases List.eq_nil_or_concat text with rfl | ⟨body, last, rfl⟩
  · exact ⟨ctx, hearing, rfl⟩
  · rw [List.concat_eq_append, List.dropLast_concat] at oneLine
    obtain ⟨step, hearing', begun'⟩ := within hearing begun body oneLine (last :: rest)
    rw [List.concat_eq_append, List.append_assoc, List.singleton_append, step]
    by_cases newline : last = 10
    · exact newline ▸ readChars_newline told hearing' begun' rest
    · obtain ⟨step', hearing'', _⟩ := within hearing' begun' [last] (by simpa using newline) rest
      exact ⟨_, hearing'', step'⟩

theorem BareWord.oneLine {word : CString} (bare : BareWord word) : ∀ b ∈ word ++ [32], b ≠ 10 := by
  intro b member
  obtain inside | space := List.mem_append.mp member
  · exact isText_ne_newline (isBare_iff.mp (bare.2.2 b inside)).1
  · rw [List.mem_singleton.mp space]
    decide

theorem Untelling.oneLine {text : CString} (untelling : Untelling name text) : ∀ b ∈ text.dropLast, b ≠ 10 := by
  cases untelling with
  | line isLine _ =>
    obtain ⟨body, rfl, lineOf, _⟩ := isLine
    rw [List.dropLast_concat]
    exact fun b member => isText_ne_newline (lineOf.isText b member)
  | @started keyword var tail keywordBare varBare _ _ _ oneLine =>
    have start : ∀ b ∈ keyword ++ [32] ++ (var ++ [32]), b ≠ 10 := fun b member =>
      (List.mem_append.mp member).elim (keywordBare.oneLine b) (varBare.oneLine b)
    intro b member
    by_cases ends : tail = []
    · rw [ends, List.append_nil] at member
      exact start b (List.dropLast_subset _ member)
    · rw [List.dropLast_append_of_ne_nil ends] at member
      exact (List.mem_append.mp member).elim (start b) (oneLine b)

-- A text is read up to its end, and the line that it starts or goes on with tells nothing.
theorem readChars_untelling (told : Bool) (hearing : Hearing name ctx) {text : CString}
    (untelling : Untelling name text) (rest : CString) : ∃ ctx', Hearing name ctx' ∧
      readChars (heard name) (ctx, told) (text ++ rest) = readChars (heard name) (ctx', told) rest := by
  obtain start | begun := hearing.here
  · cases untelling with
    | @line _ words isLine other =>
      rw [<- hearing.argLimit, <- hearing.wordlenLimit] at isLine
      have hearing' : Hearing name ⟨.endofline, words, [], ctx.argLimit, ctx.wordlenLimit⟩ :=
        ⟨hearing.argLimit, hearing.wordlenLimit, ⟨by simp, fun _ => rfl⟩, .inl ⟨rfl, .inl rfl⟩⟩
      refine ⟨_, hearing', (readChars_line (heard name) start told isLine rest).trans ?_⟩
      rw [heard, other, Bool.or_false]
    | @started keyword var tail keywordBare varBare keywordShort varShort other oneLine =>
      let fresh : PconfCtx := ⟨.findwordstart, [], [], 32, 512⟩
      have first : runChars fresh (keyword ++ [32]) = ⟨.findwordstart, [keyword], [], 32, 512⟩ := by
        rw [run_token_space [] 32 512 keywordBare.token]
        simp [addArg, clip, List.take_of_length_le keywordShort]
      have second : runChars fresh (keyword ++ [32] ++ (var ++ [32])) =
          ⟨.findwordstart, [keyword, var], [], 32, 512⟩ := by
        rw [runChars_append, first, run_token_space [keyword] 32 512 varBare.token]
        simp [addArg, clip, List.take_of_length_le varShort]
      have words : ∀ b ∈ keyword ++ [32] ++ (var ++ [32]), b ≠ 10 := fun b member =>
        (List.mem_append.mp member).elim (keywordBare.oneLine b) (varBare.oneLine b)
      have more : keyword ++ [32] ++ (var ++ [32]) ++ tail ++ rest ≠ [] := by simp
      have reset := readChars_startLine (heard name) start told more
      rw [hearing.argLimit, hearing.wordlenLimit, List.append_assoc] at reset
      rw [List.append_assoc, reset, (readChars_through told words rfl (tail ++ rest)).1, second]
      have begun : OtherBegun name ⟨.findwordstart, [keyword, var], [], 32, 512⟩ := ⟨rfl, keyword, var, [], rfl, other⟩
      exact readChars_begun told ⟨rfl, rfl, ⟨by simp, fun _ => rfl⟩, .inr begun⟩ begun oneLine rest
  · exact readChars_begun told hearing begun untelling.oneLine rest

theorem readChars_texts (told : Bool) (hearing : Hearing name ctx) {texts : List CString}
    (untelling : ∀ text ∈ texts, Untelling name text) (rest : CString) : ∃ ctx', Hearing name ctx' ∧
      readChars (heard name) (ctx, told) (texts.flatten ++ rest) = readChars (heard name) (ctx', told) rest := by
  induction texts generalizing ctx with
  | nil => exact ⟨ctx, hearing, rfl⟩
  | cons text texts ih =>
    obtain ⟨ctx', hearing', step⟩ := readChars_untelling told hearing (untelling text (by simp)) (texts.flatten ++ rest)
    obtain ⟨ctx'', hearing'', steps⟩ := ih hearing' fun other member => untelling other (by simp [member])
    refine ⟨ctx'', hearing'', ?_⟩
    rw [List.flatten_cons, List.append_assoc, step, steps]

end Told

section Broadcast

-- A word that the parser takes as it is, with room behind it in the buffer of `send_to_all`.
def PlainName (name : CString) : Prop :=
  BareWord name ∧ name.length ≤ 500

instance (name : CString) : Decidable (PlainName name) :=
  inferInstanceAs (Decidable (_ ∧ _))

-- What the call is given names one variable or command, and no newline gets into the value it may send.
def DstateOp.Legible : DstateOp -> Prop
  | setinfo var text | addenum var text => PlainName var ∧ 10 ∉ snprintf stMaxValueLen text
  | delenum var val => PlainName var ∧ 10 ∉ val
  | addrange name _ _ | delrange name _ _ | setflags name _ | addflags name _ | delflags name _ | setaux name _
  | delinfo name | delinfoOlderthan name _ | addcmd name | delcmd name => PlainName name
  | dataok | datastale => True

variable {name var : CString} {d : Dstate} {node : StNode}

theorem tells_keyword {keyword : CString}
    (other : [cstr "SETINFO", cstr "DELINFO", cstr "SETFLAGS"].any (strcasecmp keyword · == .eq) = false)
    (var : CString) : tells name [keyword, var] = false := by
  rw [tells, other, Bool.false_and]

theorem tells_var (keyword : CString) (other : strcasecmp var name ≠ .eq) : tells name [keyword, var] = false := by
  simp [tells, other]

theorem untelling_started {keyword tail : CString} (keywordBare : BareWord keyword) (short : keyword.length ≤ 8)
    (plain : PlainName var) (other : tells name [keyword, var] = false) (oneLine : ∀ b ∈ tail.dropLast, b ≠ 10) :
    ∀ text ∈ sockLine (keyword ++ [32] ++ (var ++ [32]) ++ tail), Untelling name text := by
  have varLength := plain.2
  intro text member
  have start : (keyword ++ [32] ++ (var ++ [32])).length ≤ stSockBufLen - 1 := by
    simp only [List.length_append, List.length_singleton, stSockBufLen]
    omega
  rw [sockLine, if_neg (by simp), List.mem_singleton, snprintf, List.take_append,
    List.take_of_length_le start] at member
  subst member
  refine .started keywordBare plain.1 (by omega) (by omega) other ?_
  intro b member
  apply oneLine b
  rw [List.dropLast_eq_take, List.length_take, List.take_take] at member
  rw [List.dropLast_eq_take]
  exact List.take_subset_take_left tail (by omega) member

theorem untelling_word {keyword : CString} (keywordBare : BareWord keyword) (short : keyword.length ≤ 8)
    (plain : PlainName var) (other : tells name [keyword, var] = false) :
    ∀ text ∈ sockLine (formatWord keyword var), Untelling name text := by
  have varLength := plain.2
  intro text member
  have fits : (formatWord keyword var).length < stSockBufLen := by
    simp only [formatWord, List.length_append, stSockBufLen, show (cstr " ").length = 1 from rfl,
      show (cstr "\n").length = 1 from rfl]
    omega
  rw [sockLine_fits (by simp [formatWord, show cstr " " = [32] from rfl]) fits, List.mem_singleton] at member
  subst member
  refine .line ⟨_, ?_, .ofToken keywordBare.token (.last plain.1.token), by simp, ?_⟩ other
  · simp [formatWord, show cstr " " = [32] from rfl, show cstr "\n" = [10] from rfl]
  · simp only [List.forall_mem_cons, List.not_mem_nil, false_imp_iff, implies_true, and_true]
    omega

theorem untelling_alone {word : CString} (bare : BareWord word) (short : word.length ≤ 500) :
    ∀ text ∈ sockLine (word ++ [10]), Untelling name text := by
  intro text member
  have fits : (word ++ [10]).length < stSockBufLen := by
    simp only [List.length_append, List.length_singleton, stSockBufLen]
    omega
  rw [sockLine_fits (by simp) fits, List.mem_singleton] at member
  subst member
  refine .line ⟨word, rfl, .last bare.token, by simp, ?_⟩ rfl
  simp only [List.mem_singleton, forall_eq]
  omega

theorem untelling_value {keyword value : CString} (keywordBare : BareWord keyword) (short : keyword.length ≤ 8)
    (plain : PlainName var) (other : tells name [keyword, var] = false) (oneLine : 10 ∉ value) :
    ∀ text ∈ sockLine (formatValue keyword var value), Untelling name text := by
  have shape : formatValue keyword var value = keyword ++ [32] ++ (var ++ [32]) ++ ([34] ++ value ++ [34] ++ [10]) := by
    simp [formatValue, show cstr " " = [32] from rfl, show cstr " \"" = [32, 34] from rfl,
      show cstr "\"\n" = [34, 10] from rfl]
  rw [shape]
  apply untelling_started keywordBare short plain other
  rw [List.dropLast_concat]
  intro b member newline
  subst newline
  simp [oneLine] at member

theorem printInt_oneLine (i : Int) : 10 ∉ printInt i := fun member =>
  isText_ne_newline (isBare_iff.mp ((bareWord_printInt i).2.2 10 member)).1 rfl

theorem untelling_range {keyword : CString} (keywordBare : BareWord keyword) (short : keyword.length ≤ 8)
    (plain : PlainName var) (other : tells name [keyword, var] = false) (min max : Int32) :
    ∀ text ∈ sockLine (formatRange keyword var min max), Untelling name text := by
  have shape : formatRange keyword var min max =
      keyword ++ [32] ++ (var ++ [32]) ++ (printInt min.toInt ++ [32] ++ printInt max.toInt ++ [10]) := by
    simp [formatRange, show cstr " " = [32] from rfl, show cstr "\n" = [10] from rfl]
  rw [shape]
  apply untelling_started keywordBare short plain other
  rw [List.dropLast_concat]
  intro b member newline
  subst newline
  simp [printInt_oneLine] at member

theorem untelling_aux (plain : PlainName var) (aux : Int64) :
    ∀ text ∈ sockLine (formatAux var aux), Untelling name text := by
  have shape : formatAux var aux = cstr "SETAUX" ++ [32] ++ (var ++ [32]) ++ (printInt aux.toInt ++ [10]) := by
    simp [formatAux, show cstr "SETAUX " = cstr "SETAUX" ++ [32] from rfl, show cstr " " = [32] from rfl,
      show cstr "\n" = [10] from rfl]
  rw [shape]
  apply untelling_started (by decide) (by decide) plain (tells_keyword (by decide) var)
  rw [List.dropLast_concat]
  intro b member newline
  subst newline
  exact printInt_oneLine _ member

def NameListed (var flist : CString) : Prop :=
  ∃ tail, flist = var ++ tail ∧ (tail = [] ∨ ∃ more, tail = 32 :: more) ∧ 10 ∉ tail

theorem nameListed_flagWord {flags flag : BitVec 32} {word flist : CString} (listed : NameListed var flist)
    (oneLine : 10 ∉ word) : NameListed var (flagWord flags flag (32 :: word) flist) := by
  obtain ⟨tail, rfl, starts, clean⟩ := listed
  unfold flagWord
  split_ifs
  · unfold snprintfcat
    split_ifs
    · exact ⟨tail, rfl, starts, clean⟩
    · refine ⟨tail ++ _, List.append_assoc .., ?_, ?_⟩
      · obtain rfl | ⟨more, rfl⟩ := starts
        · cases smallbuf - 1 - (var ++ []).length - 1 <;> simp
        · exact .inr ⟨_, rfl⟩
      · intro member
        obtain before | added := List.mem_append.mp member
        · exact clean before
        · simpa [oneLine] using List.take_subset _ _ added
  · exact ⟨tail, rfl, starts, clean⟩

theorem untelling_flags (plain : PlainName var) (other : strcasecmp var name ≠ .eq) (flags : BitVec 32) :
    ∀ text ∈ sockLine (cstr "SETFLAGS " ++ flagList var flags ++ cstr "\n"), Untelling name text := by
  have varLength := plain.2
  have unnamed : tells name [cstr "SETFLAGS", var] = false := tells_var _ other
  have start : NameListed var (snprintf smallbuf var) :=
    ⟨[], by rw [snprintf_fits (by simp only [smallbuf]; omega), List.append_nil], .inl rfl, by simp⟩
  have listed : NameListed var (flagList var flags) :=
    nameListed_flagWord (nameListed_flagWord (nameListed_flagWord start (by decide)) (by decide)) (by decide)
  obtain ⟨tail, flist, none_ | ⟨more, rfl⟩, clean⟩ := listed
  · have shape : cstr "SETFLAGS " ++ flagList var flags ++ cstr "\n" = formatWord (cstr "SETFLAGS") var := by
      rw [flist, none_, List.append_nil]
      rfl
    rw [shape]
    exact untelling_word (by decide) (by decide) plain unnamed
  · have shape : cstr "SETFLAGS " ++ flagList var flags ++ cstr "\n" =
        cstr "SETFLAGS" ++ [32] ++ (var ++ [32]) ++ (more ++ [10]) := by
      rw [flist]
      simp [show cstr "SETFLAGS " = cstr "SETFLAGS" ++ [32] from rfl, show cstr "\n" = [10] from rfl]
    rw [shape]
    apply untelling_started (by decide) (by decide) plain unnamed
    rw [List.dropLast_concat]
    intro b member newline
    subst newline
    simp [member] at clean

theorem untelling_unless {P : Prop} [Decidable P] {texts : List CString}
    (untelling : P -> ∀ text ∈ texts, Untelling name text) : ∀ text ∈ if P then texts else [], Untelling name text := by
  split
  next sent => exact untelling sent
  next => simp

-- The immutable node is the one a call finds only if the call names it.
theorem other_stateOp (op : StateOp) {t : StTree} (present : stateTreeFind t name = some node) (now : Int)
    (same : (op.found now node).2 = 0) (changed : (op.apply now t).2 = 1) : strcasecmp op.var name ≠ .eq := by
  intro named
  rw [<- stateTreeFind_congr named] at present
  rw [StateOp.apply_snd, present] at changed
  change (op.found now node).2 = 1 at changed
  omega

theorem untelling_setflags (present : stateTreeFind d.dtreeRoot name = some node) (immutable : node.immutable = true)
    (plain : PlainName var) (flags : BitVec 32) :
    ∀ text ∈ (Dstate.dstateSetflags var flags d).2.1, Untelling name text := by
  unfold Dstate.dstateSetflags
  split
  next => simp
  next found there =>
    split_ifs with guarded
    · simp
    · simp
    · refine untelling_flags plain (fun named => ?_) flags
      rw [stateTreeFind_congr named, present] at there
      cases there
      exact guarded immutable

theorem untelling_addflags (present : stateTreeFind d.dtreeRoot name = some node) (immutable : node.immutable = true)
    (plain : PlainName var) (flags : BitVec 32) :
    ∀ text ∈ (Dstate.dstateAddflags var flags d).2.1, Untelling name text := by
  simp only [Dstate.dstateAddflags]
  split_ifs
  · simp
  · simp
  · exact untelling_setflags present immutable plain _

theorem untelling_delflags (present : stateTreeFind d.dtreeRoot name = some node) (immutable : node.immutable = true)
    (plain : PlainName var) (flags : BitVec 32) :
    ∀ text ∈ (Dstate.dstateDelflags var flags d).2.1, Untelling name text := by
  simp only [Dstate.dstateDelflags]
  split_ifs
  · simp
  · simp
  · exact untelling_setflags present immutable plain _

theorem untelling_apply {op : DstateOp} (legible : op.Legible) (now : Int) (ordered : Ordered d.dtreeRoot)
    (present : stateTreeFind d.dtreeRoot name = some node) (immutable : node.immutable = true) :
    ∀ text ∈ (op.apply now d).2, Untelling name text := by
  cases op with
  | setinfo var text =>
    refine untelling_unless fun changed => ?_
    have other : strcasecmp var name ≠ .eq := by
      refine other_stateOp (.setinfo var (snprintf stMaxValueLen text)) present now ?_ changed
      have still : (node.refreshTimestamp now).immutable = true := immutable
      simp only [StateOp.found, StNode.setinfo, still, if_true]
      split <;> rfl
    exact untelling_value (by decide) (by decide) legible.1 (tells_var _ other) legible.2
  | delinfo var =>
    refine untelling_unless fun changed => ?_
    have other : strcasecmp var name ≠ .eq :=
      other_stateOp (.delinfo var) present now (by simp [StateOp.found, StNode.delinfo, immutable]) changed
    exact untelling_word (by decide) (by decide) legible (tells_var _ other)
  | delinfoOlderthan var cutoff =>
    refine untelling_unless fun changed => ?_
    have other : strcasecmp var name ≠ .eq := other_stateOp (.delinfoOlderthan var cutoff) present now
        (by simp [StateOp.found, StNode.delinfoOlderthan, immutable]) changed
    exact untelling_word (by decide) (by decide) legible (tells_var _ other)
  | addenum var text =>
    exact untelling_unless fun _ =>
      untelling_value (by decide) (by decide) legible.1 (tells_keyword (by decide) var) legible.2
  | delenum var val =>
    exact untelling_unless fun _ =>
      untelling_value (by decide) (by decide) legible.1 (tells_keyword (by decide) var) legible.2
  | delrange var min max =>
    exact untelling_unless fun _ =>
      untelling_range (by decide) (by decide) legible (tells_keyword (by decide) var) min max
  | addrange var min max =>
    obtain ⟨node', present', survives⟩ :=
      (guards_stateOp (.addrange var min max) (by simp) now d.dtreeRoot ordered).2 name node present immutable
    let added := { d with dtreeRoot := (stateAddrange now var min max d.dtreeRoot).1 }
    have flags := @untelling_addflags name var added node' present' (survives.immutable.trans immutable) legible stFlagNumber
    have range := untelling_range (by decide) (by decide) legible
      (@tells_keyword name (cstr "ADDRANGE") (by decide) var) min max
    simp only [DstateOp.apply, Dstate.dstateAddrange]
    split
    next =>
      intro text member
      exact (List.mem_append.mp member).elim (range text) (flags text)
    next => simp
  | setflags var flags => exact untelling_setflags present immutable legible flags
  | addflags var flags => exact untelling_addflags present immutable legible flags
  | delflags var flags => exact untelling_delflags present immutable legible flags
  | setaux var aux =>
    simp only [DstateOp.apply, Dstate.dstateSetaux]
    split
    next => simp
    next =>
      split_ifs
      · simp
      · exact untelling_aux legible aux
  | addcmd cmd | delcmd cmd =>
    exact untelling_unless fun _ => untelling_word (by decide) (by decide) legible (tells_keyword (by decide) cmd)
  | dataok =>
    simp only [DstateOp.apply, Dstate.dstateDataok]
    split
    · exact @untelling_alone name (cstr "DATAOK") (by decide) (by decide)
    · simp
  | datastale =>
    simp only [DstateOp.apply, Dstate.dstateDatastale]
    split
    · simp
    · exact @untelling_alone name (cstr "DATASTALE") (by decide) (by decide)

def broadcasts : List (Int × DstateOp) -> Dstate -> List CString
  | [], _ => []
  | (now, op) :: rest, d => (op.apply now d).2 ++ broadcasts rest (op.apply now d).1

def Legibly : List (Int × DstateOp) -> Dstate -> Prop
  | [], _ => True
  | (now, op) :: rest, d => ((op.apply now d).2 ≠ [] -> op.Legible) ∧ Legibly rest (op.apply now d).1

theorem readChars_calls {ctx : PconfCtx} (hearing : Hearing name ctx) (calls : List (Int × DstateOp))
    (ordered : Ordered d.dtreeRoot) (present : stateTreeFind d.dtreeRoot name = some node)
    (immutable : node.immutable = true) (legibly : Legibly calls d) (told : Bool) :
    (readChars (heard name) (ctx, told) (broadcasts calls d).flatten).2 = told := by
  induction calls generalizing ctx d node with
  | nil => rfl
  | cons call rest ih =>
    obtain ⟨now, op⟩ := call
    obtain ⟨legible, later⟩ := legibly
    obtain ⟨ordered', kept⟩ := guards_apply op now d ordered
    obtain ⟨node', present', survives⟩ := kept name node present immutable
    have untelling : ∀ text ∈ (op.apply now d).2, Untelling name text := fun text member =>
      untelling_apply (legible (List.ne_nil_of_mem member)) now ordered present immutable text member
    obtain ⟨ctx', hearing', step⟩ := readChars_texts told hearing untelling (broadcasts rest (op.apply now d).1).flatten
    rw [broadcasts, List.flatten_append, step]
    exact ih hearing' ordered' present' (survives.immutable.trans immutable) later

theorem hearing_init (name : CString) : Hearing name pconfInit :=
  ⟨rfl, rfl, ⟨by decide, fun _ => rfl⟩, .inl (atLineStart_init 32 512)⟩

end Broadcast

theorem dstateCalls_append (before after : List (Int × DstateOp)) (d : Dstate) :
    dstateCalls (before ++ after) d = dstateCalls after (dstateCalls before d) := List.foldl_append

-- A variable that is immutable at any moment of a driver's run stays as it is, and while no newline gets
-- into what is sent, a listener reads no line with a new value, new flags or the removal of it.
theorem overrides_survive (before after : List (Int × DstateOp)) {name : CString} {node : StNode}
    (present : stateTreeFind (dstateCalls before Dstate.empty).dtreeRoot name = some node)
    (immutable : node.immutable = true) :
    (∃ node', stateTreeFind (dstateCalls (before ++ after) Dstate.empty).dtreeRoot name = some node' ∧
      node'.immutable = true ∧ node'.raw = node.raw ∧ node'.val = node.val ∧ node'.flags = node.flags) ∧
    (Legibly after (dstateCalls before Dstate.empty) ->
      ∀ words ∈ readLines pconfInit (broadcasts after (dstateCalls before Dstate.empty)).flatten,
        tells name words = false) := by
  have start : Ordered Dstate.empty.dtreeRoot := trivial
  have ordered := (guards_calls before Dstate.empty start).1
  constructor
  · obtain ⟨node', present', survives⟩ := (guards_calls after _ ordered).2 name node present immutable
    rw [<- dstateCalls_append] at present'
    exact ⟨node', present', survives.immutable.trans immutable, survives.raw, survives.val, survives.flags⟩
  · intro legibly words member
    have quiet := readChars_calls (hearing_init name) after ordered present immutable legibly false
    rw [heard_readLines, List.any_eq_false] at quiet
    simpa using quiet words member

def overridden : List (Int × DstateOp) :=
  [(1, .setinfo (cstr "ups.id") (cstr "x")), (1, .setflags (cstr "ups.id") (stFlagRw ||| stFlagImmutable))]

def assaulted : List (Int × DstateOp) :=
  [(2, .delinfo (cstr "UPS.ID")), (3, .setinfo (cstr "ups.id") (cstr "y")),
    (4, .setinfo (cstr "ups.model") (cstr "y\"z\\"))]

theorem overridden_present : stateTreeFind (dstateCalls overridden Dstate.empty).dtreeRoot (cstr "ups.id") =
    some { StNode.fresh 1 (cstr "ups.id") (cstr "x") with flags := 9 } := by
  decide

theorem assaulted_legibly : Legibly assaulted (dstateCalls overridden Dstate.empty) :=
  ⟨fun sent => absurd (by decide) sent, fun sent => absurd (by decide) sent,
    fun _ => ⟨by decide, by decide⟩, trivial⟩

theorem overrides_survive_delete :
    (∃ node', stateTreeFind (dstateCalls (overridden ++ assaulted) Dstate.empty).dtreeRoot (cstr "ups.id") =
        some node' ∧ node'.immutable = true ∧ node'.raw = cstr "x" ∧ node'.val = cstr "x" ∧ node'.flags = 9) ∧
    ∀ words ∈ readLines pconfInit (broadcasts assaulted (dstateCalls overridden Dstate.empty)).flatten,
      tells (cstr "ups.id") words = false := by
  obtain ⟨survives, untold⟩ := overrides_survive overridden assaulted overridden_present (by decide)
  exact ⟨survives, untold assaulted_legibly⟩

-- The value of another variable, sent as it is, ends its line and starts one of its own.
def smuggled : List (Int × DstateOp) :=
  [(2, .setinfo (cstr "ups.model") (cstr "a\"\nSETINFO ups.id \"y"))]

theorem override_told : ∃ before after name node,
    stateTreeFind (dstateCalls before Dstate.empty).dtreeRoot name = some node ∧ node.immutable = true ∧
      ∃ words ∈ readLines pconfInit (broadcasts after (dstateCalls before Dstate.empty)).flatten,
        tells name words = true := ⟨overridden, smuggled, cstr "ups.id", _, overridden_present, by decide,
    [cstr "SETINFO", cstr "ups.id", cstr "y"], by decide, by decide⟩

end Nut
