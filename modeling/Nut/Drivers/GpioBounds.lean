import Nut.Drivers.GpioStates

set_option autoImplicit false

namespace Nut.Gpio

def usedLines (rules : List Rule) : List Int :=
  (rules.flatMap fun rule => rule.terms.map fun term => lineNumber term.number).filter (0 ≤ ·)

def highestLine (rules : List Rule) : Int :=
  (usedLines rules).foldl max 0

-- A number below all commands may be what the renumbering makes of a line.
def answers (rules : List Rule) (number : Nat) : Option Int :=
  if 0 ≤ lineNumber number then some (lineNumber number)
  else if lineNumber number + (highestLine rules - cmdLast + 1) ∈ usedLines rules then
    some (lineNumber number + (highestLine rules - cmdLast + 1))
  else none

section Guarding

variable (line : Nat -> Option Int) (on : Int -> Bool)

def Term.holds (term : Term) : Bool :=
  (line term.number).any fun i => on i != term.negated

def Guarded : List (List Term) -> Prop
  | [] => True
  | conjunction :: rest =>
    (∀ term ∈ conjunction, (line term.number).isSome = true) ∧ (conjunction.all (Term.holds line on) = false -> Guarded rest)

end Guarding

structure StaysInBounds (rulesString : CString) : Prop where
  reading : ∀ fault, getUpsRules rulesString ≠ .error (.memory fault)
  evaluating : ∀ upsfd, getUpsRules rulesString = .ok upsfd -> ∀ rule ∈ upsfd.rules, ∀ states : List Int,
    states.length = upsfd.upsLines.length -> ∃ value, calcRuleStates states rule.cRules rule.cRules.length 0 = .ok value

section Renumbering

theorem collect_highest (items : List Int) : (items.foldl collectLine ([], 0)).2 = (items.filter (0 ≤ ·)).foldl max 0 := by
  induction items using List.reverseRecOn with
  | nil => rfl
  | append_singleton items item ih =>
    obtain ⟨lines, bounded⟩ := collect_lines items
    rw [List.foldl_append, List.filter_append, List.foldl_append, <- ih]
    simp only [List.foldl_cons, List.foldl_nil, collectLine]
    by_cases before : item ∈ (items.foldl collectLine ([], 0)).1
    · have positive : 0 ≤ item := by
        rw [lines, List.mem_eraseDups, List.mem_filter] at before
        simpa using before.2
      have below := bounded item before
      rw [if_pos before]
      simp only [List.filter_cons, positive, decide_true, if_true, List.filter_nil, List.foldl_cons, List.foldl_nil]
      omega
    · rw [if_neg before]
      by_cases positive : item ≥ 0
      · rw [if_pos positive]
        simp only [List.filter_cons, decide_eq_true positive, if_true, List.filter_nil, List.foldl_cons, List.foldl_nil]
        split <;> omega
      · rw [if_neg positive]
        simp [positive]

theorem rules_items (rules : List Rule) :
    ((rules.map (Rule.compiled lineNumber)).flatMap RuleInt.cRules).filter (0 ≤ ·) = usedLines rules := by
  have term (term : Term) : (term.items lineNumber).filter (0 ≤ ·) = [lineNumber term.number].filter (0 ≤ ·) := by
    unfold Term.items
    cases term.negated
    · rfl
    · rfl
  have conn (conn : Conn) : ¬ 0 ≤ conn.item := by
    cases conn <;> decide
  have more (more : List (Conn × Term)) : (moreItems lineNumber more).filter (0 ≤ ·) =
      (more.map fun entry => lineNumber entry.2.number).filter (0 ≤ ·) := by
    induction more with
    | nil => rfl
    | cons entry more ih =>
      rw [moreItems, List.flatMap_cons, <- moreItems, List.cons_append, List.filter_cons, if_neg (by simpa using conn entry.1),
        List.filter_append, term, ih, <- List.filter_append]
      rfl
  unfold usedLines
  induction rules with
  | nil => rfl
  | cons rule rules ih =>
    rw [List.map_cons, List.flatMap_cons, List.filter_append, ih, List.flatMap_cons, List.filter_append, Rule.compiled,
      Rule.items, List.filter_append, term, more, <- List.filter_append, Rule.terms, List.map_cons, List.map_map]
    rfl

theorem transform_answers {rules : List Rule} {lines : List Int} (same : ∀ i, i ∈ lines ↔ i ∈ usedLines rules)
    (bounded : ∀ line ∈ lines, line ≤ highestLine rules) {number : Nat} (own : 0 ≤ lineNumber number -> lineNumber number ∈ lines) :
    (∀ i ∈ answers rules number, i ∈ lines ∧
        transformItem lines (highestLine rules - cmdLast + 1) (lineNumber number) = lines.idxOf i) ∧
      (answers rules number = none -> transformItem lines (highestLine rules - cmdLast + 1) (lineNumber number) < 0) := by
  unfold answers
  by_cases positive : 0 ≤ lineNumber number
  · rw [if_pos positive]
    refine ⟨fun i isLine => ?_, fun lineless => by cases lineless⟩
    obtain rfl := Option.some.inj isLine
    exact ⟨own positive, transform_line bounded positive (own positive)⟩
  · have shifted : lineNumber number =
        lineNumber number + (highestLine rules - cmdLast + 1) - (highestLine rules - cmdLast + 1) := by omega
    rw [if_neg positive]
    by_cases member : lineNumber number + (highestLine rules - cmdLast + 1) ∈ usedLines rules
    · rw [if_pos member]
      refine ⟨fun i isLine => ?_, fun lineless => by cases lineless⟩
      obtain rfl := Option.some.inj isLine
      refine ⟨(same _).mpr member, ?_⟩
      rw [transformItem, if_neg positive, shifted]
      simpa using transform_found bounded ((same _).mpr member)
    · rw [if_neg member]
      refine ⟨(fun i isLine => by cases isLine), fun _ => ?_⟩
      have absent := zipIdx_others fun inside => member ((same _).mp inside)
      rw [transformItem, if_neg positive, shifted, transform_skips absent]
      omega

end Renumbering

section Evaluating

variable {states : List Int} {index : Nat -> Int} {line : Nat -> Option Int} {on : Int -> Bool}

structure Reads (states : List Int) (index : Nat -> Int) (line : Nat -> Option Int) (on : Int -> Bool) (term : Term) : Prop where
  some_ : ∀ i ∈ line term.number, 0 ≤ index term.number ∧
    ∃ state, lineState states (index term.number) = .ok state ∧ on i = decide (state ≠ 0)
  none_ : line term.number = none -> index term.number < 0

theorem lineState_negative {item value : Int} (negative : item < 0) : lineState states item ≠ .ok value := by
  rw [lineState, if_pos negative]
  intro same
  cases same

theorem readAt_operator {before : List Int} {more : List (Conn × Term)} {item : Int}
    (read : readAt (before ++ moreItems index more) before.length = .ok item) : item < 0 := by
  cases more with
  | nil => simp [readAt, moreItems] at read
  | cons entry more =>
    obtain ⟨conn, term⟩ := entry
    rw [moreItems, List.flatMap_cons, List.cons_append, readAt_behind] at read
    cases read
    cases conn
    · exact (by decide : cmdAnd < 0)
    · exact (by decide : cmdOr < 0)

theorem calcRuleStates_reads {before items : List Int} {term : Term} {more : List (Conn × Term)}
    (reads : Reads states index line on term) (are : items = before ++ term.items index ++ moreItems index more) :
    (line term.number = none -> ∀ value, calcRuleStates states items items.length before.length ≠ .ok value) ∧
      ((line term.number).isSome = true -> ∃ ruleVal, decide (ruleVal ≠ 0) = term.holds line on ∧
        calcRuleStates states items items.length before.length =
          calcRight states items items.length (before ++ term.items index).length ruleVal) := by
  rw [calcRuleStates]
  unfold Term.items at are ⊢
  unfold Term.holds
  cases negated : term.negated with
  | false =>
    simp only [negated, Bool.false_eq_true, if_false] at are ⊢
    have inside : before.length < items.length := by simp [are]
    have item : readAt items before.length = .ok (index term.number) := by
      rw [are, List.nil_append, List.append_assoc, List.singleton_append, readAt_behind]
    have behind : (before ++ ([] ++ [index term.number])).length = before.length + 1 := by simp
    rw [if_pos inside, item, ok_bind]
    constructor
    · intro lineless value evaluated
      rw [if_neg (Int.not_le.mpr (reads.none_ lineless))] at evaluated
      obtain ⟨operator, read, evaluated⟩ := bind_eq_ok.mp evaluated
      obtain ⟨state, state_, -⟩ := bind_eq_ok.mp evaluated
      rw [<- behind, are] at read
      exact lineState_negative (readAt_operator read) state_
    · intro isLine
      obtain ⟨i, isLine⟩ := Option.isSome_iff_exists.mp isLine
      obtain ⟨positive, state, state_, on_⟩ := reads.some_ i isLine
      refine ⟨state, ?_, ?_⟩
      · rw [isLine, Option.any_some, on_, Bool.bne_false]
      · rw [if_pos positive, state_, ok_bind, behind]
  | true =>
    simp only [negated, if_true] at are ⊢
    have inside : before.length < items.length := by simp [are]
    have command : readAt items before.length = .ok cmdNot := by
      rw [are, List.append_assoc, List.append_assoc, List.singleton_append, readAt_behind]
    have item : readAt items (before.length + 1) = .ok (index term.number) := by simp [are, readAt]
    have behind : (before ++ ([cmdNot] ++ [index term.number])).length = before.length + 2 := by simp
    rw [if_pos inside, command, ok_bind, if_neg (by decide), item, ok_bind]
    constructor
    · intro lineless value evaluated
      obtain ⟨state, state_, -⟩ := bind_eq_ok.mp evaluated
      exact lineState_negative (reads.none_ lineless) state_
    · intro isLine
      obtain ⟨i, isLine⟩ := Option.isSome_iff_exists.mp isLine
      obtain ⟨-, state, state_, on_⟩ := reads.some_ i isLine
      refine ⟨truth (state = 0), ?_, ?_⟩
      · rw [isLine, Option.any_some, on_]
        by_cases zero : state = 0 <;> simp [zero, truth]
      · rw [state_, ok_bind, behind]

theorem alternatives_first (conjunction : List Term) (more : List (Conn × Term)) :
    ∃ others rest, alternatives conjunction more = (conjunction ++ others) :: rest := by
  induction more generalizing conjunction with
  | nil => exact ⟨[], [], by rw [alternatives, List.append_nil]⟩
  | cons entry more ih =>
    obtain ⟨conn, term⟩ := entry
    cases conn with
    | and =>
      obtain ⟨others, rest, same⟩ := ih (conjunction ++ [term])
      exact ⟨term :: others, rest, by rw [alternatives, same, List.append_assoc]; rfl⟩
    | or => exact ⟨[], alternatives [term] more, by rw [alternatives, List.append_nil]⟩

theorem guarded_first {conjunction : List Term} {more : List (Conn × Term)}
    (guarded : Guarded line on (alternatives conjunction more)) : ∀ term ∈ conjunction, (line term.number).isSome = true := by
  obtain ⟨others, rest, same⟩ := alternatives_first conjunction more
  rw [same] at guarded
  exact fun term member => guarded.1 term (List.mem_append_left _ member)

theorem calcRight_and {before items : List Int} {term : Term} {more : List (Conn × Term)} (ruleVal : Int)
    (reads : Reads states index line on term)
    (are : items = before ++ [cmdAnd] ++ term.items index ++ moreItems index more) :
    (line term.number = none -> ∀ value, calcRight states items items.length before.length ruleVal ≠ .ok value) ∧
      ((line term.number).isSome = true -> ∃ next, decide (next ≠ 0) = (decide (ruleVal ≠ 0) && term.holds line on) ∧
        calcRight states items items.length before.length ruleVal =
          calcRight states items items.length (before ++ [cmdAnd] ++ term.items index).length next) := by
  rw [calcRight]
  unfold Term.items at are ⊢
  unfold Term.holds
  have inside : before.length < items.length := by simp [are]
  have command : readAt items before.length = .ok cmdAnd := by simp [are, readAt]
  rw [if_pos inside, command, ok_bind, if_neg (by decide)]
  cases negated : term.negated with
  | false =>
    simp only [negated, Bool.false_eq_true, if_false] at are ⊢
    have item : readAt items (before.length + 1) = .ok (index term.number) := by simp [are, readAt]
    have behind : (before ++ [cmdAnd] ++ ([] ++ [index term.number])).length = before.length + 2 := by simp
    rw [item, ok_bind]
    constructor
    · intro lineless value evaluated
      split at evaluated
      · obtain ⟨operator, read, evaluated⟩ := bind_eq_ok.mp evaluated
        obtain ⟨state, state_, -⟩ := bind_eq_ok.mp evaluated
        rw [<- behind, are] at read
        exact lineState_negative (readAt_operator read) state_
      · obtain ⟨state, state_, -⟩ := bind_eq_ok.mp evaluated
        exact lineState_negative (reads.none_ lineless) state_
    · intro isLine
      obtain ⟨i, isLine⟩ := Option.isSome_iff_exists.mp isLine
      obtain ⟨positive, state, state_, on_⟩ := reads.some_ i isLine
      refine ⟨truth (ruleVal ≠ 0 ∧ state ≠ 0), ?_, ?_⟩
      · rw [isLine, Option.any_some, on_, Bool.bne_false]
        by_cases zero : state = 0 <;> by_cases before_ : ruleVal = 0 <;> simp [zero, before_, truth]
      · rw [if_neg (by simp only [cmdNot]; omega), state_, ok_bind, behind]
  | true =>
    simp only [negated, if_true] at are ⊢
    have negation : readAt items (before.length + 1) = .ok cmdNot := by simp [are, readAt]
    have item : readAt items (before.length + 2) = .ok (index term.number) := by simp [are, readAt]
    have behind : (before ++ [cmdAnd] ++ ([cmdNot] ++ [index term.number])).length = before.length + 3 := by simp
    rw [negation, ok_bind, if_pos rfl, item, ok_bind]
    constructor
    · intro lineless value evaluated
      obtain ⟨state, state_, -⟩ := bind_eq_ok.mp evaluated
      exact lineState_negative (reads.none_ lineless) state_
    · intro isLine
      obtain ⟨i, isLine⟩ := Option.isSome_iff_exists.mp isLine
      obtain ⟨-, state, state_, on_⟩ := reads.some_ i isLine
      refine ⟨truth (ruleVal ≠ 0 ∧ state = 0), ?_, ?_⟩
      · rw [isLine, Option.any_some, on_]
        by_cases zero : state = 0 <;> by_cases before_ : ruleVal = 0 <;> simp [zero, before_, truth]
      · rw [state_, ok_bind, behind]

theorem calcRight_reads (before : List Int) {conjunction : List Term} {more : List (Conn × Term)} {ruleVal : Int}
    (reads : ∀ entry ∈ more, Reads states index line on entry.2)
    (lines : ∀ term ∈ conjunction, (line term.number).isSome = true)
    (value : decide (ruleVal ≠ 0) = conjunction.all (Term.holds line on)) :
    (∃ result, calcRight states (before ++ moreItems index more) (before ++ moreItems index more).length before.length ruleVal =
        .ok result) ↔ Guarded line on (alternatives conjunction more) := by
  induction more generalizing before conjunction ruleVal with
  | nil =>
    rw [calcRight, if_neg (by simp [moreItems])]
    exact iff_of_true ⟨ruleVal, rfl⟩ ⟨lines, fun _ => trivial⟩
  | cons entry more ih =>
    obtain ⟨conn, term⟩ := entry
    have here : Reads states index line on term := reads (conn, term) List.mem_cons_self
    have later := fun entry member => reads entry (List.mem_cons_of_mem _ member)
    have are : before ++ moreItems index ((conn, term) :: more) =
        before ++ [conn.item] ++ term.items index ++ moreItems index more := by
      simp [moreItems]
    generalize before ++ moreItems index ((conn, term) :: more) = items at are ⊢
    have further {conjunction : List Term} {ruleVal : Int} :=
      @ih (before ++ [conn.item] ++ term.items index) conjunction ruleVal later
    rw [<- are] at further
    have stops (none_ : line term.number = none) {conjunction : List Term} (member : term ∈ conjunction) :
        ¬ Guarded line on (alternatives conjunction more) := fun guarded => by
      have known := guarded_first guarded term member
      rw [none_] at known
      cases known
    cases conn with
    | and =>
      obtain ⟨stuck, goes⟩ := calcRight_and ruleVal here are
      rw [alternatives]
      cases isLine : line term.number with
      | none => exact iff_of_false (fun ends => ends.elim (stuck isLine)) (stops isLine (by simp))
      | some i =>
        obtain ⟨next, holds, same⟩ := goes (by rw [isLine]; rfl)
        rw [same]
        refine further ?_ ?_
        · intro each member
          rcases List.mem_append.mp member with earlier | new
          · exact lines each earlier
          · obtain rfl := List.mem_singleton.mp new
            rw [isLine]
            rfl
        · rw [holds, value]
          simp
    | or =>
      have inside : before.length < items.length := by simp [are]
      have command : readAt items before.length = .ok cmdOr := by
        rw [are, List.append_assoc, List.append_assoc, List.singleton_append, readAt_behind]
        rfl
      obtain ⟨stuck, goes⟩ := calcRuleStates_reads here are
      rw [List.length_append, List.length_singleton] at stuck goes
      rw [calcRight, if_pos inside, command, ok_bind, if_pos rfl, alternatives, Guarded, <- value]
      by_cases true_ : ruleVal ≠ 0
      · rw [if_pos true_]
        refine iff_of_true ⟨1, rfl⟩ ⟨lines, fun false_ => ?_⟩
        simp [true_] at false_
      · rw [if_neg true_]
        have reached : (∃ result, (do
              let value <- calcRuleStates states items items.length (before.length + 1)
              return truth (value ≠ 0)) = Except.ok result) ↔
            ∃ result, calcRuleStates states items items.length (before.length + 1) = .ok result := by
          constructor
          · rintro ⟨result, evaluated⟩
            obtain ⟨value, evaluated, -⟩ := bind_eq_ok.mp evaluated
            exact ⟨value, evaluated⟩
          · rintro ⟨value, evaluated⟩
            rw [evaluated]
            exact ⟨_, rfl⟩
        rw [reached]
        cases isLine : line term.number with
        | none =>
          exact iff_of_false (fun ends => ends.elim (stuck isLine))
            fun guarded => stops isLine (by simp) (guarded.2 (by simp [true_]))
        | some i =>
          have known : ∀ each ∈ [term], (line each.number).isSome = true := by simp [isLine]
          obtain ⟨next, holds, same⟩ := goes (known term List.mem_cons_self)
          rw [same, further known (by simpa using holds)]
          exact ⟨fun guarded => ⟨lines, fun _ => guarded⟩, fun guarded => guarded.2 (by simp [true_])⟩

theorem rule_reads {rule : Rule} (reads : ∀ term ∈ rule.terms, Reads states index line on term) :
    (∃ result, calcRuleStates states (rule.items index) (rule.items index).length 0 = .ok result) ↔
      Guarded line on (alternatives [rule.first] rule.more) := by
  obtain ⟨stuck, goes⟩ := @calcRuleStates_reads _ _ _ _ [] _ _ _ (reads _ List.mem_cons_self) rfl
  have later : ∀ entry ∈ rule.more, Reads states index line on entry.2 := fun entry member =>
    reads entry.2 (List.mem_cons_of_mem _ (List.mem_map_of_mem member))
  cases isLine : line rule.first.number with
  | none =>
    constructor
    · rintro ⟨result, evaluated⟩
      exact absurd evaluated (stuck isLine result)
    · intro guarded
      have known := guarded_first guarded rule.first (by simp)
      rw [isLine] at known
      cases known
  | some i =>
    have known : ∀ term ∈ [rule.first], (line term.number).isSome = true := by simp [isLine]
    obtain ⟨ruleVal, holds, same⟩ := goes (known rule.first List.mem_cons_self)
    have right := calcRight_reads (rule.first.items index) later known (by simpa using holds)
    rw [<- right]
    exact exists_congr fun result => by rw [Rule.items]; exact iff_of_eq (congrArg (· = Except.ok result) same)

end Evaluating

section Accepted

variable {rulesString : CString} {rules : List Rule}

def itemOf (rules : List Rule) (number : Nat) : Int :=
  transformItem (usedLines rules).eraseDups (highestLine rules - cmdLast + 1) (lineNumber number)

theorem accepted_rules (fits : Fits .name (lexemesOf rulesString)) (same : lexemesOf rulesString = rules.flatMap Rule.lexemes) :
    getUpsRules rulesString = .ok
      { upsLines := (usedLines rules).eraseDups, upsMaxLine := highestLine rules
        rules := rules.map (Rule.compiled (itemOf rules)) } := by
  obtain ⟨status, effect⟩ := rules_effect rules []
  rw [<- same] at status effect
  have loop := (rulesLoop_eq rulesString 0 .name []).2.1 fits status
  rw [effect, List.nil_append] at loop
  obtain ⟨lines, bounded⟩ := collect_lines ((rules.map (Rule.compiled lineNumber)).flatMap RuleInt.cRules)
  have highest := collect_highest ((rules.map (Rule.compiled lineNumber)).flatMap RuleInt.cRules)
  rw [lines, highest, rules_items] at bounded
  have commands : ∀ item ∈ [cmdNot, cmdAnd, cmdOr],
      transformItem (usedLines rules).eraseDups (highestLine rules - cmdLast + 1) item = item := by
    intro item member
    refine transform_command bounded ?_
    revert item
    decide
  rw [getUpsRules, loop]
  dsimp only
  rw [lines, highest, rules_items, transformLines_eq, mapItems, List.map_map]
  refine congrArg Except.ok (congrArg (Gpioups.mk _ _) (List.map_congr_left fun rule _ => ?_))
  exact congrArg (RuleInt.mk rule.name) (items_map commands lineNumber rule)

theorem usedLines_bounded (rules : List Rule) : ∀ line ∈ (usedLines rules).eraseDups, line ≤ highestLine rules := by
  obtain ⟨lines, bounded⟩ := collect_lines ((rules.map (Rule.compiled lineNumber)).flatMap RuleInt.cRules)
  rw [lines, collect_highest, rules_items] at bounded
  exact bounded

theorem terms_read {states : List Int} {on : Int -> Bool} (agrees : ∀ i ∈ (usedLines rules).eraseDups,
      ∃ state, states[(usedLines rules).eraseDups.idxOf i]? = some state ∧ on i = decide (state ≠ 0))
    {rule : Rule} (isRule : rule ∈ rules) {term : Term} (isTerm : term ∈ rule.terms) :
    Reads states (itemOf rules) (answers rules) on term := by
  have own : 0 ≤ lineNumber term.number -> lineNumber term.number ∈ (usedLines rules).eraseDups := by
    intro positive
    rw [List.mem_eraseDups, usedLines, List.mem_filter]
    exact ⟨List.mem_flatMap.mpr ⟨rule, isRule, List.mem_map_of_mem isTerm⟩, by simpa using positive⟩
  obtain ⟨found, lineless⟩ := transform_answers (fun i => List.mem_eraseDups) (usedLines_bounded rules) own
  refine ⟨fun i isLine => ?_, lineless⟩
  obtain ⟨member, item⟩ := found i isLine
  obtain ⟨state, read, on_⟩ := agrees i member
  rw [itemOf, item]
  refine ⟨Int.natCast_nonneg _, state, ?_, on_⟩
  rw [lineState, if_neg (Int.not_lt.mpr (Int.natCast_nonneg _)), Int.toNat_natCast, readAt, read]

end Accepted

-- Reading and evaluating rules stays in bounds exactly if lexemes have room and each number that is looked at is a line's.
theorem stays_iff (rulesString : CString) : StaysInBounds rulesString ↔
      Fits .name (lexemesOf rulesString) ∧ ∀ rules : List Rule, lexemesOf rulesString = rules.flatMap Rule.lexemes ->
        ∀ rule ∈ rules, ∀ on : Int -> Bool, Guarded (answers rules) on (alternatives [rule.first] rule.more) := by
  constructor
  · intro stays
    have fits : Fits .name (lexemesOf rulesString) := by
      by_contra unfits
      obtain ⟨fault, failed⟩ := (rulesLoop_eq rulesString 0 .name []).1 unfits
      exact stays.reading fault (by rw [getUpsRules, failed])
    refine ⟨fits, fun rules same rule isRule on => ?_⟩
    have evaluated := stays.evaluating _ (accepted_rules fits same) _ (List.mem_map_of_mem isRule)
      ((usedLines rules).eraseDups.map fun i => truth (on i)) (List.length_map _)
    refine (rule_reads fun term isTerm => terms_read (fun i member => ?_) isRule isTerm).mp evaluated
    refine ⟨truth (on i), ?_, ?_⟩
    · rw [List.getElem?_map, List.getElem?_idxOf member]
      rfl
    · cases on i <;> rfl
  · rintro ⟨fits, guarded⟩
    obtain ⟨-, -, rejects⟩ := rulesLoop_eq rulesString 0 .name []
    by_cases accepted : statusBehind .name (lexemesOf rulesString) = some .name
    · obtain ⟨rules, same⟩ := accepted_remains (lexemesOf_proper rulesString) accepted
      have result := accepted_rules fits same
      constructor
      · intro fault failed
        rw [result] at failed
        cases failed
      · intro upsfd result' compiled member states length
        rw [result] at result'
        cases result'
        obtain ⟨rule, isRule, rfl⟩ := List.mem_map.mp member
        let on : Int -> Bool := fun i => decide (states.getD ((usedLines rules).eraseDups.idxOf i) 0 ≠ 0)
        refine (rule_reads fun term isTerm => terms_read (fun i member => ?_) isRule isTerm).mpr (guarded rules same rule isRule on)
        have inside : (usedLines rules).eraseDups.idxOf i < states.length := by
          rw [length]
          exact List.idxOf_lt_length_of_mem member
        refine ⟨states[(usedLines rules).eraseDups.idxOf i], List.getElem?_eq_getElem inside, ?_⟩
        simp [on, List.getD_eq_getElem?_getD, inside]
    · obtain ⟨position, rejected⟩ := rejects fits accepted
      have result : getUpsRules rulesString = .error (.ruleError position) := by rw [getUpsRules, rejected]
      constructor
      · intro fault failed
        rw [result] at failed
        cases failed
      · intro upsfd failed
        rw [result] at failed
        cases failed

-- A state name of twelve letters is ended behind its array.
theorem twelveLetters_leave : ¬ StaysInBounds (cstr "OVERCHARGING=1;") := by
  intro stays
  have found : getRuleLex (cstr "OVERCHARGING=1;") = some (.word, cstr "OVERCHARGING", cstr "=1;") := by decide
  have unfits : ¬ Fits .name (lexemesOf (cstr "OVERCHARGING=1;")) := by
    rw [lexemesOf_some found]
    exact fun fits => absurd (fits.2.1 rfl rfl) (by decide)
  obtain ⟨fault, failed⟩ := (rulesLoop_eq _ 0 .name []).1 unfits
  exact stays.reading fault (by rw [getUpsRules, failed])

end Nut.Gpio
