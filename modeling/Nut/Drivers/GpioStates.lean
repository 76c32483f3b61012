import Mathlib.Data.List.Induction
import Nut.Drivers.GpioRules

set_option autoImplicit false

namespace Nut.Gpio

section Lines

theorem collect_lines (items : List Int) : (items.foldl collectLine ([], 0)).1 = (items.filter (0 ≤ ·)).eraseDups ∧
      ∀ line ∈ (items.foldl collectLine ([], 0)).1, line ≤ (items.foldl collectLine ([], 0)).2 := by
  induction items using List.reverseRecOn with
  | nil => simp
  | append_singleton items item ih =>
    obtain ⟨lines, bounded⟩ := ih
    rw [List.foldl_append, List.filter_append, List.eraseDups_append, <- lines]
    simp only [List.foldl_cons, List.foldl_nil, collectLine]
    have known : item ∈ (items.foldl collectLine ([], 0)).1 ↔ item ∈ items.filter (0 ≤ ·) := by
      rw [lines, List.mem_eraseDups]
    by_cases before : item ∈ (items.foldl collectLine ([], 0)).1
    · have inside := known.mp before
      have positive : 0 ≤ item := by simpa using (List.mem_filter.mp inside).2
      rw [if_pos before]
      simp only [List.filter_cons, positive, decide_true, if_true, List.filter_nil]
      refine ⟨?_, bounded⟩
      rw [List.removeAll, List.filter_cons]
      simp [inside]
    · rw [if_neg before]
      by_cases positive : item ≥ 0
      · have outside : item ∉ items := fun member =>
          before (known.mpr (List.mem_filter.mpr ⟨member, by simpa using positive⟩))
        rw [if_pos positive]
        constructor
        · have kept : [item].removeAll (items.filter (0 ≤ ·)) = [item] := by
            rw [List.removeAll, List.filter_cons]
            simp [outside]
          simp [positive, kept, List.eraseDups_cons]
        · intro line member
          rcases List.mem_append.mp member with earlier | new
          · have bound := bounded line earlier
            dsimp only
            split <;> omega
          · obtain rfl := List.mem_singleton.mp new
            dsimp only
            split <;> omega
      · rw [if_neg positive]
        exact ⟨by simp [positive, List.removeAll], bounded⟩

theorem mapItems_mapItems (first second : Int -> Int) (rules : List RuleInt) :
    mapItems second (mapItems first rules) = mapItems (second ∘ first) rules := by
  simp [mapItems, Function.comp_def]

def transformItem (upsLines : List Int) (delta item : Int) : Int :=
  upsLines.zipIdx.foldl (fun item entry => if item + delta = entry.1 then entry.2 else item)
    (if item ≥ 0 then item - delta else item)

theorem transformLines_eq (upsLines : List Int) (delta : Int) (rules : List RuleInt) :
    transformLines upsLines delta rules = mapItems (transformItem upsLines delta) rules := by
  have each (entries : List (Int × Nat)) (change : Int -> Int) :
      entries.foldl (fun rules entry => mapItems (fun item => if item + delta = entry.1 then entry.2 else item) rules)
          (mapItems change rules) =
        mapItems (fun item => entries.foldl
          (fun item entry => if item + delta = entry.1 then (entry.2 : Int) else item) (change item)) rules := by
    induction entries generalizing change with
    | nil => rfl
    | cons entry entries ih => rw [List.foldl_cons, mapItems_mapItems, ih]; rfl
  exact each _ _

theorem transform_above {entries : List (Int × Nat)} {delta item : Int} (above : ∀ entry ∈ entries, entry.1 < item + delta) :
    entries.foldl (fun item entry => if item + delta = entry.1 then (entry.2 : Int) else item) item = item := by
  induction entries with
  | nil => rfl
  | cons entry entries ih =>
    have here := above entry List.mem_cons_self
    rw [List.foldl_cons, if_neg (by omega)]
    exact ih fun other member => above other (List.mem_cons_of_mem _ member)

theorem zipIdx_bounded {lines : List Int} {bound : Int} (bounded : ∀ line ∈ lines, line ≤ bound) (start : Nat) :
    ∀ entry ∈ lines.zipIdx start, entry.1 ≤ bound := by
  intro entry member
  obtain ⟨-, -, same⟩ := List.mem_zipIdx member
  exact bounded entry.1 (same ▸ List.getElem_mem _)

theorem transform_command {lines : List Int} {bound : Int} (bounded : ∀ line ∈ lines, line ≤ bound) {item : Int}
    (command : cmdLast < item ∧ item < 0) : transformItem lines (bound - cmdLast + 1) item = item := by
  rw [transformItem, if_neg (by omega)]
  apply transform_above
  intro entry member
  have below := zipIdx_bounded bounded 0 entry member
  omega

theorem transform_skips {entries : List (Int × Nat)} {item delta : Int} (others : ∀ entry ∈ entries, entry.1 ≠ item) :
    entries.foldl (fun item entry => if item + delta = entry.1 then (entry.2 : Int) else item) (item - delta) = item - delta := by
  induction entries with
  | nil => rfl
  | cons entry entries ih =>
    have here := others entry List.mem_cons_self
    rw [List.foldl_cons, if_neg (by omega)]
    exact ih fun other member => others other (List.mem_cons_of_mem _ member)

theorem zipIdx_others {lines : List Int} {item : Int} (absent : item ∉ lines) : ∀ entry ∈ lines.zipIdx 0, entry.1 ≠ item := by
  intro entry member same
  obtain ⟨-, -, value⟩ := List.mem_zipIdx member
  exact absent (same ▸ value ▸ List.getElem_mem _)

theorem transform_found {lines : List Int} {bound : Int} (bounded : ∀ line ∈ lines, line ≤ bound) {item : Int}
    (member : item ∈ lines) :
    lines.zipIdx.foldl (fun item entry => if item + (bound - cmdLast + 1) = entry.1 then (entry.2 : Int) else item)
      (item - (bound - cmdLast + 1)) = lines.idxOf item := by
  obtain ⟨before, behind, rfl, first⟩ := List.eq_append_cons_of_mem member
  rw [List.zipIdx_append, List.foldl_append, transform_skips (zipIdx_others first), List.zipIdx_cons, List.foldl_cons,
    if_pos (by omega), transform_above, List.idxOf_append_of_notMem first, List.idxOf_cons_self]
  · simp
  · intro entry member
    have below := zipIdx_bounded (fun line inside => bounded line (by simp [inside])) _ entry member
    simp only [cmdLast]
    omega

theorem transform_line {lines : List Int} {bound : Int} (bounded : ∀ line ∈ lines, line ≤ bound) {item : Int}
    (positive : 0 ≤ item) (member : item ∈ lines) :
    transformItem lines (bound - cmdLast + 1) item = lines.idxOf item := by
  rw [transformItem, if_pos positive]
  exact transform_found bounded member

end Lines

section Values

variable {states : List Int} {index : Nat -> Int} {lines : Nat -> Bool}

def Stands (states : List Int) (index : Nat -> Int) (lines : Nat -> Bool) (term : Term) : Prop :=
  0 ≤ index term.number ∧ lineState states (index term.number) = .ok (truth (lines term.number))

def moreValue (lines : Nat -> Bool) (acc : Bool) : List (Conn × Term) -> Bool
  | [] => acc
  | (.and, term) :: more => moreValue lines (acc && term.value lines) more
  | (.or, term) :: more => acc || moreValue lines (term.value lines) more

theorem alternatives_value (conjunction : List Term) (more : List (Conn × Term)) :
    ((alternatives conjunction more).any fun terms => terms.all (Term.value lines)) =
      moreValue lines (conjunction.all (Term.value lines)) more := by
  induction more generalizing conjunction with
  | nil => simp [alternatives, moreValue]
  | cons entry more ih =>
    obtain ⟨conn, term⟩ := entry
    cases conn
    · rw [alternatives, ih, moreValue]
      simp
    · rw [alternatives, List.any_cons, ih, moreValue]
      simp

theorem truth_decide (holds : Bool) : truth (decide (truth holds ≠ 0)) = truth holds := by
  cases holds <;> rfl

variable (states index) in
theorem calcRuleStates_term (before after : List Int) (term : Term) (stands : Stands states index lines term) :
    calcRuleStates states (before ++ term.items index ++ after) (before ++ term.items index ++ after).length before.length =
      calcRight states (before ++ term.items index ++ after) (before ++ term.items index ++ after).length
        (before ++ term.items index).length (truth (term.value lines)) := by
  obtain ⟨positive, state⟩ := stands
  rw [calcRuleStates]
  unfold Term.items Term.value
  cases term.negated
  · have inside : before.length < (before ++ [index term.number] ++ after).length := by simp
    have item : (before ++ [index term.number] ++ after)[before.length] = index term.number := by simp
    simp only [Bool.false_eq_true, if_false, List.nil_append]
    rw [if_pos inside, readAt_inside inside, item, ok_bind, if_pos positive, state, ok_bind]
    simp
  · have inside : before.length < (before ++ [cmdNot, index term.number] ++ after).length := by simp
    have next : before.length + 1 < (before ++ [cmdNot, index term.number] ++ after).length := by simp
    have command : (before ++ [cmdNot, index term.number] ++ after)[before.length] = cmdNot := by simp
    have item : (before ++ [cmdNot, index term.number] ++ after)[before.length + 1] = index term.number := by simp
    simp only [if_true, List.cons_append, List.nil_append]
    rw [if_pos inside, readAt_inside inside, command, ok_bind, if_neg (by decide), readAt_inside next, item, ok_bind, state,
      ok_bind]
    cases lines term.number <;> simp [truth]

theorem calcRight_more (before : List Int) (more : List (Conn × Term)) (stands : ∀ entry ∈ more, Stands states index lines entry.2)
    (acc : Bool) :
    calcRight states (before ++ moreItems index more) (before ++ moreItems index more).length before.length (truth acc) =
      .ok (truth (moreValue lines acc more)) := by
  induction more generalizing before acc with
  | nil =>
    rw [calcRight, if_neg (by simp [moreItems])]
    rfl
  | cons entry more ih =>
    obtain ⟨conn, term⟩ := entry
    have here : Stands states index lines term := stands (conn, term) List.mem_cons_self
    have later := fun entry member => stands entry (List.mem_cons_of_mem _ member)
    have split : before ++ moreItems index ((conn, term) :: more) =
        before ++ [conn.item] ++ term.items index ++ moreItems index more := by
      simp [moreItems]
    have inside : before.length < (before ++ [conn.item] ++ term.items index ++ moreItems index more).length := by simp
    have command : (before ++ [conn.item] ++ term.items index ++ moreItems index more)[before.length] = conn.item := by
      simp
    rw [split, calcRight, if_pos inside, readAt_inside inside, command, ok_bind]
    cases conn
    case or =>
      have left := calcRuleStates_term states index (before ++ [Conn.or.item]) (moreItems index more) term here
      have right := ih (before ++ [Conn.or.item] ++ term.items index) later (term.value lines)
      have place : (before ++ [Conn.or.item]).length = before.length + 1 := by simp
      rw [right, place] at left
      rw [if_pos (by rfl), moreValue]
      cases acc
      · rw [if_neg (by decide), left, ok_bind, Bool.false_or]
        exact congrArg Except.ok (truth_decide _)
      · rw [if_pos (by decide), Bool.true_or]
        rfl
    case and =>
      have right := ih (before ++ [Conn.and.item] ++ term.items index) later (acc && term.value lines)
      obtain ⟨positive, state⟩ := here
      rw [if_neg (by decide), moreValue, <- right]
      unfold Term.items Term.value
      cases term.negated
      · have next : before.length + 1 <
            (before ++ [Conn.and.item] ++ ([] ++ [index term.number]) ++ moreItems index more).length := by simp
        have item : (before ++ [Conn.and.item] ++ ([] ++ [index term.number]) ++ moreItems index more)[before.length + 1] =
            index term.number := by simp
        simp only [Bool.false_eq_true, if_false]
        rw [readAt_inside next, item, ok_bind, if_neg (by simp only [cmdNot]; omega), state, ok_bind]
        cases acc <;> cases lines term.number <;> simp [truth]
      · have next : before.length + 1 <
            (before ++ [Conn.and.item] ++ ([cmdNot] ++ [index term.number]) ++ moreItems index more).length := by simp
        have behind : before.length + 2 <
            (before ++ [Conn.and.item] ++ ([cmdNot] ++ [index term.number]) ++ moreItems index more).length := by simp
        have negation : (before ++ [Conn.and.item] ++ ([cmdNot] ++ [index term.number]) ++
            moreItems index more)[before.length + 1] = cmdNot := by simp
        have item : (before ++ [Conn.and.item] ++ ([cmdNot] ++ [index term.number]) ++
            moreItems index more)[before.length + 2] = index term.number := by simp
        simp only [if_true]
        rw [readAt_inside next, negation, ok_bind, if_pos rfl, readAt_inside behind, item, ok_bind, state, ok_bind]
        cases acc <;> cases lines term.number <;> simp [truth]

theorem calcRuleStates_value (rule : Rule) (stands : ∀ term ∈ rule.terms, Stands states index lines term) :
    calcRuleStates states (rule.items index) (rule.items index).length 0 = .ok (truth (rule.value lines)) := by
  have left := calcRuleStates_term states index [] (moreItems index rule.more) rule.first (stands _ List.mem_cons_self)
  have right := calcRight_more (rule.first.items index) rule.more
    (fun entry member => stands entry.2 (List.mem_cons_of_mem _ (List.mem_map_of_mem member))) (rule.first.value lines)
  rw [Rule.value, alternatives_value, List.all_cons, List.all_nil, Bool.and_true, <- right]
  exact left

end Values

def Rule.numbers (rule : Rule) : List Int :=
  rule.terms.map fun term => (term.number : Int)

structure Parsed (rulesString : CString) (rules : List Rule) (upsfd : Gpioups) : Prop where
  text : rulesString = rules.flatMap Rule.text
  small : ∀ rule ∈ rules, ∀ term ∈ rule.terms, term.number < 2 ^ 30
  names : upsfd.rules.map RuleInt.stateName = rules.map Rule.name
  lines : upsfd.upsLines = (rules.flatMap Rule.numbers).eraseDups
  values : ∀ states : List Int, states.length = upsfd.upsLines.length -> (∀ state ∈ states, state = 0 ∨ state = 1) ->
    ∀ entry ∈ rules.zip upsfd.rules, calcRuleStates states entry.2.cRules entry.2.cRules.length 0 =
      .ok (truth (entry.1.value fun line => states[upsfd.upsLines.idxOf (line : Int)]? = some 1))

def MeansWhatItSays (rulesString : CString) : Prop :=
  (∃ position, getUpsRules rulesString = .error (.ruleError position)) ∨
    ∃ upsfd rules, getUpsRules rulesString = .ok upsfd ∧ Parsed rulesString rules upsfd

-- Behind complete rules there is no byte that belongs to no lexeme, lines are below 2^30, and up to the first syntax error
-- names and lexemes have room in their buffers.
structure Orderly (rulesString : CString) : Prop where
  ended : ∀ (rules : List Rule) (b : UInt8) (rest : CString), rulesString = rules.flatMap Rule.text ++ b :: rest ->
    lexType b ≠ none
  small : ∀ rules : List Rule, rulesString = rules.flatMap Rule.text ->
    ∀ rule ∈ rules, ∀ term ∈ rule.terms, term.number < 2 ^ 30
  fits : Fits .name (lexemesOf rulesString)

section Rules

theorem term_filter (term : Term) {index : Nat -> Int} (positive : 0 ≤ index term.number) :
    (term.items index).filter (0 ≤ ·) = [index term.number] := by
  unfold Term.items
  cases term.negated <;> simp [positive, cmdNot]

theorem more_filter {more : List (Conn × Term)} {index : Nat -> Int} (positive : ∀ entry ∈ more, 0 ≤ index entry.2.number) :
    (moreItems index more).filter (0 ≤ ·) = more.map fun entry => index entry.2.number := by
  induction more with
  | nil => rfl
  | cons entry more ih =>
    have here := term_filter entry.2 (positive entry List.mem_cons_self)
    have later := ih fun other member => positive other (List.mem_cons_of_mem _ member)
    have command : ¬(0 ≤ entry.1.item) := by
      cases entry.1 <;> decide
    rw [moreItems, List.flatMap_cons, <- moreItems, List.cons_append, List.filter_cons, if_neg (by simpa using command),
      List.filter_append, here, later]
    rfl

theorem rules_filter {rules : List Rule} (small : ∀ rule ∈ rules, ∀ term ∈ rule.terms, term.number < 2 ^ 30) :
    ((rules.map (Rule.compiled lineNumber)).flatMap RuleInt.cRules).filter (0 ≤ ·) = rules.flatMap Rule.numbers := by
  induction rules with
  | nil => rfl
  | cons rule rules ih =>
    have value {term : Term} (member : term ∈ rule.terms) : lineNumber term.number = term.number :=
      lineNumber_small (small rule List.mem_cons_self term member)
    have first := value List.mem_cons_self
    have moreValues {entry : Conn × Term} (member : entry ∈ rule.more) : lineNumber entry.2.number = entry.2.number :=
      value (List.mem_cons_of_mem _ (List.mem_map_of_mem member))
    have later := ih fun other member => small other (List.mem_cons_of_mem _ member)
    rw [List.map_cons, List.flatMap_cons, List.filter_append, later, List.flatMap_cons, Rule.compiled, Rule.items,
      List.filter_append, term_filter rule.first (by omega), more_filter fun entry member => by rw [moreValues member]; omega,
      first, Rule.numbers, Rule.terms, List.map_cons, List.map_map]
    congr 1
    exact congrArg (List.cons _) (List.map_congr_left fun entry member => moreValues member)

theorem items_map {change : Int -> Int} (commands : ∀ item ∈ [cmdNot, cmdAnd, cmdOr], change item = item) (index : Nat -> Int)
    (rule : Rule) : (rule.items index).map change = rule.items (change ∘ index) := by
  have term (term : Term) : (term.items index).map change = term.items (change ∘ index) := by
    unfold Term.items
    cases term.negated
    · rfl
    · simp [commands cmdNot]
  have conn (conn : Conn) : change conn.item = conn.item := by
    cases conn
    · exact commands cmdAnd (by simp)
    · exact commands cmdOr (by simp)
  simp only [Rule.items, moreItems, List.map_append, List.map_flatMap, List.map_cons, term, conn]

theorem items_congr {first second : Nat -> Int} {rule : Rule}
    (same : ∀ term ∈ rule.terms, first term.number = second term.number) : rule.items first = rule.items second := by
  have here := same rule.first List.mem_cons_self
  have later : moreItems first rule.more = moreItems second rule.more := by
    unfold moreItems
    refine List.flatMap_congr fun entry member => ?_
    rw [Term.items, Term.items, same entry.2 (List.mem_cons_of_mem _ (List.mem_map_of_mem member))]
  rw [Rule.items, Rule.items, Term.items, Term.items, here, later]

theorem orderly_small {rules : List Rule} {lexemes : List Lexeme} (same : lexemes = rules.flatMap Rule.lexemes) :
    (∀ rule ∈ rules, ∀ term ∈ rule.terms, term.number < 2 ^ 30) ↔
      ∀ lexeme ∈ lexemes, lexeme.1 = .number -> digitsValue lexeme.2 < 2 ^ 30 := by
  have term (term : Term) : term.number < 2 ^ 30 ↔
      ∀ lexeme ∈ term.lexemes, lexeme.1 = .number -> digitsValue lexeme.2 < 2 ^ 30 := by
    unfold Term.lexemes
    cases term.negated <;> simp [Term.number]
  have conn (conn : Conn) : conn.lexeme.1 ≠ .number := (conn_single conn).2
  have rule (rule : Rule) : (∀ term ∈ rule.terms, term.number < 2 ^ 30) ↔
      ∀ lexeme ∈ rule.lexemes, lexeme.1 = .number -> digitsValue lexeme.2 < 2 ^ 30 := by
    simp only [Rule.terms, List.forall_mem_cons, List.forall_mem_map, Rule.lexemes, List.forall_mem_append, term,
      moreLexemes, List.forall_mem_flatMap]
    simp [conn]
  rw [same, List.forall_mem_flatMap]
  exact forall₂_congr fun r _ => rule r

theorem parsed_rules {rulesString : CString} {rules : List Rule} (text : rulesString = rules.flatMap Rule.text)
    (small : ∀ rule ∈ rules, ∀ term ∈ rule.terms, term.number < 2 ^ 30)
    (loop : rulesLoop rulesString 0 .name [] = .ok (rules.map (Rule.compiled lineNumber))) :
    ∃ upsfd, getUpsRules rulesString = .ok upsfd ∧ Parsed rulesString rules upsfd := by
  obtain ⟨lines, bounded⟩ := collect_lines ((rules.map (Rule.compiled lineNumber)).flatMap RuleInt.cRules)
  rw [rules_filter small] at lines
  revert lines bounded
  rw [getUpsRules, loop]
  dsimp only
  generalize ((rules.map (Rule.compiled lineNumber)).flatMap RuleInt.cRules).foldl collectLine ([], 0) = collected
  intro lines bounded
  rw [transformLines_eq]
  refine ⟨_, rfl, text, small, ?_, lines, ?_⟩
  · simp [mapItems, Function.comp_def, Rule.compiled]
  have commands : ∀ item ∈ [cmdNot, cmdAnd, cmdOr],
      transformItem collected.1 (collected.2 - cmdLast + 1) item = item := by
    intro item member
    refine transform_command bounded ?_
    revert item
    decide
  have known {rule : Rule} (member : rule ∈ rules) {term : Term} (isTerm : term ∈ rule.terms) :
      (term.number : Int) ∈ collected.1 := by
    rw [lines, List.mem_eraseDups]
    exact List.mem_flatMap.mpr ⟨rule, member, List.mem_map_of_mem isTerm⟩
  have compiled {rule : Rule} (member : rule ∈ rules) :
      ((rule.items lineNumber).map (transformItem collected.1 (collected.2 - cmdLast + 1))) =
        rule.items fun number => collected.1.idxOf (number : Int) := by
    rw [items_map commands]
    refine items_congr fun term isTerm => ?_
    rw [Function.comp_apply, lineNumber_small (small rule member term isTerm),
      transform_line bounded (Int.natCast_nonneg _) (known member isTerm)]
  intro states length binary entry member
  obtain ⟨rule, isRule, rfl⟩ : ∃ rule ∈ rules, entry = (rule, { rule.compiled lineNumber with
      cRules := (rule.items lineNumber).map (transformItem collected.1 (collected.2 - cmdLast + 1)) }) := by
    simp only [mapItems, List.map_map, List.zip_map_right, List.mem_map] at member
    obtain ⟨pair, inside, rfl⟩ := member
    obtain ⟨first, second⟩ := pair
    obtain ⟨position, here⟩ := List.mem_iff_getElem?.mp inside
    rw [List.getElem?_zip_eq_some] at here
    obtain rfl : first = second := Option.some.inj (here.1.symm.trans here.2)
    exact ⟨first, List.mem_of_getElem? here.1, rfl⟩
  dsimp only
  rw [compiled isRule]
  refine calcRuleStates_value rule fun term isTerm => ?_
  have inside : collected.1.idxOf (term.number : Int) < states.length := by
    rw [length]
    exact List.idxOf_lt_length_of_mem (known isRule isTerm)
  refine ⟨Int.natCast_nonneg _, ?_⟩
  dsimp only
  rw [lineState, if_neg (Int.not_lt.mpr (Int.natCast_nonneg _)), Int.toNat_natCast, readAt_inside inside,
    List.getElem?_eq_getElem inside]
  rcases binary _ (List.getElem_mem inside) with zero | one
  · simp [zero, truth]
  · simp [one, truth]

theorem means_fits {rulesString : CString} (means : MeansWhatItSays rulesString) : Fits .name (lexemesOf rulesString) := by
  by_contra unfits
  obtain ⟨fault, failed⟩ := (rulesLoop_eq rulesString 0 .name []).1 unfits
  have result : getUpsRules rulesString = .error (.memory fault) := by
    rw [getUpsRules, failed]
  rcases means with ⟨position, rejected⟩ | ⟨upsfd, rules, accepted, -⟩
  · rw [result] at rejected
    cases rejected
  · rw [result] at accepted
    cases accepted

theorem means_parsed {rulesString : CString} (means : MeansWhatItSays rulesString) {rules : List Rule}
    (same : lexemesOf rulesString = rules.flatMap Rule.lexemes) : ∃ upsfd rules', Parsed rulesString rules' upsfd := by
  obtain ⟨status, -⟩ := rules_effect rules []
  rw [<- same] at status
  have loop := (rulesLoop_eq rulesString 0 .name []).2.1 (means_fits means) status
  rcases means with ⟨position, rejected⟩ | ⟨upsfd, rules', -, parsed⟩
  · rw [getUpsRules, loop] at rejected
    cases rejected
  · exact ⟨upsfd, rules', parsed⟩

theorem means_ended {rulesString : CString} (means : MeansWhatItSays rulesString) {rules : List Rule} {b : UInt8}
    {rest : CString} (split : rulesString = rules.flatMap Rule.text ++ b :: rest) : lexType b ≠ none := by
  intro foreign
  have stops : Stops (b :: rest) := by
    intro c isHead
    obtain rfl : b = c := Option.some.inj isHead
    exact foreign
  have same := lexemesOf_rules rules stops
  rw [<- split] at same
  obtain ⟨upsfd, rules', parsed⟩ := means_parsed means same
  have member : b ∈ textOf (rules'.flatMap Rule.lexemes) := by
    rw [<- rules_text, <- parsed.text, split]
    simp
  obtain ⟨lexeme, isLexeme, inside⟩ := List.mem_flatMap.mp member
  exact proper_foreign (rules_proper rules' lexeme isLexeme) b inside foreign

theorem lexemesOf_whole {rulesString : CString} {rules : List Rule} (text : rulesString = rules.flatMap Rule.text) :
    lexemesOf rulesString = rules.flatMap Rule.lexemes := by
  rw [text, <- List.append_nil (rules.flatMap Rule.text)]
  exact lexemesOf_rules rules nofun

theorem means_small {rulesString : CString} (means : MeansWhatItSays rulesString) {rules : List Rule}
    (text : rulesString = rules.flatMap Rule.text) : ∀ rule ∈ rules, ∀ term ∈ rule.terms, term.number < 2 ^ 30 := by
  have same := lexemesOf_whole text
  obtain ⟨upsfd, rules', parsed⟩ := means_parsed means same
  exact (orderly_small same).mpr ((orderly_small (lexemesOf_whole parsed.text)).mp parsed.small)

theorem orderly_means {rulesString : CString} (orderly : Orderly rulesString) : MeansWhatItSays rulesString := by
  obtain ⟨-, accepts, rejects⟩ := rulesLoop_eq rulesString 0 .name []
  by_cases accepted : statusBehind .name (lexemesOf rulesString) = some .name
  · obtain ⟨rules, same⟩ := accepted_remains (lexemesOf_proper rulesString) accepted
    obtain ⟨rest, split, stops⟩ := lexemesOf_text rulesString
    rw [same, <- rules_text] at split
    have ended : rest = [] := by
      cases rest with
      | nil => rfl
      | cons b rest => exact absurd (stops b rfl) (orderly.ended rules b rest split)
    rw [ended, List.append_nil] at split
    have loop := accepts orderly.fits accepted
    rw [same, (rules_effect rules []).2, List.nil_append] at loop
    obtain ⟨upsfd, result, parsed⟩ := parsed_rules split (orderly.small rules split) loop
    exact Or.inr ⟨upsfd, rules, result, parsed⟩
  · obtain ⟨position, rejected⟩ := rejects orderly.fits accepted
    refine Or.inl ⟨position, ?_⟩
    rw [getUpsRules, rejected]

end Rules

-- Rules are parsed by their grammar and mean what they say exactly for orderly texts.
theorem rules_mean_iff (rulesString : CString) : MeansWhatItSays rulesString ↔ Orderly rulesString :=
  ⟨fun means => ⟨fun _ _ _ => means_ended means, fun _ => means_small means, means_fits means⟩, orderly_means⟩

-- The rules behind a blank are not looked at.
theorem blank_ends_rules : ¬∀ rulesString, MeansWhatItSays rulesString := by
  intro all
  let online : Rule :=
    { name := cstr "OL", named := ⟨by decide, List.all_eq_true.mp (by decide)⟩
      first := { negated := true, digits := cstr "0", proper := ⟨by decide, List.all_eq_true.mp (by decide)⟩ }, more := [] }
  have split : cstr "OL=^0; OB=0;" = [online].flatMap Rule.text ++ 32 :: cstr "OB=0;" := by decide
  exact means_ended (all (cstr "OL=^0; OB=0;")) split (by decide)

end Nut.Gpio
