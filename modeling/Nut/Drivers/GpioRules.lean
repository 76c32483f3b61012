import Mathlib.Data.List.ModifyLast
import Nut.Common.Decimal
import Nut.Drivers.GenericGpio

set_option autoImplicit false

namespace Nut.Gpio

def isLetter (b : UInt8) : Bool :=
  65 ≤ b && b ≤ 90 || 97 ≤ b && b ≤ 122

-- `[^]line`
structure Term where
  negated : Bool
  digits : CString
  proper : digits ≠ [] ∧ ∀ b ∈ digits, isdigit b = true

inductive Conn where
  | and
  | or
  deriving DecidableEq

structure Rule where
  name : CString
  named : name ≠ [] ∧ ∀ b ∈ name, isLetter b = true
  first : Term
  more : List (Conn × Term)

abbrev Lexeme := LexType × CString

def Term.number (term : Term) : Nat :=
  digitsValue term.digits

def Term.lexemes (term : Term) : List Lexeme :=
  (if term.negated then [(.negation, [94])] else []) ++ [(.number, term.digits)]

def Conn.lexeme : Conn -> Lexeme
  | .and => (.and, [38])
  | .or => (.or, [124])

def moreLexemes (more : List (Conn × Term)) : List Lexeme :=
  more.flatMap fun entry => entry.1.lexeme :: entry.2.lexemes

def Rule.lexemes (rule : Rule) : List Lexeme :=
  [(.word, rule.name), (.equals, [61])] ++ rule.first.lexemes ++ moreLexemes rule.more ++ [(.semicolon, [59])]

def textOf (lexemes : List Lexeme) : CString :=
  lexemes.flatMap Prod.snd

def Rule.text (rule : Rule) : CString :=
  textOf rule.lexemes

def Rule.terms (rule : Rule) : List Term :=
  rule.first :: rule.more.map Prod.snd

-- `&` binds tighter: the conjunctions that the formula is a disjunction of.
def alternatives (conjunction : List Term) : List (Conn × Term) -> List (List Term)
  | [] => [conjunction]
  | (.and, term) :: more => alternatives (conjunction ++ [term]) more
  | (.or, term) :: more => conjunction :: alternatives [term] more

def Term.value (lines : Nat -> Bool) (term : Term) : Bool :=
  lines term.number != term.negated

def Rule.value (lines : Nat -> Bool) (rule : Rule) : Bool :=
  (alternatives [rule.first] rule.more).any fun conjunction => conjunction.all (Term.value lines)

def lexemesOf (text : CString) : List Lexeme :=
  match _found : getRuleLex text with
  | none => []
  | some (type, lex, rest) => (type, lex) :: lexemesOf rest
termination_by text.length
decreasing_by
  have shorter := getRuleLex_text _found
  have nonempty := List.length_pos_iff.mpr shorter.2
  simp only [shorter.1, List.length_append]
  omega

def nextStatus : LexStatus -> LexType -> Option LexStatus
  | .name, .word => some .equals
  | .equals, .equals => some .term
  | .term, .negation => some .line
  | .term, .number => some .more
  | .line, .number => some .more
  | .more, .and => some .term
  | .more, .or => some .term
  | .more, .semicolon => some .name
  | _, _ => none

def statusBehind : LexStatus -> List Lexeme -> Option LexStatus
  | status, [] => some status
  | status, lexeme :: rest => (nextStatus status lexeme.1).bind fun next => statusBehind next rest

-- Up to the first syntax error, each lexeme has room in `lexBuff` and each name in `stateName`.
def Fits : LexStatus -> List Lexeme -> Prop
  | _, [] => True
  | status, lexeme :: rest =>
    lexeme.2.length ≤ lexBuffSize ∧ (status = .name -> lexeme.1 = .word -> lexeme.2.length < stateNameSize) ∧
      ∀ next, nextStatus status lexeme.1 = some next -> Fits next rest

section Lexing

theorem lexType_letter (b : UInt8) : lexType b = some .word ↔ isLetter b = true := by
  have each : ∀ n < 256, lexType (UInt8.ofNat n) = some .word ↔ isLetter (UInt8.ofNat n) = true := by decide +kernel
  simpa using each b.toNat b.toNat_lt

theorem lexType_digit (b : UInt8) : lexType b = some .number ↔ isdigit b = true := by
  have each : ∀ n < 256, lexType (UInt8.ofNat n) = some .number ↔ isdigit (UInt8.ofNat n) = true := by decide +kernel
  simpa using each b.toNat b.toNat_lt

def Proper (lexeme : Lexeme) : Prop :=
  match lexeme.1 with
  | .word => lexeme.2 ≠ [] ∧ ∀ b ∈ lexeme.2, isLetter b = true
  | .number => lexeme.2 ≠ [] ∧ ∀ b ∈ lexeme.2, isdigit b = true
  | .equals => lexeme.2 = [61]
  | .negation => lexeme.2 = [94]
  | .and => lexeme.2 = [38]
  | .or => lexeme.2 = [124]
  | .semicolon => lexeme.2 = [59]

theorem lexType_single {b : UInt8} {type : LexType} (isType : lexType b = some type)
    (single : ¬(type = .word ∨ type = .number)) : Proper (type, [b]) := by
  unfold lexType at isType
  split_ifs at isType
  all_goals
    cases isType
    simp_all [Proper]

theorem getRuleLex_proper {text lex rest : CString} {type : LexType} (found : getRuleLex text = some (type, lex, rest)) :
    Proper (type, lex) := by
  cases text with
  | nil => cases found
  | cons b text =>
    cases isType : lexType b with
    | none => simp [getRuleLex, isType] at found
    | some own =>
      simp only [getRuleLex, isType] at found
      by_cases long : own = .word ∨ own = .number
      · rw [if_pos long, Option.some.injEq, Prod.mk.injEq, Prod.mk.injEq] at found
        obtain ⟨rfl, rfl, -⟩ := found
        have all : ∀ c ∈ b :: text.takeWhile (lexType · = some own), lexType c = some own := by
          intro c member
          rcases List.mem_cons.mp member with rfl | member
          · exact isType
          · simpa using List.mem_takeWhile_imp member
        rcases long with rfl | rfl
        · exact ⟨List.cons_ne_nil _ _, fun c member => (lexType_letter c).mp (all c member)⟩
        · exact ⟨List.cons_ne_nil _ _, fun c member => (lexType_digit c).mp (all c member)⟩
      · rw [if_neg long, Option.some.injEq, Prod.mk.injEq, Prod.mk.injEq] at found
        obtain ⟨rfl, rfl, -⟩ := found
        exact lexType_single isType long

theorem lexemesOf_none {text : CString} (found : getRuleLex text = none) : lexemesOf text = [] := by
  rw [lexemesOf]
  split <;> simp_all

theorem lexemesOf_some {text lex rest : CString} {type : LexType} (found : getRuleLex text = some (type, lex, rest)) :
    lexemesOf text = (type, lex) :: lexemesOf rest := by
  rw [lexemesOf]
  split <;> simp_all

theorem lexemesOf_proper (text : CString) : ∀ lexeme ∈ lexemesOf text, Proper lexeme := by
  induction text using lexemesOf.induct with
  | case1 text found => simp [lexemesOf_none found]
  | case2 text type lex rest found ih =>
    rw [lexemesOf_some found]
    intro lexeme member
    rcases List.mem_cons.mp member with rfl | member
    · exact getRuleLex_proper found
    · exact ih lexeme member

def Stops (text : CString) : Prop :=
  ∀ b ∈ text.head?, lexType b = none

theorem getRuleLex_stops {text : CString} : getRuleLex text = none ↔ Stops text := by
  cases text with
  | nil => simp [getRuleLex, Stops]
  | cons b text =>
    cases isType : lexType b with
    | none => simp [getRuleLex, Stops, isType]
    | some own =>
      simp only [getRuleLex, Stops, isType]
      split <;> simp [isType]

theorem lexemesOf_text (text : CString) : ∃ rest, text = textOf (lexemesOf text) ++ rest ∧ Stops rest := by
  induction text using lexemesOf.induct with
  | case1 text found => exact ⟨text, by simp [lexemesOf_none found, textOf], getRuleLex_stops.mp found⟩
  | case2 text type lex rest found ih =>
    obtain ⟨left, split, stops⟩ := ih
    refine ⟨left, ?_, stops⟩
    rw [lexemesOf_some found, textOf, List.flatMap_cons, List.append_assoc, <- textOf, <- split]
    exact (getRuleLex_text found).1

-- Two words or two numbers side by side would be one.
def Apart : List Lexeme -> Prop
  | first :: second :: rest => (first.1 = .word ∨ first.1 = .number -> first.1 ≠ second.1) ∧ Apart (second :: rest)
  | _ => True

theorem proper_head {lexeme : Lexeme} (proper : Proper lexeme) :
    ∃ b rest, lexeme.2 = b :: rest ∧ lexType b = some lexeme.1 := by
  obtain ⟨type, lex⟩ := lexeme
  cases type
  case word =>
    obtain ⟨nonempty, all⟩ := proper
    obtain ⟨b, rest, rfl⟩ := List.exists_cons_of_ne_nil nonempty
    exact ⟨b, rest, rfl, (lexType_letter b).mpr (all b List.mem_cons_self)⟩
  case number =>
    obtain ⟨nonempty, all⟩ := proper
    obtain ⟨b, rest, rfl⟩ := List.exists_cons_of_ne_nil nonempty
    exact ⟨b, rest, rfl, (lexType_digit b).mpr (all b List.mem_cons_self)⟩
  all_goals
    obtain rfl : lex = _ := proper
    exact ⟨_, [], rfl, by decide⟩

theorem proper_foreign {lexeme : Lexeme} (proper : Proper lexeme) : ∀ b ∈ lexeme.2, lexType b ≠ none := by
  obtain ⟨type, lex⟩ := lexeme
  intro b member
  cases type
  case word =>
    rw [(lexType_letter b).mpr (proper.2 b member)]
    exact nofun
  case number =>
    rw [(lexType_digit b).mpr (proper.2 b member)]
    exact nofun
  all_goals
    obtain rfl : lex = _ := proper
    obtain rfl := List.mem_singleton.mp member
    decide

theorem getRuleLex_proper_append {lexeme : Lexeme} (proper : Proper lexeme) {rest : CString}
    (ends : lexeme.1 = .word ∨ lexeme.1 = .number -> ∀ b ∈ rest.head?, lexType b ≠ some lexeme.1) :
    getRuleLex (lexeme.2 ++ rest) = some (lexeme.1, lexeme.2, rest) := by
  obtain ⟨b, tail, isLex, isType⟩ := proper_head proper
  obtain ⟨type, lex⟩ := lexeme
  obtain rfl : lex = b :: tail := isLex
  simp only at isType ends ⊢
  simp only [List.cons_append, getRuleLex, isType]
  by_cases long : type = .word ∨ type = .number
  · have all : ∀ c ∈ tail, decide (lexType c = some type) = true := by
      intro c member
      rcases long with rfl | rfl
      · exact decide_eq_true ((lexType_letter c).mpr (proper.2 c (List.mem_cons_of_mem _ member)))
      · exact decide_eq_true ((lexType_digit c).mpr (proper.2 c (List.mem_cons_of_mem _ member)))
    have stop : rest.takeWhile (lexType · = some type) = [] ∧ rest.dropWhile (lexType · = some type) = rest := by
      cases rest with
      | nil => exact ⟨rfl, rfl⟩
      | cons c rest =>
        have other := ends long c rfl
        simp [other]
    rw [if_pos long, List.takeWhile_append_of_pos all, List.dropWhile_append_of_pos all, stop.1, stop.2, List.append_nil]
  · have single : tail = [] := by
      cases type
      case word => exact absurd (Or.inl rfl) long
      case number => exact absurd (Or.inr rfl) long
      all_goals
        have only : b :: tail = [_] := proper
        exact (List.cons.inj only).2
    rw [if_neg long, single]
    rfl

theorem lexemesOf_apart {lexemes : List Lexeme} (proper : ∀ lexeme ∈ lexemes, Proper lexeme) (apart : Apart lexemes)
    {rest : CString} (stops : Stops rest) : lexemesOf (textOf lexemes ++ rest) = lexemes := by
  induction lexemes with
  | nil => exact lexemesOf_none (getRuleLex_stops.mpr stops)
  | cons lexeme others ih =>
    have here := proper lexeme List.mem_cons_self
    have later : Apart others := by
      cases others with
      | nil => trivial
      | cons second others => exact apart.2
    have next := ih (fun other member => proper other (List.mem_cons_of_mem _ member)) later
    have ends : lexeme.1 = .word ∨ lexeme.1 = .number -> ∀ b ∈ (textOf others ++ rest).head?, lexType b ≠ some lexeme.1 := by
      intro long b isHead
      cases others with
      | nil =>
        rw [stops b isHead]
        exact nofun
      | cons second others =>
        obtain ⟨c, tail, isLex, isType⟩ := proper_head (proper second (by simp))
        rw [textOf, List.flatMap_cons, isLex] at isHead
        obtain rfl : c = b := Option.some.inj isHead
        rw [isType]
        exact fun same => apart.1 long (Option.some.inj same).symm
    have found := getRuleLex_proper_append here ends
    rw [textOf, List.flatMap_cons, <- textOf, List.append_assoc, lexemesOf_some found, next]

end Lexing

section Grammar

theorem conn_proper (conn : Conn) : Proper conn.lexeme := by
  cases conn <;> rfl

theorem term_proper (term : Term) : ∀ lexeme ∈ term.lexemes, Proper lexeme := by
  intro lexeme member
  rcases List.mem_append.mp member with sign | number
  · split at sign
    · obtain rfl := List.mem_singleton.mp sign
      rfl
    · cases sign
  · obtain rfl := List.mem_singleton.mp number
    exact term.proper

theorem more_proper (more : List (Conn × Term)) : ∀ lexeme ∈ moreLexemes more, Proper lexeme := by
  intro lexeme member
  obtain ⟨entry, -, inside⟩ := List.mem_flatMap.mp member
  rcases List.mem_cons.mp inside with rfl | inside
  · exact conn_proper entry.1
  · exact term_proper entry.2 lexeme inside

theorem rule_proper (rule : Rule) : ∀ lexeme ∈ rule.lexemes, Proper lexeme := by
  intro lexeme member
  simp only [Rule.lexemes, List.mem_append, List.mem_cons, List.not_mem_nil, or_false] at member
  rcases member with (((rfl | rfl) | member) | member) | rfl
  · exact rule.named
  · rfl
  · exact term_proper _ lexeme member
  · exact more_proper _ lexeme member
  · rfl

theorem rules_proper (rules : List Rule) : ∀ lexeme ∈ rules.flatMap Rule.lexemes, Proper lexeme := by
  intro lexeme member
  obtain ⟨rule, -, inside⟩ := List.mem_flatMap.mp member
  exact rule_proper rule lexeme inside

def Opens (lexemes : List Lexeme) : Prop :=
  ∀ lexeme ∈ lexemes.head?, lexeme.1 ≠ .word ∧ lexeme.1 ≠ .number

theorem apart_cons {lexeme : Lexeme} {rest : List Lexeme} (apart : Apart rest)
    (differs : lexeme.1 = .word ∨ lexeme.1 = .number -> Opens rest) : Apart (lexeme :: rest) := by
  cases rest with
  | nil => trivial
  | cons second rest =>
    refine ⟨fun long same => ?_, apart⟩
    have other := differs long second rfl
    rcases long with word | number
    · exact other.1 (same ▸ word)
    · exact other.2 (same ▸ number)

theorem apart_single {lexeme : Lexeme} {rest : List Lexeme} (apart : Apart rest)
    (single : lexeme.1 ≠ .word ∧ lexeme.1 ≠ .number) : Apart (lexeme :: rest) :=
  apart_cons apart fun long => absurd long (by simp [single])

theorem apart_term (term : Term) {rest : List Lexeme} (apart : Apart rest) (opens : Opens rest) :
    Apart (term.lexemes ++ rest) := by
  have number : Apart ((.number, term.digits) :: rest) := apart_cons apart fun _ => opens
  unfold Term.lexemes
  cases term.negated
  · exact number
  · exact apart_single number (by simp)

theorem conn_single (conn : Conn) : conn.lexeme.1 ≠ .word ∧ conn.lexeme.1 ≠ .number := by
  cases conn <;> simp [Conn.lexeme]

theorem apart_more (more : List (Conn × Term)) {rest : List Lexeme} (apart : Apart rest) (opens : Opens rest) :
    Apart (moreLexemes more ++ rest) ∧ Opens (moreLexemes more ++ rest) := by
  induction more with
  | nil => exact ⟨apart, opens⟩
  | cons entry more ih =>
    have single := conn_single entry.1
    have behind := apart_term entry.2 ih.1 ih.2
    simp only [moreLexemes, List.flatMap_cons, List.append_assoc, List.cons_append] at behind ⊢
    refine ⟨apart_single behind single, ?_⟩
    intro lexeme isHead
    obtain rfl : entry.1.lexeme = lexeme := Option.some.inj isHead
    exact single

theorem apart_rules (rules : List Rule) : Apart (rules.flatMap Rule.lexemes) := by
  induction rules with
  | nil => trivial
  | cons rule rules ih =>
    have closed : Apart ((.semicolon, [59]) :: rules.flatMap Rule.lexemes) := apart_single ih (by simp)
    have opens : Opens ((.semicolon, [59]) :: rules.flatMap Rule.lexemes) := by
      intro lexeme isHead
      obtain rfl : _ = lexeme := Option.some.inj isHead
      simp
    obtain ⟨more, moreOpens⟩ := apart_more rule.more closed opens
    have equals : Apart ((.equals, [61]) :: (rule.first.lexemes ++ (moreLexemes rule.more ++
        ((.semicolon, [59]) :: rules.flatMap Rule.lexemes)))) :=
      apart_single (apart_term rule.first more moreOpens) (by simp)
    simp only [List.flatMap_cons, Rule.lexemes, List.append_assoc, List.cons_append, List.nil_append]
    refine apart_cons equals fun _ => ?_
    intro lexeme isHead
    obtain rfl : _ = lexeme := Option.some.inj isHead
    simp

theorem rules_text (rules : List Rule) : rules.flatMap Rule.text = textOf (rules.flatMap Rule.lexemes) := by
  rw [textOf, List.flatMap_assoc]
  rfl

theorem lexemesOf_rules (rules : List Rule) {rest : CString} (stops : Stops rest) :
    lexemesOf (rules.flatMap Rule.text ++ rest) = rules.flatMap Rule.lexemes := by
  rw [rules_text, lexemesOf_apart (rules_proper rules) (apart_rules rules) stops]

def Remains : LexStatus -> List Lexeme -> Prop
  | .name, lexemes => ∃ rules : List Rule, lexemes = rules.flatMap Rule.lexemes
  | .equals, lexemes => ∃ (first : Term) (more : List (Conn × Term)) (rules : List Rule),
      lexemes = (.equals, [61]) :: (first.lexemes ++ moreLexemes more ++ (.semicolon, [59]) :: rules.flatMap Rule.lexemes)
  | .term, lexemes => ∃ (first : Term) (more : List (Conn × Term)) (rules : List Rule),
      lexemes = first.lexemes ++ moreLexemes more ++ (.semicolon, [59]) :: rules.flatMap Rule.lexemes
  | .line, lexemes => ∃ (digits : CString) (more : List (Conn × Term)) (rules : List Rule),
      lexemes = (.number, digits) :: (moreLexemes more ++ (.semicolon, [59]) :: rules.flatMap Rule.lexemes)
  | .more, lexemes => ∃ (more : List (Conn × Term)) (rules : List Rule),
      lexemes = moreLexemes more ++ (.semicolon, [59]) :: rules.flatMap Rule.lexemes

theorem remains_conn {conn : Conn} {rest : List Lexeme} (remains : Remains .term rest) :
    Remains .more (conn.lexeme :: rest) := by
  obtain ⟨first, more, rules, rfl⟩ := remains
  exact ⟨(conn, first) :: more, rules, by simp [moreLexemes]⟩

theorem accepted_remains {lexemes : List Lexeme} (proper : ∀ lexeme ∈ lexemes, Proper lexeme) {status : LexStatus}
    (accepted : statusBehind status lexemes = some .name) : Remains status lexemes := by
  induction lexemes generalizing status with
  | nil =>
    obtain rfl : status = .name := Option.some.inj accepted
    exact ⟨[], rfl⟩
  | cons lexeme rest ih =>
    obtain ⟨next, step, later⟩ := Option.bind_eq_some_iff.mp accepted
    have remains := ih (fun other member => proper other (List.mem_cons_of_mem _ member)) later
    have here := proper lexeme List.mem_cons_self
    obtain ⟨type, lex⟩ := lexeme
    cases status <;> cases type <;> try cases step
    case cons.name.word.refl =>
      obtain ⟨first, more, rules, rfl⟩ := remains
      exact ⟨⟨lex, here, first, more⟩ :: rules, by simp [Rule.lexemes]⟩
    case cons.equals.equals.refl =>
      obtain ⟨first, more, rules, rfl⟩ := remains
      obtain rfl : lex = [61] := here
      exact ⟨first, more, rules, rfl⟩
    case cons.term.number.refl =>
      obtain ⟨more, rules, rfl⟩ := remains
      exact ⟨⟨false, lex, here⟩, more, rules, by simp [Term.lexemes]⟩
    case cons.term.negation.refl =>
      obtain ⟨digits, more, rules, rfl⟩ := remains
      obtain rfl : lex = [94] := here
      have digitsProper := proper (.number, digits) (by simp)
      exact ⟨⟨true, digits, digitsProper⟩, more, rules, by simp [Term.lexemes]⟩
    case cons.line.number.refl =>
      obtain ⟨more, rules, rfl⟩ := remains
      exact ⟨lex, more, rules, rfl⟩
    case cons.more.and.refl =>
      obtain rfl : lex = [38] := here
      exact @remains_conn .and _ remains
    case cons.more.or.refl =>
      obtain rfl : lex = [124] := here
      exact @remains_conn .or _ remains
    case cons.more.semicolon.refl =>
      obtain ⟨rules, rfl⟩ := remains
      obtain rfl : lex = [59] := here
      exact ⟨[], rules, rfl⟩

end Grammar

section Compiled

def Conn.item : Conn -> Int
  | .and => cmdAnd
  | .or => cmdOr

def Term.items (index : Nat -> Int) (term : Term) : List Int :=
  (if term.negated then [cmdNot] else []) ++ [index term.number]

def moreItems (index : Nat -> Int) (more : List (Conn × Term)) : List Int :=
  more.flatMap fun entry => entry.1.item :: entry.2.items index

def Rule.items (index : Nat -> Int) (rule : Rule) : List Int :=
  rule.first.items index ++ moreItems index rule.more

def Rule.compiled (index : Nat -> Int) (rule : Rule) : RuleInt :=
  { stateName := rule.name, cRules := rule.items index }

def lineNumber (number : Nat) : Int :=
  (Int64.ofInt (max longMin (min longMax number))).toInt32.toInt

theorem lineNumber_small {number : Nat} (small : number < 2 ^ 30) : lineNumber number = number := by
  have clamp : max longMin (min longMax (number : Int)) = number := by
    simp only [longMin, longMax]
    omega
  rw [lineNumber, clamp, Int64.toInt32_ofInt, Int32.toInt_ofInt_of_le (by simp) (by simp; omega)]

theorem atoi_number {lex : CString} (proper : lex ≠ [] ∧ ∀ b ∈ lex, isdigit b = true) {rest : CString}
    (ends : ∀ b ∈ rest.head?, isdigit b = false) : (atoi (lex ++ rest)).toInt = lineNumber (digitsValue lex) := by
  obtain ⟨nonempty, digits⟩ := proper
  have stop : rest.takeWhile isdigit = [] := by
    cases rest with
    | nil => rfl
    | cons b rest => simp [ends b rfl]
  have value : digitsValue (lex ++ rest) = digitsValue lex := by
    rw [digitsValue, List.takeWhile_append_of_pos digits, stop, List.append_nil, digitsValue,
      List.takeWhile_eq_self_iff.mpr digits]
  obtain ⟨b, tail, rfl⟩ := List.exists_cons_of_ne_nil nonempty
  rw [List.cons_append, atoi, strtol_digit (digits b List.mem_cons_self), <- List.cons_append, value]
  rfl

def lexEffect (status : LexStatus) (lexeme : Lexeme) (rules : List RuleInt) : List RuleInt :=
  match lexeme.1 with
  | .word => if status = .name then rules ++ [{ stateName := lexeme.2, cRules := [] }] else rules
  | .negation => addRuleItem cmdNot rules
  | .number => addRuleItem (lineNumber (digitsValue lexeme.2)) rules
  | .and => addRuleItem cmdAnd rules
  | .or => addRuleItem cmdOr rules
  | _ => rules

def lexEffects : LexStatus -> List Lexeme -> List RuleInt -> List RuleInt
  | _, [], rules => rules
  | status, lexeme :: rest, rules =>
    lexEffects ((nextStatus status lexeme.1).getD status) rest (lexEffect status lexeme rules)

theorem addRuleItem_last (item : Int) (rules : List RuleInt) (rule : RuleInt) :
    addRuleItem item (rules ++ [rule]) = rules ++ [{ rule with cRules := rule.cRules ++ [item] }] := by
  simp [addRuleItem, List.modifyLast_concat]

theorem effects_append {status next : LexStatus} {first second : List Lexeme} {rules : List RuleInt}
    (behind : statusBehind status first = some next) :
    lexEffects status (first ++ second) rules = lexEffects next second (lexEffects status first rules) := by
  induction first generalizing status rules with
  | nil =>
    obtain rfl : status = next := Option.some.inj behind
    rfl
  | cons lexeme first ih =>
    obtain ⟨after, step, later⟩ := Option.bind_eq_some_iff.mp behind
    rw [List.cons_append, lexEffects, lexEffects, step]
    exact ih later

theorem statusBehind_append {status next : LexStatus} {first second : List Lexeme}
    (behind : statusBehind status first = some next) :
    statusBehind status (first ++ second) = statusBehind next second := by
  induction first generalizing status with
  | nil =>
    obtain rfl : status = next := Option.some.inj behind
    rfl
  | cons lexeme first ih =>
    obtain ⟨after, step, later⟩ := Option.bind_eq_some_iff.mp behind
    rw [List.cons_append, statusBehind, step]
    exact ih later

theorem term_effect (term : Term) (rules : List RuleInt) (rule : RuleInt) :
    statusBehind .term term.lexemes = some .more ∧ lexEffects .term term.lexemes (rules ++ [rule]) =
        rules ++ [{ rule with cRules := rule.cRules ++ term.items lineNumber }] := by
  unfold Term.lexemes Term.items
  cases term.negated <;>
    simp [statusBehind, nextStatus, lexEffects, lexEffect, addRuleItem_last, Term.number]

theorem more_effect (more : List (Conn × Term)) (rules : List RuleInt) (rule : RuleInt) :
    statusBehind .more (moreLexemes more) = some .more ∧ lexEffects .more (moreLexemes more) (rules ++ [rule]) =
        rules ++ [{ rule with cRules := rule.cRules ++ moreItems lineNumber more }] := by
  induction more generalizing rule with
  | nil => simp [moreLexemes, moreItems, statusBehind, lexEffects]
  | cons entry more ih =>
    obtain ⟨conn, term⟩ := entry
    have step : statusBehind .more [conn.lexeme] = some .term ∧ lexEffects .more [conn.lexeme] (rules ++ [rule]) =
        rules ++ [{ rule with cRules := rule.cRules ++ [conn.item] }] := by
      cases conn <;>
        simp [Conn.lexeme, Conn.item, statusBehind, nextStatus, lexEffects, lexEffect, addRuleItem_last]
    obtain ⟨termStatus, termEffect⟩ := term_effect term rules { rule with cRules := rule.cRules ++ [conn.item] }
    obtain ⟨restStatus, restEffect⟩ := ih { rule with cRules := rule.cRules ++ [conn.item] ++ term.items lineNumber }
    have split : moreLexemes ((conn, term) :: more) = [conn.lexeme] ++ (term.lexemes ++ moreLexemes more) := by
      simp [moreLexemes]
    rw [split]
    constructor
    · rw [statusBehind_append step.1, statusBehind_append termStatus, restStatus]
    · rw [effects_append step.1, step.2, effects_append termStatus, termEffect, restEffect]
      simp [moreItems]

theorem rule_effect (rule : Rule) (rules : List RuleInt) : statusBehind .name rule.lexemes = some .name ∧
      lexEffects .name rule.lexemes rules = rules ++ [rule.compiled lineNumber] := by
  have step : statusBehind .name [(.word, rule.name), (.equals, [61])] = some .term ∧
      lexEffects .name [(.word, rule.name), (.equals, [61])] rules =
        rules ++ [{ stateName := rule.name, cRules := [] }] := by
    simp [statusBehind, nextStatus, lexEffects, lexEffect]
  obtain ⟨termStatus, termEffect⟩ := term_effect rule.first rules { stateName := rule.name, cRules := [] }
  obtain ⟨moreStatus, moreEffect⟩ :=
    more_effect rule.more rules { stateName := rule.name, cRules := [] ++ rule.first.items lineNumber }
  simp only [Rule.lexemes, List.append_assoc]
  constructor
  · rw [statusBehind_append step.1, statusBehind_append termStatus, statusBehind_append moreStatus]
    rfl
  · rw [effects_append step.1, step.2, effects_append termStatus, termEffect, effects_append moreStatus, moreEffect]
    simp [lexEffects, lexEffect, Rule.compiled, Rule.items]

theorem rules_effect (parsed : List Rule) (rules : List RuleInt) :
    statusBehind .name (parsed.flatMap Rule.lexemes) = some .name ∧
      lexEffects .name (parsed.flatMap Rule.lexemes) rules = rules ++ parsed.map (Rule.compiled lineNumber) := by
  induction parsed generalizing rules with
  | nil => simp [statusBehind, lexEffects]
  | cons rule parsed ih =>
    obtain ⟨status, effect⟩ := rule_effect rule rules
    obtain ⟨laterStatus, laterEffect⟩ := ih (rules ++ [rule.compiled lineNumber])
    rw [List.flatMap_cons, statusBehind_append status, effects_append status, effect, laterEffect]
    exact ⟨laterStatus, by simp⟩

end Compiled

section Loop

theorem getRuleLex_ends {text lex rest : CString} {type : LexType} (found : getRuleLex text = some (type, lex, rest))
    (long : type = .word ∨ type = .number) : ∀ b ∈ rest.head?, lexType b ≠ some type := by
  cases text with
  | nil => cases found
  | cons b text =>
    cases isType : lexType b with
    | none => simp [getRuleLex, isType] at found
    | some own =>
      simp only [getRuleLex, isType] at found
      by_cases ownLong : own = .word ∨ own = .number
      · rw [if_pos ownLong, Option.some.injEq, Prod.mk.injEq, Prod.mk.injEq] at found
        obtain ⟨rfl, -, rfl⟩ := found
        intro c isHead same
        have kept := List.head?_dropWhile_not (lexType · = some own) text
        rw [isHead] at kept
        simp [same] at kept
      · rw [if_neg ownLong, Option.some.injEq, Prod.mk.injEq] at found
        exact absurd (found.1 ▸ long) ownLong

theorem lexStep_eq {text lex rest : CString} {type : LexType} (found : getRuleLex text = some (type, lex, rest))
    (startPos : Nat) (rules : List RuleInt) (status : LexStatus) : lexStep type startPos lex text rules status =
      match nextStatus status type with
      | none => .error (.ruleError startPos)
      | some next =>
        if status = .name ∧ stateNameSize < lex.length + 1 then .error (.memory .outOfBounds)
        else .ok (next, lexEffect status (type, lex) rules) := by
  have number : type = .number -> (atoi text).toInt = lineNumber (digitsValue lex) := by
    rintro rfl
    rw [(getRuleLex_text found).1]
    refine atoi_number (getRuleLex_proper found) fun b isHead => ?_
    rw [Bool.eq_false_iff]
    exact fun digit => getRuleLex_ends found (Or.inr rfl) b isHead ((lexType_digit b).mpr digit)
  cases status <;> cases type <;> simp [lexStep, nextStatus, lexEffect, number]

theorem rulesLoop_eq (text : CString) (startPos : Nat) (status : LexStatus) (rules : List RuleInt) :
    (¬Fits status (lexemesOf text) -> ∃ fault, rulesLoop text startPos status rules = .error (.memory fault)) ∧
      (Fits status (lexemesOf text) -> statusBehind status (lexemesOf text) = some .name ->
        rulesLoop text startPos status rules = .ok (lexEffects status (lexemesOf text) rules)) ∧
      (Fits status (lexemesOf text) -> statusBehind status (lexemesOf text) ≠ some .name ->
        ∃ position, rulesLoop text startPos status rules = .error (.ruleError position)) := by
  induction text using lexemesOf.induct generalizing startPos status rules with
  | case1 text found =>
    rw [lexemesOf_none found, rulesLoop]
    split
    next =>
      refine ⟨fun unfit => absurd trivial unfit, fun _ accepted => ?_, fun _ rejected => ?_⟩
      · rw [if_pos (Option.some.inj accepted)]
        rfl
      · rw [if_neg fun same => rejected (congrArg some same)]
        exact ⟨startPos, rfl⟩
    next other => simp [found] at other
  | case2 text type lex rest found ih =>
    rw [lexemesOf_some found, rulesLoop]
    split
    next other => simp [found] at other
    next type' lex' rest' found' =>
      rw [found, Option.some.injEq, Prod.mk.injEq, Prod.mk.injEq] at found'
      obtain ⟨rfl, rfl, rfl⟩ := found'
      by_cases long : lexBuffSize < lex.length
      · rw [if_pos long]
        have unfit : ¬Fits status ((type, lex) :: lexemesOf rest) := fun fits => Nat.not_le.mpr long fits.1
        exact ⟨fun _ => ⟨.outOfBounds, rfl⟩, fun fits => absurd fits unfit, fun fits => absurd fits unfit⟩
      rw [if_neg long, lexStep_eq found]
      cases step : nextStatus status type with
      | none =>
        have fits : Fits status ((type, lex) :: lexemesOf rest) := by
          refine ⟨Nat.not_lt.mp long, ?_, ?_⟩
          · rintro rfl isWord
            obtain rfl : type = .word := isWord
            cases step
          · intro next stepped
            rw [step] at stepped
            cases stepped
        have stuck : statusBehind status ((type, lex) :: lexemesOf rest) = none := by
          rw [statusBehind, step]
          rfl
        refine ⟨fun unfit => absurd fits unfit, fun _ accepted => ?_, fun _ _ => ⟨startPos, rfl⟩⟩
        rw [stuck] at accepted
        cases accepted
      | some next =>
        dsimp only
        by_cases named : status = .name ∧ stateNameSize < lex.length + 1
        · rw [if_pos named]
          obtain ⟨rfl, large⟩ := named
          have isWord : type = .word := by
            cases type <;> first | rfl | cases step
          have unfit : ¬Fits .name ((type, lex) :: lexemesOf rest) := fun fits =>
            absurd (fits.2.1 rfl isWord) (by simp only; omega)
          exact ⟨fun _ => ⟨.outOfBounds, rfl⟩, fun fits => absurd fits unfit, fun fits => absurd fits unfit⟩
        · rw [if_neg named]
          have fits_iff : Fits status ((type, lex) :: lexemesOf rest) ↔ Fits next (lexemesOf rest) := by
            constructor
            · intro fits
              exact fits.2.2 next step
            · intro fits
              refine ⟨Nat.not_lt.mp long, fun isName _ => ?_, fun other stepped => ?_⟩
              · exact Nat.lt_of_succ_le (Nat.not_lt.mp fun large => named ⟨isName, large⟩)
              · rw [step] at stepped
                rw [<- Option.some.inj stepped]
                exact fits
          have behind : statusBehind status ((type, lex) :: lexemesOf rest) = statusBehind next (lexemesOf rest) := by
            rw [statusBehind, step]
            rfl
          have effects : lexEffects status ((type, lex) :: lexemesOf rest) rules =
              lexEffects next (lexemesOf rest) (lexEffect status (type, lex) rules) := by
            rw [lexEffects, step]
            rfl
          rw [fits_iff, behind, effects]
          exact ih (startPos + lex.length) next (lexEffect status (type, lex) rules)

end Loop

end Nut.Gpio
