import Mathlib.Data.Nat.Digits.Defs
import Mathlib.Data.List.Infix

set_option autoImplicit false

-- The formats of POSIX `printf`, and the arguments that it fetches for them.
namespace Printf

def ascii (c : Char) : UInt8 :=
  UInt8.ofNat c.toNat

inductive Conversion where
  | d | i | o | u | x | X | f | F | e | E | g | G | a | A | c | s | p | n | C | S
  deriving DecidableEq, Repr

inductive Kind where
  | signed
  | unsigned
  | floating
  | char
  | string
  | pointer
  | written
  | wideChar
  | wideString
  deriving DecidableEq, Repr

inductive Length where
  | plain | hh | h | l | ll | j | z | t | L
  deriving DecidableEq, Repr

inductive ArgType where
  | signed (length : Length)
  | unsigned (length : Length)
  | double
  | longDouble
  | wint
  | string
  | wideString
  | pointer
  | written (length : Length)
  deriving DecidableEq, Repr

inductive Flag where
  | thousands | left | sign | space | alternative | zero
  deriving DecidableEq, Repr

structure Digits where
  text : List UInt8
  digits : ∀ b ∈ text, 48 ≤ b ∧ b ≤ 57

-- A field width, or a precision behind its dot; `position` is the `m` of `*m$`.
inductive Amount where
  | absent
  | number (digits : Digits)
  | star (position : Option Nat)

structure Spec where
  position : Option Nat
  flags : List Flag
  width : Amount
  precision : Option Amount
  length : Length
  conversion : Conversion

inductive Piece where
  | literal (b : UInt8) (ordinary : b ≠ ascii '%' ∧ b ≠ 0)
  | percent
  | converts (spec : Spec)

abbrev Format := List Piece

namespace Conversion

def byte : Conversion -> UInt8
  | d => ascii 'd'
  | i => ascii 'i'
  | o => ascii 'o'
  | u => ascii 'u'
  | x => ascii 'x'
  | X => ascii 'X'
  | f => ascii 'f'
  | F => ascii 'F'
  | e => ascii 'e'
  | E => ascii 'E'
  | g => ascii 'g'
  | G => ascii 'G'
  | a => ascii 'a'
  | A => ascii 'A'
  | c => ascii 'c'
  | s => ascii 's'
  | p => ascii 'p'
  | n => ascii 'n'
  | C => ascii 'C'
  | S => ascii 'S'

def kind : Conversion -> Kind
  | d | i => .signed
  | o | u | x | X => .unsigned
  | f | F | e | E | g | G | a | A => .floating
  | c => .char
  | s => .string
  | p => .pointer
  | n => .written
  | C => .wideChar
  | S => .wideString

end Conversion

namespace Length

def text : Length -> List UInt8
  | plain => []
  | hh => [ascii 'h', ascii 'h']
  | h => [ascii 'h']
  | l => [ascii 'l']
  | ll => [ascii 'l', ascii 'l']
  | j => [ascii 'j']
  | z => [ascii 'z']
  | t => [ascii 't']
  | L => [ascii 'L']

def allowed : Length -> Kind -> Bool
  | plain, _ => true
  | L, kind => kind = .floating
  | l, kind => kind = .signed || kind = .unsigned || kind = .written || kind = .floating || kind = .char || kind = .string
  | _, kind => kind = .signed || kind = .unsigned || kind = .written

end Length

def Kind.argType (length : Length) : Kind -> ArgType
  | signed => .signed length
  | unsigned => .unsigned length
  | floating => if length = .L then .longDouble else .double
  | char => if length = .l then .wint else .signed .plain
  | string => if length = .l then .wideString else .string
  | pointer => .pointer
  | written => .written length
  | wideChar => .wint
  | wideString => .wideString

def Flag.byte : Flag -> UInt8
  | thousands => 39
  | left => ascii '-'
  | sign => ascii '+'
  | space => ascii ' '
  | alternative => ascii '#'
  | zero => ascii '0'

def positionText : Option Nat -> List UInt8
  | none => []
  | some n => (Nat.toDigits 10 n).map ascii ++ [ascii '$']

def Amount.text : Amount -> List UInt8
  | absent => []
  | number digits => digits.text
  | star position => ascii '*' :: positionText position

def precisionText : Option Amount -> List UInt8
  | none => []
  | some amount => ascii '.' :: amount.text

def Spec.text (spec : Spec) : List UInt8 :=
  ascii '%' :: (positionText spec.position ++ (spec.flags.map Flag.byte ++ (spec.width.text ++
    (precisionText spec.precision ++ (spec.length.text ++ [spec.conversion.byte])))))

def Piece.text : Piece -> List UInt8
  | literal b _ => [b]
  | percent => [ascii '%', ascii '%']
  | converts spec => spec.text

def Format.text (format : Format) : List UInt8 :=
  format.flatMap Piece.text


def Amount.uses : Amount -> List (Option Nat × ArgType)
  | absent => []
  | number _ => []
  | star position => [(position, .signed .plain)]

def precisionUses : Option Amount -> List (Option Nat × ArgType)
  | none => []
  | some amount => amount.uses

def Spec.uses (spec : Spec) : List (Option Nat × ArgType) :=
  spec.width.uses ++ (precisionUses spec.precision ++ [(spec.position, spec.conversion.kind.argType spec.length)])

def Piece.specs : Piece -> List Spec
  | converts spec => [spec]
  | _ => []

namespace Format

def specs (format : Format) : List Spec :=
  format.flatMap Piece.specs

def uses (format : Format) : List (Option Nat × ArgType) :=
  format.specs.flatMap Spec.uses

def asked (format : Format) : List ArgType :=
  format.uses.map Prod.snd

def Sequential (format : Format) : Prop :=
  ∀ use ∈ format.uses, use.1 = none

structure Numbered (format : Format) : Prop where
  positive : ∀ use ∈ format.uses, ∃ n, use.1 = some (n + 1)
  consistent : ∀ use ∈ format.uses, ∀ other ∈ format.uses, use.1 = other.1 -> use.2 = other.2
  gapless : ∀ use ∈ format.uses, ∀ n m, use.1 = some m -> 0 < n -> n ≤ m -> ∃ other ∈ format.uses, other.1 = some n

-- What `printf` accepts.
structure Accepted (format : Format) : Prop where
  lengths : ∀ spec ∈ format.specs, spec.length.allowed spec.conversion.kind = true
  positions : format.Sequential ∨ format.Numbered

def fetched (format : Format) : List ArgType :=
  if format.uses.all fun use => use.1.isNone then format.asked
  else
    let last := (format.uses.filterMap Prod.fst).foldr max 0
    (List.range' 1 last).filterMap fun n => format.uses.lookup (some n)

end Format

def Amount.respell : Amount -> Amount
  | star _ => star none
  | amount => amount

def Spec.respell (change : Conversion -> Conversion) (spec : Spec) : Spec :=
  { spec with
    position := none
    width := spec.width.respell
    precision := spec.precision.map Amount.respell
    conversion := change spec.conversion }

def Piece.respell (change : Conversion -> Conversion) : Piece -> Piece
  | converts spec => converts (spec.respell change)
  | piece => piece

def Format.respell (change : Conversion -> Conversion) (format : Format) : Format :=
  format.map (Piece.respell change)

section Respelling

variable {change : Conversion -> Conversion}

theorem amount_respell_uses (amount : Amount) : amount.respell.uses = amount.uses.map fun use => (none, use.2) := by
  cases amount <;> rfl

theorem precision_respell_uses (precision : Option Amount) :
    precisionUses (precision.map Amount.respell) = (precisionUses precision).map fun use => (none, use.2) := by
  cases precision with
  | none => rfl
  | some amount => exact amount_respell_uses amount

theorem spec_respell_uses (spec : Spec) :
    (spec.respell change).uses = (spec.width.uses ++ (precisionUses spec.precision ++
      [(spec.position, (change spec.conversion).kind.argType spec.length)])).map fun use => (none, use.2) := by
  simp [Spec.uses, Spec.respell, amount_respell_uses, precision_respell_uses]

theorem respell_specs (format : Format) : (format.respell change).specs = format.specs.map (Spec.respell change) := by
  induction format with
  | nil => rfl
  | cons piece format ih =>
    cases piece <;> simpa [Format.specs, Format.respell, Piece.respell, Piece.specs] using ih

theorem respell_sequential (format : Format) : (format.respell change).Sequential := by
  intro use member
  rw [Format.uses, respell_specs, List.mem_flatMap] at member
  obtain ⟨spec, inside, asked⟩ := member
  obtain ⟨old, _, rfl⟩ := List.mem_map.mp inside
  rw [spec_respell_uses, List.mem_map] at asked
  obtain ⟨_, _, rfl⟩ := asked
  rfl

theorem sequential_fetched {format : Format} (sequential : format.Sequential) : format.fetched = format.asked := by
  have all : format.uses.all (fun use => use.1.isNone) = true := by
    rw [List.all_eq_true]
    intro use member
    rw [sequential use member]
    rfl
  simp [Format.fetched, all]

theorem respell_accepted {format : Format} (accepted : format.Accepted)
    (keeps : ∀ length conversion, Length.allowed length (Conversion.kind conversion) = true ->
      Length.allowed length (change conversion).kind = true) : (format.respell change).Accepted := by
  refine ⟨?_, Or.inl (respell_sequential format)⟩
  intro spec member
  rw [respell_specs] at member
  obtain ⟨old, inside, rfl⟩ := List.mem_map.mp member
  exact keeps _ _ (accepted.lengths old inside)

theorem spec_respell_types (spec : Spec) : (spec.respell change).uses.map Prod.snd =
    (spec.width.uses ++ precisionUses spec.precision).map Prod.snd ++
      [(change spec.conversion).kind.argType spec.length] := by
  simp [spec_respell_uses, Function.comp_def]

theorem spec_types (spec : Spec) : spec.uses.map Prod.snd =
    (spec.width.uses ++ precisionUses spec.precision).map Prod.snd ++ [spec.conversion.kind.argType spec.length] := by
  simp [Spec.uses]

theorem respell_asked (format : Format) : (format.respell id).asked = format.asked := by
  have types (spec : Spec) : (spec.respell id).uses.map Prod.snd = spec.uses.map Prod.snd := by
    rw [spec_respell_types, spec_types, id_eq]
  simp only [Format.asked, Format.uses, respell_specs, List.map_flatMap, List.flatMap_map, types]

-- Types stay in their places, so a change of the types shows at the specification that changed.
theorem respell_asked_eq {format : Format} (same : (format.respell change).asked = format.asked) :
    ∀ spec ∈ format.specs,
      (change spec.conversion).kind.argType spec.length = spec.conversion.kind.argType spec.length := by
  simp only [Format.asked, Format.uses, respell_specs, List.map_flatMap, List.flatMap_map] at same
  generalize format.specs = specs at same ⊢
  induction specs with
  | nil => simp
  | cons spec specs ih =>
    rw [List.flatMap_cons, List.flatMap_cons] at same
    have places : ((spec.respell change).uses.map Prod.snd).length = (spec.uses.map Prod.snd).length := by
      rw [spec_respell_types, spec_types, List.length_append, List.length_append]
      rfl
    obtain ⟨here, later⟩ := List.append_inj same places
    intro other member
    rcases List.mem_cons.mp member with rfl | inside
    · rw [spec_respell_types, spec_types] at here
      exact (List.cons.inj (List.append_cancel_left here)).1
    · exact ih later other inside

end Respelling

namespace Conversion

def wide (conversion : Conversion) : Bool :=
  conversion = C || conversion = S

def otherWide : Conversion -> Conversion
  | C => S
  | S => C
  | conversion => conversion

theorem otherWide_allowed (length : Length) (conversion : Conversion)
    (allowed : length.allowed conversion.kind = true) : length.allowed conversion.otherWide.kind = true := by
  cases conversion with
  | C | S => cases length <;> first | rfl | cases allowed
  | _ => exact allowed

theorem otherWide_argType {length : Length} {conversion : Conversion}
    (same : conversion.otherWide.kind.argType length = conversion.kind.argType length) : conversion.wide = false := by
  cases conversion with
  | C | S => cases same
  | _ => rfl

end Conversion

end Printf
