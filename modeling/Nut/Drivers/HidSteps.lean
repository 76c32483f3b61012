import Mathlib.Data.Prod.Lex
import Nut.Drivers.HidOffsets

set_option autoImplicit false

namespace Nut

def advance (pos count : Nat) : Nat :=
  (pos + count) % 65536

def readItem16 (parser : HIDParser) : Checked (Option HIDParser) := do
  let item <- readAt parser.reportDesc parser.pos
  let pos := advance parser.pos 1
  if itemSize item > parser.reportDesc.length - pos then return none
  let value <- readValueLoop parser.reportDesc pos (itemSize item) 0 0
  return some { parser with item, value, pos := advance pos (itemSize item) }

def currentItem16 (parser : HIDParser) : Checked (Option HIDParser) :=
  if parser.count = 0 then readItem16 parser else .ok (some parser)

-- A long item is the only one that moves the position.
def parseItem16 (parser : HIDParser) : Checked ItemResult :=
  if itemTag parser.item = .long then
    .ok (.next { parser with pos := advance parser.pos (parser.value &&& 0xff).toNat })
  else parseItem parser

def nextField16 : Nat -> HIDParser -> Checked (Option (HIDParser × HIDData × Nat))
  | 0, _ => .error .unfinished
  | turns + 1, parser => do
    if parser.pos < parser.reportDesc.length then
      match <- currentItem16 parser with
      | none => return none
      | some parser =>
        match <- parseItem16 parser with
        | .next parser => nextField16 turns parser
        | .over => return none
        | .found parser pData ret => return some (parser, pData, ret)
    else return none

structure HidCall where
  parser : HIDParser
  nitems : Nat
  deriving DecidableEq, Repr

def hidCalls : Nat -> HIDParser -> List OffsetRow -> HIDDesc -> List HidCall
  | 0, _, _, _ => []
  | turns + 1, parser, offsetTab, desc =>
    if desc.nitems < maxReport then
      { parser, nitems := desc.nitems } ::
        match hidParse parser offsetTab with
        | .error _ => []
        | .ok none => []
        | .ok (some (parser, offsetTab, pData, ret)) =>
          match storeField desc pData ret with
          | .error _ => []
          | .ok desc => hidCalls turns parser offsetTab desc
    else []

def callsOf (reportDesc : List UInt8) : List HidCall :=
  hidCalls (parseTurns reportDesc) (.start reportDesc) (List.replicate maxReport .free) .empty

def HidCall.place (call : HidCall) : Nat × Nat :=
  (call.parser.reportDesc.length - call.parser.pos, call.parser.count.toNat)

def HidCall.measure (call : HidCall) : Nat × Nat × Nat :=
  (call.parser.reportDesc.length - call.parser.pos, call.parser.count.toNat, maxReport - call.nitems)

-- Less of the descriptor is left, or less of the count, or fewer items.
def HidCall.Below (later earlier : HidCall) : Prop :=
  Prod.Lex (· < ·) (Prod.Lex (· < ·) (· < ·)) later.measure earlier.measure

theorem below_wellFounded : WellFounded HidCall.Below :=
  InvImage.wf HidCall.measure (WellFounded.prod_lex Nat.lt_wfRel.wf
    (WellFounded.prod_lex Nat.lt_wfRel.wf Nat.lt_wfRel.wf))

section Position

variable {parser : HIDParser}

theorem advance_small {pos count : Nat} (small : pos + count < 65536) : advance pos count = pos + count :=
  Nat.mod_eq_of_lt small

theorem readItem16_eq (short : parser.reportDesc.length ≤ reportDscSize)
    (more : parser.pos < parser.reportDesc.length) : readItem16 parser = readItem parser := by
  have limit : reportDscSize = 6144 := rfl
  have first : advance parser.pos 1 = parser.pos + 1 := advance_small (by omega)
  unfold readItem16 readItem
  rw [readAt_inside more]
  simp only [bind, Except.bind, first]
  generalize parser.reportDesc[parser.pos] = item
  by_cases truncated : itemSize item > parser.reportDesc.length - (parser.pos + 1)
  · simp only [truncated, if_true]
  · have second : advance (parser.pos + 1) (itemSize item) = parser.pos + 1 + itemSize item :=
      advance_small (by omega)
    simp only [truncated, if_false, second]

theorem parseItem16_eq (short : parser.reportDesc.length ≤ reportDscSize)
    (inside : parser.pos ≤ parser.reportDesc.length) : parseItem16 parser = parseItem parser := by
  unfold parseItem16
  split
  next long =>
    have limit : reportDscSize = 6144 := rfl
    have byte : (parser.value &&& 0xff).toNat ≤ 255 := by
      rw [UInt32.toNat_and]
      exact Nat.and_le_right
    rw [advance_small (by omega), parseItem, long]
  next => rfl

theorem nextField16_eq {turns : Nat} (safe : parser.Safe) (short : parser.reportDesc.length ≤ reportDscSize) :
    nextField16 turns parser = nextField turns parser := by
  induction turns generalizing parser with
  | zero => rfl
  | succ turns ih =>
    unfold nextField16 nextField
    by_cases more : parser.pos < parser.reportDesc.length
    · simp only [more, if_true]
      have item : currentItem16 parser = currentItem parser := by
        unfold currentItem16 currentItem
        rw [readItem16_eq short more]
      rw [item]
      obtain none_ | ⟨read, got, readSafe, same, inside⟩ := currentItem_ok safe more
      · simp only [none_, bind, Except.bind]
      · have parse : parseItem16 read = parseItem read := parseItem16_eq (by rwa [same]) (by rwa [same])
        simp only [got, bind, Except.bind, parse]
        cases parsed : parseItem read with
        | error => rfl
        | ok result =>
          obtain other | _ | _ := result
          · obtain ⟨_, continues⟩ := parseItem_continues readSafe parsed
            exact ih continues.safe (by rwa [continues.reportDesc, same])
          · rfl
          · rfl
    · simp only [more, if_false]

end Position

section Calls

variable {parser : HIDParser} {offsetTab : List OffsetRow}

theorem hidParse_ok (safe : parser.Safe) {next : HIDParser} {offsetTab' : List OffsetRow} {pData : HIDData} {ret : Nat}
    (found : hidParse parser offsetTab = .ok (some (next, offsetTab', pData, ret))) :
    next.Safe ∧ next.reportDesc = parser.reportDesc ∧ next.budget < parser.budget := by
  unfold hidParse at found
  obtain ended | ⟨last, field, value, got, lastSafe, same, less, _⟩ :=
    nextField_ok safe (show parser.reportDesc.length - parser.pos < parser.reportDesc.length + 1 by omega)
  · simp [ended, bind, Except.bind, pure, Except.pure] at found
  · simp only [got, bind, Except.bind] at found
    cases placed : placeField offsetTab field with
    | error => simp [placed] at found
    | ok result =>
      simp only [placed, pure, Except.pure, Except.ok.injEq, Option.some.injEq, Prod.mk.injEq] at found
      obtain ⟨rfl, _⟩ := found
      exact ⟨lastSafe, same, less⟩

structure HidCall.From (parser : HIDParser) (call : HidCall) : Prop where
  safe : call.parser.Safe
  reportDesc : call.parser.reportDesc = parser.reportDesc
  budget : call.parser.budget ≤ parser.budget

-- A count has 8 bits, so that a byte of the descriptor outweighs it.
theorem below_of_budget {later earlier : HidCall} (same : later.parser.reportDesc = earlier.parser.reportDesc)
    (less : later.parser.budget < earlier.parser.budget) : later.Below earlier ∧ later.place ≠ earlier.place := by
  have second := earlier.parser.count.toNat_lt
  simp only [HIDParser.budget, same] at less
  constructor
  · unfold HidCall.Below HidCall.measure
    rw [Prod.lex_def, Prod.lex_def, same]
    simp only
    omega
  · unfold HidCall.place
    rw [same]
    intro equal
    obtain ⟨left, count⟩ := Prod.mk.inj equal
    omega

theorem hidCalls_rule {turns : Nat} {desc : HIDDesc} (safe : parser.Safe) :
    (∀ call ∈ hidCalls turns parser offsetTab desc, call.From parser) ∧
      (hidCalls turns parser offsetTab desc).Pairwise fun earlier later => later.Below earlier ∧ later.place ≠ earlier.place := by
  induction turns generalizing parser offsetTab desc with
  | zero => simp [hidCalls]
  | succ turns ih =>
    unfold hidCalls
    split
    next =>
      have own : (HidCall.mk parser desc.nitems).From parser := ⟨safe, rfl, Nat.le_refl _⟩
      rw [List.forall_mem_cons, List.pairwise_cons]
      cases result : hidParse parser offsetTab with
      | error => simp [own]
      | ok found =>
        obtain _ | ⟨next, offsetTab', pData, ret⟩ := found
        · simp [own]
        · obtain ⟨nextSafe, same, less⟩ := hidParse_ok safe result
          cases stored : storeField desc pData ret with
          | error => simp [stored, own]
          | ok desc' =>
            obtain ⟨each, apart⟩ := @ih next offsetTab' desc' nextSafe
            simp only [stored]
            refine ⟨⟨own, fun call member => ?_⟩, fun call member => ?_, apart⟩
            · have later := each call member
              exact ⟨later.safe, later.reportDesc.trans same, Nat.le_trans later.budget (Nat.le_of_lt less)⟩
            · have later := each call member
              exact below_of_budget (later.reportDesc.trans same) (Nat.lt_of_le_of_lt later.budget less)
    next => simp

theorem hidCalls_length (turns : Nat) (parser : HIDParser) (offsetTab : List OffsetRow) (desc : HIDDesc) :
    (hidCalls turns parser offsetTab desc).length ≤ (parseLoop turns parser offsetTab desc).1.length + 1 := by
  induction turns generalizing parser offsetTab desc with
  | zero => simp [hidCalls]
  | succ turns ih =>
    unfold hidCalls parseLoop
    split
    next =>
      rw [List.length_cons]
      cases hidParse parser offsetTab with
      | error => simp
      | ok found =>
        obtain _ | ⟨next, offsetTab', pData, ret⟩ := found
        · simp
        · cases stored : storeField desc pData ret with
          | error => simp [stored]
          | ok desc' => simpa [stored] using ih next offsetTab' desc'
    next => simp

end Calls

-- The loop of `Parse_ReportDesc` ends, and no two calls of `HIDParse` are at the same field of the same item.
structure Terminates (reportDesc : List UInt8) : Prop where
  ends : parseReportDesc reportDesc ≠ .error .unfinished
  position : ∀ call ∈ callsOf reportDesc, ∀ turns, nextField16 turns call.parser = nextField turns call.parser
  decreasing : (callsOf reportDesc).Pairwise fun earlier later => later.Below earlier
  once : ((callsOf reportDesc).map HidCall.place).Nodup
  few : (callsOf reportDesc).length ≤ (parseFields reportDesc).1.length + 1

theorem parse_terminates (reportDesc : List UInt8) (short : reportDesc.length ≤ reportDscSize) :
    WellFounded HidCall.Below ∧ Terminates reportDesc := by
  refine ⟨below_wellFounded, ?_⟩
  have start := safe_start reportDesc
  have ordered : (callsOf reportDesc).Pairwise fun earlier later =>
      later.Below earlier ∧ later.place ≠ earlier.place := (hidCalls_rule start).2
  refine ⟨fun unfinished => ?_, fun call member turns => ?_, ordered.imp And.left, ?_, hidCalls_length _ _ _ _⟩
  · cases parse_fault unfinished
  · have made := (hidCalls_rule start).1 call member
    exact nextField16_eq made.safe (by rw [made.reportDesc]; exact short)
  · rw [List.Nodup, List.pairwise_map]
    exact ordered.imp fun pair => pair.2.symm

-- The last item says that 255 more bytes belong to it.
def longDescriptor : List UInt8 :=
  overlapDescriptor ++ [0xfd, 0xff]

theorem parse_terminates_long : WellFounded HidCall.Below ∧ Terminates longDescriptor :=
  parse_terminates longDescriptor (by decide)

end Nut
