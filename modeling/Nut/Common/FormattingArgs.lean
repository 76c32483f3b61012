import Nut.Common.Decimal
import Nut.Common.Formatting

set_option autoImplicit false

namespace Nut

open Printf (ascii Conversion Spec Piece Format ArgType)

def bareBone (escaped : Bool) : CString -> CString
  | [] => []
  | 37 :: 37 :: fmt => bareBone escaped fmt
  | p :: fmt =>
    if p = 37 then p :: bareBone true fmt
    else if escaped then
      match inEscape p with
      | .copied => p :: bareBone true fmt
      | .converts as => as :: bareBone false fmt
      | .skipped => bareBone true fmt
    else bareBone false fmt

theorem minimizeLoop_bareBone {room : Nat} {escaped : Bool} {fmt : CString} (fits : fmt.length < room) :
    minimizeLoop room escaped fmt = bareBone escaped fmt := by
  fun_induction bareBone escaped fmt generalizing room with
  | case1 => rfl
  | case2 escaped fmt ih =>
    simp only [List.length_cons] at fits
    rw [minimizeLoop, if_neg (by omega)]
    exact ih (by omega)
  | case3 escaped fmt pair ih =>
    simp only [List.length_cons] at fits
    rw [minimizeLoop.eq_3 _ _ _ _ pair, if_neg (by omega), if_pos rfl, ih (by omega)]
  | case4 p fmt pair plain kind ih =>
    simp only [List.length_cons] at fits
    rw [minimizeLoop.eq_3 _ _ _ _ pair, if_neg (by omega), if_neg plain, if_pos rfl, kind]
    simp only [ih (by omega : fmt.length < room - 1)]
  | case5 p fmt pair plain as kind ih =>
    simp only [List.length_cons] at fits
    rw [minimizeLoop.eq_3 _ _ _ _ pair, if_neg (by omega), if_neg plain, if_pos rfl, kind]
    simp only [ih (by omega : fmt.length < room - 1)]
  | case6 p fmt pair plain kind ih =>
    simp only [List.length_cons] at fits
    rw [minimizeLoop.eq_3 _ _ _ _ pair, if_neg (by omega), if_neg plain, if_pos rfl, kind]
    exact ih (by omega)
  | case7 escaped p fmt pair plain outside ih =>
    simp only [List.length_cons] at fits
    rw [minimizeLoop.eq_3 _ _ _ _ pair, if_neg (by omega), if_neg plain, if_neg outside]
    exact ih (by omega)

section InEscape

variable {b : UInt8} {fmt : CString}

theorem bareBone_step (plain : b ≠ 37) (escaped : Bool) : bareBone escaped (b :: fmt) =
    if escaped then
      match inEscape b with
      | .copied => b :: bareBone true fmt
      | .converts as => as :: bareBone false fmt
      | .skipped => bareBone true fmt
    else bareBone false fmt := by
  rw [bareBone, if_neg plain]
  intro more percent
  exact absurd percent plain

theorem bareBone_percent (escaped : Bool) (alone : fmt.head? ≠ some 37) :
    bareBone escaped (37 :: fmt) = 37 :: bareBone true fmt := by
  rw [bareBone, if_pos rfl]
  intro more _ same
  simp [same] at alone

theorem bareBone_skipped {text : CString} (skipped : ∀ b ∈ text, inEscape b = .skipped ∧ b ≠ 37) :
    bareBone true (text ++ fmt) = bareBone true fmt := by
  induction text with
  | nil => rfl
  | cons b text ih =>
    obtain ⟨kind, plain⟩ := skipped b List.mem_cons_self
    rw [List.cons_append, bareBone_step plain, if_pos rfl, kind]
    exact ih fun other member => skipped other (List.mem_cons_of_mem _ member)

theorem bareBone_copied {text : CString} (copied : ∀ b ∈ text, inEscape b = .copied ∧ b ≠ 37) :
    bareBone true (text ++ fmt) = text ++ bareBone true fmt := by
  induction text with
  | nil => rfl
  | cons b text ih =>
    obtain ⟨kind, plain⟩ := copied b List.mem_cons_self
    rw [List.cons_append, bareBone_step plain, if_pos rfl, kind]
    simp only [ih fun other member => copied other (List.mem_cons_of_mem _ member), List.cons_append]

theorem inEscape_digit (digit : 48 ≤ b ∧ b ≤ 57) : inEscape b = .skipped ∧ b ≠ 37 := by
  have each : ∀ n < 58, 48 ≤ n -> inEscape (UInt8.ofNat n) = .skipped ∧ UInt8.ofNat n ≠ 37 := by decide +kernel
  have low : 48 ≤ b.toNat := digit.1
  have high : b.toNat ≤ 57 := digit.2
  have own := each b.toNat (by omega) low
  rwa [UInt8.ofNat_toNat] at own

end InEscape

section Rendering

variable {fmt : CString}

def stars : Printf.Amount -> CString
  | .star _ => [ascii '*']
  | _ => []

def precisionStars : Option Printf.Amount -> CString
  | none => []
  | some amount => stars amount

def bareBody (spec : Spec) : CString :=
  ascii '%' :: (stars spec.width ++ (precisionStars spec.precision ++ spec.length.text))

theorem position_skipped (position : Option Nat) :
    ∀ b ∈ Printf.positionText position, inEscape b = .skipped ∧ b ≠ 37 := by
  cases position with
  | none => simp [Printf.positionText]
  | some n =>
    intro b member
    rcases List.mem_append.mp member with digit | dollar
    · obtain ⟨c, inside, rfl⟩ := List.mem_map.mp digit
      have digit : c.isDigit = true := Nat.isDigit_of_mem_toDigits (by decide) (by decide) inside
      obtain ⟨value, low, high⟩ := digitByte_toNat digit
      apply inEscape_digit
      rw [UInt8.le_iff_toNat_le, UInt8.le_iff_toNat_le]
      exact ⟨value.symm ▸ low, value.symm ▸ high⟩
    · rw [List.mem_singleton.mp dollar]
      decide

theorem bareBone_amount (amount : Printf.Amount) :
    bareBone true (amount.text ++ fmt) = stars amount ++ bareBone true fmt := by
  cases amount with
  | absent => rfl
  | number digits => exact bareBone_skipped fun b member => inEscape_digit (digits.digits b member)
  | star position =>
    rw [Printf.Amount.text, List.cons_append, bareBone_step (by decide), if_pos rfl]
    exact congrArg (List.cons _) (bareBone_skipped (position_skipped position))

theorem bareBone_precision (precision : Option Printf.Amount) :
    bareBone true (Printf.precisionText precision ++ fmt) = precisionStars precision ++ bareBone true fmt := by
  cases precision with
  | none => rfl
  | some amount =>
    rw [Printf.precisionText, List.cons_append, bareBone_step (by decide), if_pos rfl]
    exact bareBone_amount amount

theorem flags_skipped (flags : List Printf.Flag) :
    ∀ b ∈ flags.map Printf.Flag.byte, inEscape b = .skipped ∧ b ≠ 37 := by
  intro b member
  obtain ⟨flag, _, rfl⟩ := List.mem_map.mp member
  cases flag <;> decide

theorem length_copied (length : Printf.Length) : ∀ b ∈ length.text, inEscape b = .copied ∧ b ≠ 37 := by
  have each : length.text.all (fun b => inEscape b = .copied && b != 37) = true := by
    cases length <;> decide
  simpa using each

theorem conversion_plain (conversion : Conversion) : conversion.byte ≠ 37 := by
  cases conversion <;> decide

theorem amount_plain (amount : Printf.Amount) : ∀ b ∈ amount.text, b ≠ 37 := by
  cases amount with
  | absent => simp [Printf.Amount.text]
  | number digits => exact fun b member => (inEscape_digit (digits.digits b member)).2
  | star position =>
    intro b member
    rcases List.mem_cons.mp member with rfl | later
    · decide
    · exact (position_skipped position b later).2

theorem precision_plain (precision : Option Printf.Amount) : ∀ b ∈ Printf.precisionText precision, b ≠ 37 := by
  cases precision with
  | none => simp [Printf.precisionText]
  | some amount =>
    intro b member
    rcases List.mem_cons.mp member with rfl | later
    · decide
    · exact amount_plain amount b later

theorem spec_alone (spec : Spec) : (spec.text.tail ++ fmt).head? ≠ some 37 := by
  intro percent
  have some_ : spec.text.tail ≠ [] := by simp [Spec.text]
  rw [List.head?_append_of_ne_nil _ some_] at percent
  have member := List.mem_of_head? percent
  simp only [Spec.text, List.tail_cons, List.mem_append, List.mem_singleton] at member
  rcases member with position | flag | width | precision | length | conversion
  · exact (position_skipped _ _ position).2 rfl
  · exact (flags_skipped _ _ flag).2 rfl
  · exact amount_plain _ _ width rfl
  · exact precision_plain _ _ precision rfl
  · exact (length_copied _ _ length).2 rfl
  · exact conversion_plain _ conversion.symm

theorem bareBone_spec (escaped : Bool) (spec : Spec) : bareBone escaped (spec.text ++ fmt) = bareBody spec ++
      match inEscape spec.conversion.byte with
      | .converts as => as :: bareBone false fmt
      | _ => bareBone true fmt := by
  have open_ : spec.text ++ fmt = 37 :: (spec.text.tail ++ fmt) := rfl
  have uncopied : inEscape spec.conversion.byte ≠ .copied := by
    cases spec.conversion <;> decide
  rw [open_, bareBone_percent escaped (spec_alone spec), Spec.text, List.tail_cons]
  simp only [List.append_assoc]
  rw [bareBone_skipped (position_skipped _), bareBone_skipped (flags_skipped _), bareBone_amount, bareBone_precision,
    bareBone_copied (length_copied _), List.cons_append, List.nil_append, bareBone_step (conversion_plain _), if_pos rfl]
  cases kind : inEscape spec.conversion.byte with
  | copied => exact absurd kind uncopied
  | converts as => simp [bareBody, ascii]
  | skipped => simp [bareBody, ascii]

theorem stars_respell (amount : Printf.Amount) : stars amount.respell = stars amount := by
  cases amount <;> rfl

theorem bareBody_respell (change : Conversion -> Conversion) (spec : Spec) :
    bareBody (spec.respell change) = bareBody spec := by
  have precision : precisionStars (spec.precision.map Printf.Amount.respell) = precisionStars spec.precision := by
    cases spec.precision with
    | none => rfl
    | some amount => exact stars_respell amount
  simp only [bareBody, Spec.respell, stars_respell, precision]

theorem bareBone_respell {change : Conversion -> Conversion}
    (keeps : ∀ conversion, inEscape (change conversion).byte = inEscape conversion.byte) (escaped : Bool)
    (format : Format) : bareBone escaped (format.respell change).text = bareBone escaped format.text := by
  induction format generalizing escaped with
  | nil => rfl
  | cons piece format ih =>
    have cons (piece : Piece) (format : Format) : Format.text (piece :: format) = piece.text ++ format.text := rfl
    have head : Format.respell change (piece :: format) = piece.respell change :: Format.respell change format := rfl
    rw [head, cons, cons]
    cases piece with
    | literal b ordinary =>
      simp only [Piece.respell, Piece.text, List.singleton_append]
      rw [bareBone_step ordinary.1, bareBone_step ordinary.1]
      simp only [ih]
    | percent => exact ih escaped
    | converts spec =>
      simp only [Piece.respell, Piece.text]
      rw [bareBone_spec, bareBone_spec, bareBody_respell]
      simp only [Spec.respell, keeps, ih]

def bareSpec (spec : Spec) : CString :=
  bareBody spec ++
    match inEscape spec.conversion.byte with
    | .converts as => [as]
    | _ => []

def letterKind (b : UInt8) : Printf.Kind :=
  match Char.ofNat b.toNat with
  | 'i' => .signed
  | 'u' => .unsigned
  | 'f' => .floating
  | 'c' => .char
  | 's' => .string
  | 'p' => .pointer
  | _ => .written

def isLetter (b : UInt8) : Bool :=
  isConversion b && b ≠ ascii '*'

theorem inEscape_converts {conversion : Conversion} (narrow : conversion.wide = false) :
    ∃ as, inEscape conversion.byte = .converts as ∧ letterKind as = conversion.kind ∧ isLetter as = true := by
  cases conversion with
  | C | S => cases narrow
  | _ => exact ⟨_, rfl, rfl, rfl⟩

theorem bareBone_narrow {format : Format} (narrow : ∀ spec ∈ format.specs, spec.conversion.wide = false) :
    bareBone false format.text = (format.specs.map bareSpec).flatten := by
  induction format with
  | nil => rfl
  | cons piece format ih =>
    have cons : Format.text (piece :: format) = piece.text ++ Format.text format := rfl
    have specs : Format.specs (piece :: format) = piece.specs ++ Format.specs format := rfl
    rw [specs] at narrow ⊢
    rw [cons]
    have later := ih fun spec member => narrow spec (List.mem_append_right _ member)
    cases piece with
    | literal b ordinary =>
      simp only [Piece.text, List.singleton_append]
      rw [bareBone_step ordinary.1]
      exact later
    | percent => exact later
    | converts spec =>
      obtain ⟨as, converts, _⟩ := inEscape_converts (narrow spec (by simp [Piece.specs]))
      simp only [Piece.text, Piece.specs]
      rw [bareBone_spec, converts]
      simp [bareSpec, converts, later]

theorem amount_uses (amount : Printf.Amount) : stars amount = List.replicate amount.uses.length (ascii '*') ∧
      amount.uses.map Prod.snd = List.replicate amount.uses.length (ArgType.signed .plain) := by
  cases amount <;> exact ⟨rfl, rfl⟩

theorem precision_uses (precision : Option Printf.Amount) :
    precisionStars precision = List.replicate (Printf.precisionUses precision).length (ascii '*') ∧
      (Printf.precisionUses precision).map Prod.snd =
        List.replicate (Printf.precisionUses precision).length (ArgType.signed .plain) := by
  cases precision with
  | none => exact ⟨rfl, rfl⟩
  | some amount => exact amount_uses amount

def starCount (spec : Spec) : Nat :=
  spec.width.uses.length + (Printf.precisionUses spec.precision).length

theorem bareBody_eq (spec : Spec) :
    bareBody spec = ascii '%' :: (List.replicate (starCount spec) (ascii '*') ++ spec.length.text) := by
  rw [bareBody, (amount_uses _).1, (precision_uses _).1, <- List.append_assoc, List.replicate_append_replicate]
  rfl

theorem types_eq (spec : Spec) : spec.uses.map Prod.snd =
    List.replicate (starCount spec) (ArgType.signed .plain) ++ [spec.conversion.kind.argType spec.length] := by
  rw [Printf.spec_types, List.map_append, (amount_uses _).2, (precision_uses _).2, List.replicate_append_replicate]
  rfl

theorem length_inj {length length' : Printf.Length} (same : length.text = length'.text) : length = length' := by
  cases length <;> cases length' <;> first | rfl | exact absurd same (by decide)

theorem length_starless (length : Printf.Length) : ascii '*' ∉ length.text := by
  cases length <;> decide

theorem stars_inj {k k' : Nat} {length length' : Printf.Length}
    (same : List.replicate k (ascii '*') ++ length.text = List.replicate k' (ascii '*') ++ length'.text) :
    k = k' ∧ length = length' := by
  have count (k : Nat) (length : Printf.Length) :
      (List.replicate k (ascii '*') ++ length.text).count (ascii '*') = k := by
    rw [List.count_append, List.count_replicate_self, List.count_eq_zero.mpr (length_starless length)]
    rfl
  have counts : k = k' := by
    rw [<- count k length, same, count k' length']
  rw [counts] at same
  exact ⟨counts, length_inj (List.append_cancel_left same)⟩

theorem bareSpec_terminated {spec : Spec} (narrow : spec.conversion.wide = false) :
    PrefixCode.Terminated isLetter (bareSpec spec) := by
  obtain ⟨as, converts, _, letter⟩ := inEscape_converts narrow
  refine ⟨bareBody spec, as, by simp [bareSpec, converts], ?_, letter⟩
  intro b member
  rw [bareBody_eq, List.mem_cons, List.mem_append] at member
  rcases member with rfl | star | length
  · decide
  · rw [List.eq_of_mem_replicate star]
    decide
  · have each : spec.length.text.all (fun b => !isLetter b) = true := by
      cases spec.length <;> decide
    simpa using List.all_eq_true.mp each b length

theorem bareSpec_types {spec spec' : Spec} (narrow : spec.conversion.wide = false)
    (narrow' : spec'.conversion.wide = false) (same : bareSpec spec = bareSpec spec') :
    spec.uses.map Prod.snd = spec'.uses.map Prod.snd := by
  obtain ⟨as, converts, kind, _⟩ := inEscape_converts narrow
  obtain ⟨as', converts', kind', _⟩ := inEscape_converts narrow'
  simp only [bareSpec, converts, converts'] at same
  obtain ⟨bodies, letters⟩ := List.append_inj' same rfl
  rw [bareBody_eq, bareBody_eq] at bodies
  obtain ⟨counts, lengths⟩ := stars_inj (List.cons.inj bodies).2
  rw [types_eq, types_eq, counts, lengths, <- kind, <- kind', (List.cons.inj letters).1]

theorem narrow_prefix {specs specs' : List Spec} (narrow : ∀ spec ∈ specs, spec.conversion.wide = false)
    (narrow' : ∀ spec ∈ specs', spec.conversion.wide = false) (before : specs.map bareSpec <+: specs'.map bareSpec) :
    (specs.flatMap Spec.uses).map Prod.snd <+: (specs'.flatMap Spec.uses).map Prod.snd := by
  induction specs generalizing specs' with
  | nil => exact List.nil_prefix
  | cons spec specs ih =>
    cases specs' with
    | nil => simp at before
    | cons spec' specs' =>
      rw [List.map_cons, List.map_cons, List.cons_prefix_cons] at before
      have own := bareSpec_types (narrow spec List.mem_cons_self) (narrow' spec' List.mem_cons_self) before.1
      have later := ih (fun other member => narrow other (List.mem_cons_of_mem _ member))
        (fun other member => narrow' other (List.mem_cons_of_mem _ member)) before.2
      rw [List.flatMap_cons, List.flatMap_cons, List.map_append, List.map_append, own]
      exact (List.prefix_append_right_inj _).mpr later

end Rendering

def PlainFormat (format : Format) : Prop :=
  (∀ spec ∈ format.specs, spec.conversion.wide = false) ∧ format.fetched = format.asked

def Compatible (dynamic reference : Format) : Prop :=
  (0 ≤ validateFormattingString dynamic.text reference.text -> dynamic.fetched <+: reference.fetched) ∧
    (validateFormattingString dynamic.text reference.text = 0 -> dynamic.fetched = reference.fetched)

theorem validate_eq (dynamic reference : CString) : validateFormattingString dynamic reference =
    if bareBone false dynamic = bareBone false reference then 0
    else if ((bareBone false dynamic).rdropWhile fun b => !isConversion b).isPrefixOf (bareBone false reference) then 1
    else -3 := by
  simp only [validateFormattingString, minimizeFormattingString, Nat.add_eq_zero_iff, one_ne_zero, and_false, if_false,
    minimizeLoop_bareBone (Nat.lt_succ_self _)]

theorem plain_prefix {dynamic reference : Format} (plain : PlainFormat dynamic) (plain' : PlainFormat reference)
    (before : bareBone false dynamic.text <+: bareBone false reference.text) :
    dynamic.fetched <+: reference.fetched := by
  have terminated {format : Format} (plain : PlainFormat format) :
      ∀ word ∈ format.specs.map bareSpec, PrefixCode.Terminated isLetter word := by
    intro word member
    obtain ⟨spec, inside, rfl⟩ := List.mem_map.mp member
    exact bareSpec_terminated (plain.1 spec inside)
  rw [bareBone_narrow plain.1, bareBone_narrow plain'.1] at before
  rw [plain.2, plain'.2]
  exact narrow_prefix plain.1 plain'.1 (PrefixCode.flatten_prefix (terminated plain) (terminated plain') before)

theorem plain_undangling {format : Format} (plain : PlainFormat format) :
    (bareBone false format.text).rdropWhile (fun b => !isConversion b) = bareBone false format.text := by
  rw [List.rdropWhile_eq_self_iff]
  intro some_
  have terminated : ∀ word ∈ format.specs.map bareSpec, PrefixCode.Terminated isLetter word := by
    intro word member
    obtain ⟨spec, inside, rfl⟩ := List.mem_map.mp member
    exact bareSpec_terminated (plain.1 spec inside)
  have last : isLetter ((bareBone false format.text).getLast some_) = true := by
    simp only [bareBone_narrow plain.1]
    exact PrefixCode.flatten_last terminated _
  simp only [isLetter, Bool.and_eq_true] at last
  simp [last.1]

theorem plain_compatible {dynamic reference : Format} (plain : PlainFormat dynamic) (plain' : PlainFormat reference) :
    Compatible dynamic reference := by
  have both (same : bareBone false dynamic.text = bareBone false reference.text) :
      dynamic.fetched = reference.fetched := by
    have before := plain_prefix plain plain' (by rw [same])
    have behind := plain_prefix plain' plain (by rw [same])
    exact before.eq_of_length (Nat.le_antisymm before.length_le behind.length_le)
  rw [Compatible, validate_eq, plain_undangling plain]
  by_cases same : bareBone false dynamic.text = bareBone false reference.text
  · simp [same, both same]
  · by_cases before : (bareBone false dynamic.text).isPrefixOf (bareBone false reference.text) = true
    · have types := plain_prefix plain plain' (List.isPrefixOf_iff_prefix.mp before)
      simp [same, before, types]
    · simp [same, before]

theorem respell_validated {change : Conversion -> Conversion}
    (keeps : ∀ conversion, inEscape (change conversion).byte = inEscape conversion.byte) {format : Format}
    (compatible : Compatible format (format.respell change)) : format.fetched = (format.respell change).asked := by
  have zero : validateFormattingString format.text (format.respell change).text = 0 := by
    rw [validate_eq, bareBone_respell keeps, if_pos rfl]
  rw [compatible.2 zero, Printf.sequential_fetched (Printf.respell_sequential format)]

theorem unplain_mistaken {format : Format} (accepted : format.Accepted) (unplain : ¬ PlainFormat format) :
    ∃ reference : Format, reference.Accepted ∧ ¬ Compatible format reference := by
  have keeps (conversion : Conversion) : inEscape conversion.otherWide.byte = inEscape conversion.byte := by
    cases conversion <;> rfl
  by_cases sequential : Compatible format (format.respell id)
  · by_cases other : Compatible format (format.respell Conversion.otherWide)
    · have inOrder := @respell_validated id (fun _ => rfl) format sequential
      have swapped := respell_validated keeps other
      rw [Printf.respell_asked] at inOrder
      have narrow := Printf.respell_asked_eq (swapped.symm.trans inOrder)
      exact absurd ⟨fun spec member => Conversion.otherWide_argType (narrow spec member), inOrder⟩ unplain
    · exact ⟨_, Printf.respell_accepted accepted Conversion.otherWide_allowed, other⟩
  · exact ⟨_, Printf.respell_accepted accepted (fun _ _ allowed => allowed), sequential⟩

-- Plain formats are validated soundly against each other; any other is mistaken for some accepted format.
theorem formatting_validated (dynamic : Format) (accepted : dynamic.Accepted) :
    (PlainFormat dynamic -> ∀ reference, PlainFormat reference -> Compatible dynamic reference) ∧
      (¬ PlainFormat dynamic -> ∃ reference : Format, reference.Accepted ∧ ¬ Compatible dynamic reference) :=
  ⟨fun plain _ plain' => plain_compatible plain plain', unplain_mistaken accepted⟩

def simpleSpec (position : Option Nat) (conversion : Conversion) : Piece :=
  .converts
    { position := position, flags := [], width := .absent, precision := none, length := .plain, conversion := conversion }

-- `%s=%g` and `%s`
theorem formatting_validated_sample :
    Compatible [simpleSpec none .s] [simpleSpec none .s, .literal (ascii '=') (by decide), simpleSpec none .g] ∧
      ∃ reference : Format, reference.Accepted ∧ ¬ Compatible [simpleSpec none .S] reference := by
  have plain : ∀ format ∈ ([[simpleSpec none .s],
      [simpleSpec none .s, .literal (ascii '=') (by decide), simpleSpec none .g]] : List Format), PlainFormat format := by
    unfold PlainFormat
    decide +kernel
  have accepted (conversion : Conversion) : Format.Accepted [simpleSpec none conversion] := by
    constructor
    · simp [Format.specs, Piece.specs, simpleSpec, Printf.Length.allowed]
    · exact Or.inl (by simp [Format.Sequential, Format.uses, Format.specs, Piece.specs, simpleSpec, Spec.uses,
        Printf.Amount.uses, Printf.precisionUses])
  have wide : ¬ PlainFormat [simpleSpec none .S] := by
    unfold PlainFormat
    decide
  exact ⟨(formatting_validated _ (accepted .s)).1 (plain _ (by simp)) _ (plain _ (by simp)),
    (formatting_validated _ (accepted .S)).2 wide⟩

def wideString : Format :=
  [simpleSpec none .S]

-- `%2$d %1$s` and `%d %s`
def swappedArguments : Format :=
  [simpleSpec (some 2) .d, .literal 32 (by decide), simpleSpec (some 1) .s]

def orderedArguments : Format :=
  [simpleSpec none .d, .literal 32 (by decide), simpleSpec none .s]

-- `%S` passes where nothing is passed to it, and `%2$d %1$s` where `%d %s` is expected.
theorem formatting_mistaken : (wideString.Accepted ∧ Format.Accepted [] ∧ ¬ Compatible wideString []) ∧
      swappedArguments.Accepted ∧ orderedArguments.Accepted ∧ ¬ Compatible swappedArguments orderedArguments := by
  have numbered : swappedArguments.Numbered := by
    have uses : swappedArguments.uses = [(some 2, .signed .plain), (some 1, .string)] := rfl
    constructor <;> rw [uses]
    · simp
    · simp
    · intro use member n m position positive within
      have bound : m ≤ 2 := by
        rcases List.mem_cons.mp member with rfl | later
        · exact (Option.some.inj position).symm.le
        · rw [List.mem_singleton.mp later] at position
          exact (Option.some.inj position).symm.le.trans (by decide)
      have either : n = 1 ∨ n = 2 := by omega
      rcases either with rfl | rfl <;> simp
  refine ⟨⟨?_, ?_, ?_⟩, ⟨?_, Or.inr numbered⟩, ?_, ?_⟩
  · exact ⟨by decide, Or.inl (by unfold Format.Sequential; decide)⟩
  · exact ⟨by decide, Or.inl (by unfold Format.Sequential; decide)⟩
  · unfold Compatible
    decide +kernel
  · decide
  · exact ⟨by decide, Or.inl (by unfold Format.Sequential; decide)⟩
  · unfold Compatible
    decide +kernel

end Nut
