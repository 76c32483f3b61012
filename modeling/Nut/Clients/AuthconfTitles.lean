import Nut.Clients.AuthconfLookup
import Nut.Common.Decimal

set_option autoImplicit false

namespace Nut.Nutauth

section Positions

variable {front back : CString} {b : UInt8}

theorem idxOf_behind (absent : b ∉ front) (back : CString) :
    (front ++ back).idxOf? b = (back.idxOf? b).map (· + front.length) := by
  induction front with
  | nil => simp
  | cons first front ih =>
    rw [List.mem_cons, not_or] at absent
    rw [List.cons_append, List.idxOf?_cons, ih absent.2]
    cases back.idxOf? b <;> simp [Ne.symm absent.1]
    omega

theorem idxOf_first (absent : b ∉ front) (back : CString) : (front ++ b :: back).idxOf? b = some front.length := by
  rw [idxOf_behind absent]
  simp [List.idxOf?_cons]

theorem idxOf_within (member : b ∈ front) (back : CString) : ∃ i < front.length, (front ++ back).idxOf? b = some i := by
  obtain ⟨before, after, rfl, absent⟩ := List.eq_append_cons_of_mem member
  refine ⟨before.length, by simp, ?_⟩
  rw [List.append_assoc, List.cons_append, idxOf_first absent]

theorem idxOf_found {text : CString} {i : Nat} (found : text.idxOf? b = some i) :
    ∃ front back, text = front ++ b :: back ∧ b ∉ front ∧ front.length = i := by
  have member : b ∈ text := List.isSome_idxOf?.mp (found ▸ rfl)
  obtain ⟨front, back, rfl, absent⟩ := List.eq_append_cons_of_mem member
  rw [idxOf_first absent, Option.some.injEq] at found
  exact ⟨front, back, rfl, absent, found⟩

theorem drop_behind (front back : CString) (b : UInt8) : (front ++ b :: back).drop (front.length + 1) = back := by
  simp

theorem strchrFrom_behind (front back : CString) (first b : UInt8) :
    strchrFrom (front ++ first :: back) b (front.length + 1) = (back.idxOf? b).map (· + (front.length + 1)) := by
  rw [strchrFrom, List.append_cons, show front.length + 1 = (front ++ [first]).length by simp, List.drop_left]

theorem strchrFrom_none {front back : CString} {first b : UInt8} :
    (strchrFrom (front ++ first :: back) b (front.length + 1)).isSome = false ↔ b ∉ back := by
  rw [strchrFrom_behind, Option.isSome_map, Bool.eq_false_iff, ne_eq, List.isSome_idxOf?]

end Positions

inductive NameOf : CString -> CString -> Prop where
  | bare {name : CString} (plain : 58 ∉ name ∧ 91 ∉ name ∧ 93 ∉ name) : NameOf name name
  | bracketed {before first rest after : CString} (before_ : 58 ∉ before ∧ 91 ∉ before ∧ 93 ∉ before)
      (first_ : 58 ∉ first ∧ 91 ∉ first ∧ 93 ∉ first) (rest_ : 58 ∈ rest ∧ 91 ∉ rest ∧ 93 ∉ rest)
      (after_ : 58 ∉ after ∧ 91 ∉ after ∧ 93 ∉ after) :
      NameOf (before ++ 91 :: first) (before ++ 91 :: first ++ 58 :: rest ++ 93 :: after)

-- A name and what is behind its port's colon; an `@` is before the first colon if anywhere.
structure TitleOf (title name : CString) (port : Option CString) : Prop where
  nonempty : title ≠ []
  whole : title = name ++ (port.map (58 :: ·)).getD []
  port : ∀ text ∈ port, 58 ∉ text ∧ 91 ∉ text ∧ 93 ∉ text
  name : ∃ start, NameOf start name ∧ (64 ∈ start ∨ 64 ∉ title)

theorem portColon_title {title : CString} {colon : Option Nat} (found : portColon title = some colon) :
    ∃ name port, TitleOf title name port ∧ colon = port.map fun _ => name.length := by
  unfold portColon at found
  simp only [Option.ite_none_left_eq_some, Bool.or_eq_true, not_or, decide_eq_true_eq, Bool.not_eq_true,
    Option.some.injEq] at found
  obtain ⟨⟨⟨⟨⟨⟨⟨nonempty, atFirst⟩, bracketFirst⟩, both⟩, colonFirst⟩, someColon⟩, twoColons⟩,
    ⟨⟨singleColon, singleOpen⟩, singleClose⟩, same⟩ := found
  by_cases opened : 91 ∈ title
  · have closed : 93 ∈ title := by
      have isSome := List.isSome_idxOf?.mpr opened
      rw [isSome, bne_eq_false_iff_eq, eq_comm, List.isSome_idxOf?] at both
      exact both
    have coloned : 58 ∈ title := by
      rw [List.isSome_idxOf?.mpr closed, Bool.true_and, Option.isNone_eq_false_iff, List.isSome_idxOf?] at someColon
      exact someColon
    obtain ⟨start, behind, rfl, noColon⟩ := List.eq_append_cons_of_mem coloned
    have colonAt := idxOf_first noColon behind
    rw [colonAt] at atFirst bracketFirst colonFirst twoColons
    rw [Option.bind_some, strchrFrom_behind] at twoColons
    have openIn : 91 ∈ start := by
      by_contra absent
      rw [idxOf_behind absent] at bracketFirst
      cases found : (58 :: behind).idxOf? 91 with
      | none =>
        rw [List.idxOf?_eq_none_iff] at found
        exact (List.mem_append.mp opened).elim absent found
      | some i =>
        cases i with
        | zero => simp [List.idxOf?_cons] at found
        | succ i => simp [found, before] at bracketFirst
    have notClosedBefore : 93 ∉ start := by
      intro member
      obtain ⟨i, less, first⟩ := idxOf_within member (58 :: behind)
      simp [first, before, less] at colonFirst
    obtain ⟨front, first, rfl, notOpened⟩ := List.eq_append_cons_of_mem openIn
    have opening : front ++ 91 :: first ++ 58 :: behind = front ++ 91 :: (first ++ 58 :: behind) := by simp
    have openAt : (front ++ 91 :: first ++ 58 :: behind).idxOf? 91 = some front.length := by
      rw [opening, idxOf_first notOpened]
    rw [openAt, Option.bind_some, opening, strchrFrom_none] at singleOpen
    have closedBehind : 93 ∈ behind := by
      rcases List.mem_append.mp closed with member | member
      · exact absurd member notClosedBefore
      · simpa using member
    obtain ⟨rest, after, rfl, notClosedRest⟩ := List.eq_append_cons_of_mem closedBehind
    have closing : front ++ 91 :: first ++ 58 :: (rest ++ 93 :: after) =
        (front ++ 91 :: first ++ 58 :: rest) ++ 93 :: after := by simp
    have notClosedInside : 93 ∉ front ++ 91 :: first ++ 58 :: rest := by
      rw [List.mem_append, not_or]
      exact ⟨notClosedBefore, by simpa using notClosedRest⟩
    have closeAt : (front ++ 91 :: first ++ 58 :: (rest ++ 93 :: after)).idxOf? 93 =
        some (front ++ 91 :: first ++ 58 :: rest).length := by
      rw [closing, idxOf_first notClosedInside]
    rw [closeAt, Option.bind_some, closing, strchrFrom_none] at singleClose
    have colonIn : 58 ∈ rest := by
      by_contra absent
      rw [openAt, closeAt, idxOf_behind absent] at twoColons
      cases found : (93 :: after).idxOf? 58 with
      | none => simp [found, before] at twoColons
      | some k =>
        cases k with
        | zero => simp [List.idxOf?_cons] at found
        | succ k => simp [found, before] at twoColons; omega
    simp only [List.mem_append, List.mem_cons, not_or] at noColon notClosedBefore singleOpen
    have bracketed {mid : CString} (mid_ : 58 ∉ mid ∧ 91 ∉ mid ∧ 93 ∉ mid) :
        NameOf (front ++ 91 :: first) (front ++ 91 :: first ++ 58 :: rest ++ 93 :: mid) :=
      .bracketed ⟨noColon.1, notOpened, notClosedBefore.1⟩ ⟨noColon.2.2, singleOpen.1, notClosedBefore.2.2⟩
        ⟨colonIn, singleOpen.2.2.1, notClosedRest⟩ mid_
    rw [closeAt] at same singleColon
    dsimp only at same singleColon
    rw [closing, strchrFrom_behind] at same singleColon
    have atEarly : 64 ∈ front ++ 91 :: first ∨ 64 ∉ front ++ 91 :: first ++ 58 :: (rest ++ 93 :: after) := by
      by_cases at_ : 64 ∈ front ++ 91 :: first
      · exact .inl at_
      · right
        intro member
        rw [idxOf_behind at_] at atFirst
        have later : 64 ∈ rest ++ 93 :: after := by
          rcases List.mem_append.mp member with member | member
          · exact absurd member at_
          · simpa using member
        obtain ⟨i, found⟩ := Option.isSome_iff_exists.mp (List.isSome_idxOf?.mpr later)
        simp [List.idxOf?_cons, found, before] at atFirst
    cases found : after.idxOf? 58 with
    | none =>
      rw [found] at same
      rw [List.idxOf?_eq_none_iff] at found
      refine ⟨_, none, ⟨nonempty, ?_, by simp, _, bracketed ⟨found, singleOpen.2.2.2.2, singleClose⟩, atEarly⟩, same.symm⟩
      simp
    | some i =>
      obtain ⟨mid, port, rfl, noColonMid, rfl⟩ := idxOf_found found
      rw [found] at same singleColon
      have opens := singleOpen.2.2.2.2
      simp only [List.mem_append, List.mem_cons, not_or] at opens singleClose
      rw [Option.map_some, Option.bind_some] at singleColon
      have whole : front ++ 91 :: first ++ 58 :: (rest ++ 93 :: (mid ++ 58 :: port)) =
          (front ++ 91 :: first ++ 58 :: rest ++ 93 :: mid) ++ 58 :: port := by simp
      have colonPlace : mid.length + ((front ++ 91 :: first ++ 58 :: rest).length + 1) =
          (front ++ 91 :: first ++ 58 :: rest ++ 93 :: mid).length := by simp; omega
      rw [Option.map_some, colonPlace] at same
      rw [<- closing, whole, colonPlace, strchrFrom_none] at singleColon
      refine ⟨_, some port, ⟨nonempty, whole, ?_, _, bracketed ⟨noColonMid, opens.1, singleClose.1⟩, atEarly⟩, same.symm⟩
      intro text member
      cases member
      exact ⟨singleColon, opens.2.2, singleClose.2.2⟩
  · have notClosed : 93 ∉ title := by
      have isNone : (title.idxOf? 91).isSome = false := by
        rw [Bool.eq_false_iff, ne_eq, List.isSome_idxOf?]
        exact opened
      rw [isNone, bne_eq_false_iff_eq, eq_comm, Bool.eq_false_iff, ne_eq, List.isSome_idxOf?] at both
      exact both
    rw [List.idxOf?_eq_none_iff.mpr notClosed] at same
    dsimp only at same
    by_cases coloned : 58 ∈ title
    · obtain ⟨name, port, rfl, noColon⟩ := List.eq_append_cons_of_mem coloned
      have colonAt := idxOf_first noColon port
      simp only [List.mem_append, List.mem_cons, not_or] at opened notClosed
      rw [List.idxOf?_eq_none_iff.mpr (by simp [notClosed])] at singleColon
      dsimp only at singleColon
      rw [colonAt, Option.bind_some, strchrFrom_none] at singleColon
      rw [colonAt] at same
      refine ⟨name, some port, ⟨nonempty, rfl, ?_, name, .bare ⟨noColon, opened.1, notClosed.1⟩, ?_⟩, same.symm⟩
      · intro text member
        cases member
        exact ⟨singleColon, opened.2.2, notClosed.2.2⟩
      · by_cases at_ : 64 ∈ name
        · exact .inl at_
        · right
          intro member
          obtain ⟨i, found⟩ : ∃ i, (58 :: port).idxOf? 64 = some (i + 1) := by
            have later : 64 ∈ port := by simpa [at_] using member
            have isSome := List.isSome_idxOf?.mpr later
            obtain ⟨i, found⟩ := Option.isSome_iff_exists.mp isSome
            exact ⟨i, by simp [List.idxOf?_cons, found]⟩
          rw [colonAt, idxOf_behind at_, found] at atFirst
          simp [before] at atFirst
    · rw [List.idxOf?_eq_none_iff.mpr coloned] at same
      refine ⟨title, none, ⟨nonempty, by simp, by simp, title, .bare ⟨coloned, opened, notClosed⟩, ?_⟩, same.symm⟩
      exact Classical.em _

theorem again_none {front back : CString} {first b : UInt8} (absent : b ∉ back) :
    strchrFrom (front ++ first :: back) b (front.length + 1) = none := by
  rw [strchrFrom_behind, List.idxOf?_eq_none_iff.mpr absent]
  rfl

theorem portColon_port {start name port : CString} (name_ : NameOf start name) (at_ : 64 ∈ start)
    (port_ : 58 ∉ port ∧ 91 ∉ port ∧ 93 ∉ port) : portColon (name ++ 58 :: port) = some (some name.length) := by
  cases name_ with
  | bare plain =>
    obtain ⟨i, less, atPlace⟩ := idxOf_within at_ (58 :: port)
    have opens : (start ++ 58 :: port).idxOf? 91 = none := by simp [plain, port_]
    have closes : (start ++ 58 :: port).idxOf? 93 = none := by simp [plain, port_]
    have notEmpty : start ++ 58 :: port ≠ [] := by simp
    have late : ¬ start.length < i := by omega
    unfold portColon
    rw [idxOf_first plain.1, atPlace, opens, closes]
    simp [before, late, again_none port_.1, -List.append_eq_nil_iff, notEmpty]
  | @bracketed front first rest after front_ first_ rest_ after_ =>
    have byOpen : front ++ 91 :: first ++ 58 :: rest ++ 93 :: after ++ 58 :: port =
        front ++ 91 :: (first ++ 58 :: rest ++ 93 :: after ++ 58 :: port) := by simp
    have byColon : front ++ 91 :: first ++ 58 :: rest ++ 93 :: after ++ 58 :: port =
        (front ++ 91 :: first) ++ 58 :: (rest ++ 93 :: after ++ 58 :: port) := by simp
    have byClose : front ++ 91 :: first ++ 58 :: rest ++ 93 :: after ++ 58 :: port =
        (front ++ 91 :: first ++ 58 :: rest) ++ 93 :: (after ++ 58 :: port) := by simp
    obtain ⟨i, less, atPlace⟩ := idxOf_within at_ (58 :: (rest ++ 93 :: after ++ 58 :: port))
    obtain ⟨j, inside, second⟩ := idxOf_within rest_.1 (93 :: after ++ 58 :: port)
    rw [<- List.append_assoc] at second
    generalize whole : front ++ 91 :: first ++ 58 :: rest ++ 93 :: after ++ 58 :: port = title at *
    have opens : title.idxOf? 91 = some front.length := by
      rw [byOpen, idxOf_first front_.2.1]
    have colons : title.idxOf? 58 = some (front ++ 91 :: first).length := by
      rw [byColon, idxOf_first (by simp [front_, first_])]
    have closes : title.idxOf? 93 = some (front ++ 91 :: first ++ 58 :: rest).length := by
      rw [byClose, idxOf_first (by simp [front_, first_, rest_])]
    rw [<- byColon] at atPlace
    have seconds : strchrFrom title 58 ((front ++ 91 :: first).length + 1) = some (j + ((front ++ 91 :: first).length + 1)) := by
      rw [byColon, strchrFrom_behind, second]
      rfl
    have thirds : strchrFrom title 58 ((front ++ 91 :: first ++ 58 :: rest).length + 1) =
        some (front ++ 91 :: first ++ 58 :: rest ++ 93 :: after).length := by
      rw [byClose, strchrFrom_behind, idxOf_first after_.1]
      simp
      omega
    have noOpen : strchrFrom title 91 (front.length + 1) = none := by
      rw [byOpen, again_none (by simp [first_, rest_, after_, port_])]
    have noClose : strchrFrom title 93 ((front ++ 91 :: first ++ 58 :: rest).length + 1) = none := by
      rw [byClose, again_none (by simp [after_, port_])]
    have noColon : strchrFrom title 58 ((front ++ 91 :: first ++ 58 :: rest ++ 93 :: after).length + 1) = none := by
      rw [<- whole, again_none port_.1]
    have notEmpty : title ≠ [] := by simp [byOpen]
    unfold portColon
    rw [colons, atPlace, opens, closes]
    have atLate : ¬ (front ++ 91 :: first).length < i := by omega
    have openLate : ¬ (front ++ 91 :: first).length < front.length := by simp
    have closeLate : ¬ (front ++ 91 :: first ++ 58 :: rest).length < (front ++ 91 :: first).length := by simp
    have secondInside : ¬ (front ++ 91 :: first ++ 58 :: rest).length < j + ((front ++ 91 :: first).length + 1) := by
      simp
      omega
    simp only [Option.bind_some, seconds, thirds, noOpen, noClose, noColon, notEmpty, before, atLate, openLate,
      closeLate, secondInside]
    simp

section Names

variable (services : Services)

def namedSection (sectName : CString) : Option Parts :=
  (portColon sectName).map fun colon =>
    let name := match colon with
      | some colon => sectName.take colon
      | none => sectName
    let host := match sectName.idxOf? 64 with
      | some at_ => name.drop (at_ + 1)
      | none => name
    let port := colon.map fun colon => sectName.drop (colon + 1)
    normalizeAuthconfSectionParts services (titleUser sectName) (some host) port

def oneCharacterHost (sectName : CString) : Prop :=
  64 ∉ sectName ∧ portColon sectName = some (some 1)

instance (sectName : CString) : Decidable (oneCharacterHost sectName) :=
  inferInstanceAs (Decidable (_ ∧ _))

theorem split_named {sectName : CString} (longer : ¬ oneCharacterHost sectName) :
    splitAuthconfSection services sectName = (namedSection services sectName).map fun parts => (parts, titleUser sectName) := by
  unfold splitAuthconfSection namedSection
  cases found : portColon sectName with
  | none => rfl
  | some colon =>
    have ports : ∀ host, normalizeAuthconfSectionParts services (titleUser sectName) host
        (colon.bind fun colon => if sectName.length = colon + 1 then none else some (sectName.drop (colon + 1))) =
        normalizeAuthconfSectionParts services (titleUser sectName) host (colon.map fun colon => sectName.drop (colon + 1)) := by
      intro host
      cases colon with
      | none => rfl
      | some colon =>
        rw [Option.bind_some, Option.map_some]
        split
        · next ends =>
          rw [List.drop_of_length_le (by omega)]
          rfl
        · rfl
    dsimp only [Option.map_some]
    rw [ports]
    cases atPlace : sectName.idxOf? 64 with
    | none =>
      have apart : some 1 ≠ colon := by
        intro same
        exact longer ⟨List.idxOf?_eq_none_iff.mp atPlace, same ▸ found⟩
      cases colon <;> simp [apart]
    | some at_ =>
      by_cases same : some (at_ + 1) = colon
      · cases same
        simp [normalizeAuthconfSectionParts]
      · cases colon <;> simp [same]

theorem digits_plain {text : CString} (digits : text.all isdigit) : 58 ∉ text ∧ 91 ∉ text ∧ 93 ∉ text := by
  rw [List.all_eq_true] at digits
  refine ⟨fun member => ?_, fun member => ?_, fun member => ?_⟩ <;> exact absurd (digits _ member) (by decide)

theorem printInt_port (number : UInt16) :
    (printInt number.toNat).all isdigit ∧ printInt number.toNat ≠ [] ∧ (printInt number.toNat).length ≤ 6 := by
  have less := number.toNat_lt
  refine ⟨List.all_eq_true.mpr (printInt_digits _), ?_, printInt_length (k := 5) (by omega) (by decide)⟩
  rw [printInt_eq, if_neg (by omega), List.nil_append, ne_eq, List.map_eq_nil_iff]
  exact Nat.toDigits_ne_nil

theorem normalize_port (user host : Option CString) {port : Option CString}
    (plain : ∀ text ∈ port, 58 ∉ text ∧ 91 ∉ text ∧ 93 ∉ text) {parts : Parts}
    (same : normalizeAuthconfSectionParts services user host port = parts) :
    parts.port ≠ [] ∧ (58 ∉ parts.port ∧ 91 ∉ parts.port ∧ 93 ∉ parts.port) ∧
      (parts.port.all isdigit ∨ services parts.port = none) ∧ parts.port.length ≤ (port.getD []).length + 6 := by
  subst same
  have default : nutPort ≠ [] ∧ nutPort.all isdigit ∧ nutPort.length = 4 := by decide
  unfold normalizeAuthconfSectionParts
  match port, plain with
  | none, _ => exact ⟨default.1, digits_plain default.2.1, .inl default.2.1, by simp [default.2.2]⟩
  | some [], _ => exact ⟨default.1, digits_plain default.2.1, .inl default.2.1, by simp [default.2.2]⟩
  | some (b :: text), plain =>
    dsimp only
    split
    · next digits => exact ⟨by simp, plain _ rfl, .inl digits, by simp⟩
    · next notDigits =>
      split
      · next number _ =>
        obtain ⟨digits, nonempty, length⟩ := printInt_port number
        exact ⟨nonempty, digits_plain digits, .inl digits, by omega⟩
      · next unknown => exact ⟨by simp, plain _ rfl, .inr unknown, by simp⟩

theorem normalize_again (user : Option CString) {host port : CString} (someHost : host ≠ []) (somePort : port ≠ [])
    (number : port.all isdigit ∨ services port = none) :
    normalizeAuthconfSectionParts services user (some host) (some port) =
      { title := snprintf largebuf (user.getD [] ++ 64 :: host ++ 58 :: port), fixedUser := user.getD [] ≠ [], host, port } := by
  obtain ⟨h, hosts, rfl⟩ := List.exists_cons_of_ne_nil someHost
  obtain ⟨p, ports, rfl⟩ := List.exists_cons_of_ne_nil somePort
  unfold normalizeAuthconfSectionParts
  dsimp only
  by_cases digits : (p :: ports).all isdigit
  · rw [if_pos digits]
  · rw [if_neg digits, number.resolve_left digits]

structure Normal (parts : Parts) (user start : CString) : Prop where
  title : parts.title = user ++ 64 :: parts.host ++ 58 :: parts.port
  user_ : 64 ∉ user
  fixedUser : parts.fixedUser = decide (user ≠ [])
  host : parts.host ≠ []
  name : NameOf start (user ++ 64 :: parts.host)
  at_ : 64 ∈ start
  port : parts.port ≠ [] ∧ (58 ∉ parts.port ∧ 91 ∉ parts.port ∧ 93 ∉ parts.port)
  number : parts.port.all isdigit ∨ services parts.port = none
  fits : parts.title.length < largebuf

theorem NameOf.behind {start name : CString} (name_ : NameOf start name) : NameOf (64 :: start) (64 :: name) := by
  cases name_ with
  | bare plain => exact .bare (by simpa using plain)
  | @bracketed front first rest after front_ first_ rest_ after_ =>
    simpa using @NameOf.bracketed (64 :: front) first rest after (by simpa using front_) first_ rest_ after_

theorem NameOf.ends {start user : CString} (name_ : NameOf start (user ++ [64])) (at_ : 64 ∈ start) (noAt : 64 ∉ user) :
    58 ∉ user ∧ 91 ∉ user ∧ 93 ∉ user := by
  generalize same : user ++ [64] = name at name_
  cases name_ with
  | bare plain =>
    subst same
    simpa using plain
  | @bracketed front first rest after =>
    obtain ⟨i, less, found⟩ := idxOf_within at_ (58 :: rest ++ 93 :: after)
    rw [<- List.append_assoc, <- same, idxOf_first noAt, Option.some.injEq] at found
    have lengths := congrArg List.length same
    simp at lengths less
    omega

theorem localhost_plain : cstr "localhost" ≠ [] ∧ 58 ∉ cstr "localhost" ∧ 91 ∉ cstr "localhost" ∧ 93 ∉ cstr "localhost" ∧
    (cstr "localhost").length = 9 := by
  decide +kernel

theorem NameOf.includes {start name : CString} (name_ : NameOf start name) {b : UInt8} (member : b ∈ start) : b ∈ name := by
  cases name_ with
  | bare _ => exact member
  | bracketed _ _ _ _ =>
    rw [List.append_assoc]
    exact List.mem_append_left _ member

theorem TitleOf.parted {title name : CString} {port : Option CString} (title_ : TitleOf title name port) :
    ∃ user host start, 64 ∉ user ∧ titleUser title = (if user = [] then none else some user) ∧
      (match title.idxOf? 64 with
        | some at_ => name.drop (at_ + 1)
        | none => name) = host ∧
      user.length + host.length ≤ name.length ∧
      NameOf start (user ++ 64 :: if host = [] then cstr "localhost" else host) ∧ 64 ∈ start := by
  obtain ⟨start, name_, at_⟩ := title_.name
  by_cases member : 64 ∈ title
  · have inStart : 64 ∈ start := by simpa [member] using at_
    obtain ⟨user, host, rfl, noAt⟩ := List.eq_append_cons_of_mem (name_.includes inStart)
    have whole : title = user ++ 64 :: (host ++ (port.map (58 :: ·)).getD []) := by
      rw [title_.whole, List.append_assoc, List.cons_append]
    have atPlace : title.idxOf? 64 = some user.length := by
      rw [whole, idxOf_first noAt]
    have named : titleUser title = if user = [] then none else some user := by
      rw [whole, titleUser_eq noAt]
    by_cases empty : host = []
    · subst empty
      refine ⟨user, [], user ++ 64 :: cstr "localhost", noAt, named, ?_, by simp, ?_, by simp⟩
      · rw [atPlace]
        simp
      · have plain := name_.ends inStart noAt
        have local_ := localhost_plain
        exact .bare (by simp [plain, local_])
    · refine ⟨user, host, start, noAt, named, ?_, by simp, ?_, inStart⟩
      · rw [atPlace]
        simp
      · rw [if_neg empty]
        exact name_
  · have noPlace : title.idxOf? 64 = none := List.idxOf?_eq_none_iff.mpr member
    have named : titleUser title = none := by rw [titleUser, noPlace]
    by_cases empty : name = []
    · refine ⟨[], name, 64 :: cstr "localhost", by simp, named, by rw [noPlace], by simp, ?_, by simp⟩
      have local_ := localhost_plain
      rw [if_pos empty]
      exact .bare (by simp [local_])
    · refine ⟨[], name, 64 :: start, by simp, named, by rw [noPlace], by simp, ?_, by simp⟩
      rw [if_neg empty]
      exact name_.behind

theorem named_parts {sectName : CString} {parts : Parts} (named : namedSection services sectName = some parts) :
    ∃ user start, titleUser sectName = (if user = [] then none else some user) ∧
      parts.title = snprintf largebuf (user ++ 64 :: parts.host ++ 58 :: parts.port) ∧
      (user ++ 64 :: parts.host ++ 58 :: parts.port).length ≤ sectName.length + 17 ∧
      ((user ++ 64 :: parts.host ++ 58 :: parts.port).length < largebuf -> Normal services parts user start) := by
  unfold namedSection at named
  obtain ⟨colon, found, same⟩ := Option.map_eq_some_iff.mp named
  obtain ⟨name, port, title, rfl⟩ := portColon_title found
  have nameOf : (match port.map fun _ => name.length with
      | some colon => sectName.take colon
      | none => sectName) = name := by
    rw [title.whole]
    cases port <;> simp
  have portOf : ((port.map fun _ => name.length).map fun colon => sectName.drop (colon + 1)) = port := by
    rw [title.whole]
    cases port <;> simp
  dsimp only at same
  rw [nameOf, portOf] at same
  obtain ⟨nonempty, plain, number, portLength⟩ := normalize_port services _ _ title.port same
  obtain ⟨user, host, start, noAt, named, hostOf, lengths, name_, at_⟩ := title.parted
  rw [hostOf] at same
  have host_ : parts.host = if host = [] then cstr "localhost" else host := by
    rw [<- same]
    cases host <;> rfl
  have title_ : parts.title = snprintf largebuf ((titleUser sectName).getD [] ++ 64 :: parts.host ++ 58 :: parts.port) := by
    rw [<- same]
    rfl
  have user_ : (titleUser sectName).getD [] = user := by
    rw [named]
    split
    · next empty => exact empty.symm
    · rfl
  have whole := congrArg List.length title.whole
  have localhost_ := localhost_plain
  have hostLength : parts.host.length ≤ host.length + 9 := by
    rw [host_]
    split <;> omega
  have portWithin : (port.getD []).length ≤ ((port.map (58 :: ·)).getD []).length := by
    cases port <;> simp
  rw [List.length_append] at whole
  rw [user_] at title_
  refine ⟨user, start, named, title_, ?_, fun fits => ?_⟩
  · simp only [List.length_append, List.length_cons]
    omega
  · rw [snprintf_fits fits] at title_
    refine ⟨title_, noAt, ?_, ?_, ?_, at_, ⟨nonempty, plain⟩, number, title_ ▸ fits⟩
    · rw [<- user_, <- same]
      rfl
    · rw [host_]
      split
      · exact localhost_.1
      · next something => exact something
    · rw [host_]
      exact name_

theorem named_normal {sectName : CString} {parts : Parts} (short : sectName.length ≤ 512)
    (named : namedSection services sectName = some parts) :
    ∃ user start, Normal services parts user start ∧ titleUser sectName = if user = [] then none else some user := by
  obtain ⟨user, start, user_, -, within, normal⟩ := named_parts services named
  have fits : (user ++ 64 :: parts.host ++ 58 :: parts.port).length < largebuf := by
    simp only [largebuf]
    omega
  exact ⟨user, start, normal fits, user_⟩

theorem Normal.named {parts : Parts} {user start : CString} (normal : Normal services parts user start) :
    namedSection services parts.title = some parts := by
  have colon : portColon parts.title = some (some (user ++ 64 :: parts.host).length) := by
    rw [normal.title]
    exact portColon_port normal.name normal.at_ normal.port.2
  have atPlace : parts.title.idxOf? 64 = some user.length := by
    rw [normal.title, List.append_assoc, List.cons_append, idxOf_first normal.user_]
  have named : titleUser parts.title = if user = [] then none else some user := by
    rw [normal.title, List.append_assoc, List.cons_append, titleUser_eq normal.user_]
  have host : ((user ++ 64 :: parts.host ++ 58 :: parts.port).take (user ++ 64 :: parts.host).length).drop (user.length + 1) =
      parts.host := by
    rw [List.take_left]
    simp
  have port : (user ++ 64 :: parts.host ++ 58 :: parts.port).drop ((user ++ 64 :: parts.host).length + 1) = parts.port := by
    rw [drop_behind]
  have user_ : (titleUser parts.title).getD [] = user := by
    rw [named]
    split
    · next empty => exact empty.symm
    · rfl
  have parts_ : normalizeAuthconfSectionParts services (titleUser parts.title) (some parts.host) (some parts.port) = parts := by
    rw [normalize_again services _ normal.host normal.port.1 normal.number, user_, <- normal.title,
      snprintf_fits normal.fits, <- normal.fixedUser]
  unfold namedSection
  rw [colon, atPlace, Option.map_some]
  dsimp only [Option.map_some]
  rw [normal.title, host, port, <- normal.title, parts_]

end Names

end Nut.Nutauth
