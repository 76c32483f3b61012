import Nut.Clients.AuthconfTitles

set_option autoImplicit false

namespace Nut.Nutauth

def portSeparator (sectName : CString) : Option Nat :=
  match sectName.idxOf? 93 with
  | some close => strchrFrom sectName 58 (close + 1)
  | none => sectName.idxOf? 58

def hostText (sectName : CString) : CString :=
  let upToPort := match portSeparator sectName with
    | some colon => sectName.take colon
    | none => sectName
  match sectName.idxOf? 64 with
  | some at_ => upToPort.drop (at_ + 1)
  | none => upToPort

def sectionHost (sectName : CString) : CString :=
  if hostText sectName = [] then cstr "localhost" else hostText sectName

def portText (sectName : CString) : CString :=
  ((portSeparator sectName).map fun colon => sectName.drop (colon + 1)).getD []

section Split

variable (services : Services)

def sectionPort (sectName : CString) : CString :=
  if portText sectName = [] then nutPort
  else match services (portText sectName) with
    | some number => printInt number.toNat
    | none => portText sectName

def sectionTitle (sectName : CString) : CString :=
  (titleUser sectName).getD [] ++ 64 :: sectionHost sectName ++ 58 :: sectionPort services sectName

structure SplitsExactly (sectName : CString) (parts : Parts) (user : Option CString) : Prop where
  user_ : user = titleUser sectName
  host : parts.host = sectionHost sectName
  port : parts.port = sectionPort services sectName
  title : parts.title = sectionTitle services sectName
  again : parts.title.length < largebuf -> ∃ parts', splitAuthconfSection services parts.title = some (parts', user) ∧
    parts'.host = parts.host ∧ parts'.port = parts.port

variable {services} {sectName : CString} {parts : Parts}

theorem portColon_separator {colon : Option Nat} (found : portColon sectName = some colon) : colon = portSeparator sectName := by
  unfold portColon at found
  simp only [Option.ite_none_left_eq_some, Option.some.injEq] at found
  exact found.2.2.symm

theorem split_separator {user : Option CString} (accepted : splitAuthconfSection services sectName = some (parts, user)) :
    portColon sectName = some (portSeparator sectName) := by
  cases found : portColon sectName with
  | none => simp [splitAuthconfSection, found] at accepted
  | some colon => rw [portColon_separator found]

theorem oneCharacterHost_iff (accepted : (portColon sectName).isSome = true) :
    oneCharacterHost sectName ↔ 64 ∉ sectName ∧ 91 ∉ sectName ∧ sectName[1]? = some 58 := by
  obtain ⟨colon, found⟩ := Option.isSome_iff_exists.mp accepted
  obtain ⟨name, port, title, rfl⟩ := portColon_title found
  obtain ⟨start, name_, -⟩ := title.name
  unfold oneCharacterHost
  rw [found]
  refine and_congr_right fun _ => ?_
  constructor
  · intro one
    obtain ⟨text, rfl, length⟩ := Option.map_eq_some_iff.mp (Option.some.inj one)
    have whole : sectName = name ++ 58 :: text := title.whole
    have plainPort := title.port text rfl
    cases name_ with
    | bare plain =>
      obtain ⟨b, rfl⟩ := List.length_eq_one_iff.mp length
      exact ⟨by simp_all, by rw [whole]; rfl⟩
    | bracketed before_ first_ rest_ after_ =>
      simp only [List.length_append, List.length_cons] at length
      omega
  · rintro ⟨noBracket, second⟩
    cases name_ with
    | bracketed before_ first_ rest_ after_ =>
      refine absurd ?_ noBracket
      rw [title.whole]
      simp
    | bare plain =>
      cases port with
      | none =>
        have whole : sectName = name := by simpa using title.whole
        rw [whole] at second
        exact absurd (List.mem_of_getElem? second) plain.1
      | some text =>
        have whole : sectName = name ++ 58 :: text := title.whole
        rw [whole] at second
        match name, second with
        | [], second =>
          rw [List.nil_append, List.getElem?_cons_succ] at second
          exact absurd (List.mem_of_getElem? second) (title.port text rfl).1
        | [b], _ => rfl
        | b :: c :: more, second =>
          obtain rfl : c = 58 := by simpa using second
          exact absurd (by simp) plain.1

theorem named_exactly (numbers : ∀ text, text.all isdigit = true -> services text = none)
    (accepted : portColon sectName = some (portSeparator sectName)) :
    ∃ named, namedSection services sectName = some named ∧ named.host = sectionHost sectName ∧
      named.port = sectionPort services sectName ∧ named.title = snprintf largebuf (sectionTitle services sectName) := by
  have host : (normalizeAuthconfSectionParts services (titleUser sectName) (some (hostText sectName))
      ((portSeparator sectName).map fun colon => sectName.drop (colon + 1))).host = sectionHost sectName := by
    unfold normalizeAuthconfSectionParts sectionHost
    cases hostText sectName <;> rfl
  have port : (normalizeAuthconfSectionParts services (titleUser sectName) (some (hostText sectName))
      ((portSeparator sectName).map fun colon => sectName.drop (colon + 1))).port = sectionPort services sectName := by
    unfold normalizeAuthconfSectionParts sectionPort portText
    cases (portSeparator sectName).map fun colon => sectName.drop (colon + 1) with
    | none => rfl
    | some text =>
      cases text with
      | nil => rfl
      | cons b text =>
        dsimp only [Option.getD_some]
        rw [if_neg (List.cons_ne_nil b text)]
        by_cases digits : (b :: text).all isdigit = true
        · rw [if_pos digits, numbers _ digits]
        · exact (if_neg digits).trans rfl
  refine ⟨_, ?_, host, port, ?_⟩
  · rw [namedSection, accepted]
    rfl
  · rw [sectionTitle, <- host, <- port]
    rfl

theorem split_again {named : Parts} (named_ : namedSection services sectName = some named)
    (same : sectionTitle services sectName = (titleUser sectName).getD [] ++ 64 :: named.host ++ 58 :: named.port)
    (fits : (sectionTitle services sectName).length < largebuf) :
    splitAuthconfSection services named.title = some (named, titleUser sectName) := by
  obtain ⟨user, start, user_, -, -, normal⟩ := named_parts services named_
  have user' : (titleUser sectName).getD [] = user := by
    rw [user_]
    split
    · next empty => exact empty.symm
    · rfl
  rw [same, user'] at fits
  have normal := normal fits
  have title : named.title = user ++ 64 :: (named.host ++ 58 :: named.port) := by
    rw [normal.title, List.append_assoc, List.cons_append]
  have longer : ¬ oneCharacterHost named.title := fun one => one.1 (by rw [title]; simp)
  rw [split_named services longer, normal.named, Option.map_some, title, titleUser_eq normal.user_, user_]

theorem split_cut {user : Option CString} (accepted : splitAuthconfSection services sectName = some (parts, user)) :
    parts.title.length < largebuf := by
  rw [splitAuthconfSection, split_separator accepted] at accepted
  obtain ⟨rfl, -⟩ := Prod.mk.inj (Option.some.inj accepted)
  exact Nat.lt_of_le_of_lt (snprintf_length largebuf _) (by decide)

theorem split_oneCharacter {user : Option CString} (accepted : splitAuthconfSection services sectName = some (parts, user))
    (one : oneCharacterHost sectName) : parts.host = cstr "localhost" ∧ (hostText sectName).length = 1 := by
  have separator := portColon_separator one.2
  have noAt := List.idxOf?_eq_none_iff.mpr one.1
  have someText : 1 < sectName.length := by
    obtain ⟨name, port, title, same⟩ := portColon_title one.2
    obtain ⟨text, rfl, length⟩ := Option.map_eq_some_iff.mp same.symm
    rw [title.whole, List.length_append, length]
    simp
  constructor
  · rw [splitAuthconfSection, one.2, noAt] at accepted
    obtain ⟨rfl, -⟩ := Prod.mk.inj (Option.some.inj accepted)
    rfl
  · unfold hostText
    rw [<- separator, noAt]
    dsimp only
    rw [List.length_take]
    omega

-- A section's text is split as it is written, but for a host of one character without an `@`, and if the title has room.
theorem splits_exactly_iff (numbers : ∀ text, text.all isdigit = true -> services text = none) {user : Option CString}
    (accepted : splitAuthconfSection services sectName = some (parts, user)) :
    SplitsExactly services sectName parts user ↔
      ¬ (64 ∉ sectName ∧ 91 ∉ sectName ∧ sectName[1]? = some 58) ∧ (sectionTitle services sectName).length < largebuf := by
  have colon := split_separator accepted
  obtain ⟨named, named_, host, port, title⟩ := named_exactly numbers colon
  rw [<- oneCharacterHost_iff (by rw [colon]; rfl)]
  constructor
  · intro exactly
    constructor
    · intro one
      obtain ⟨local_, length⟩ := split_oneCharacter accepted one
      have same := exactly.host.symm.trans local_
      rw [sectionHost, if_neg fun empty => by rw [empty] at length; cases length] at same
      rw [same] at length
      revert length
      decide
    · rw [<- exactly.title]
      exact split_cut accepted
  · rintro ⟨longer, fits⟩
    rw [split_named services longer, named_, Option.map_some] at accepted
    obtain ⟨rfl, rfl⟩ := Prod.mk.inj (Option.some.inj accepted)
    constructor
    case user_ => rfl
    case host => exact host
    case port => exact port
    case title => rw [title, snprintf_fits fits]
    case again =>
      intro _
      refine ⟨named, split_again named_ ?_ fits, rfl, rfl⟩
      rw [host, port]
      rfl

end Split

def nutService (name : CString) : Option UInt16 :=
  if name = cstr "nut" then some 3493 else none

theorem splits_exactly_service :
    SplitsExactly nutService (cstr "me@ups:nut") ⟨cstr "me@ups:3493", true, cstr "ups", cstr "3493"⟩ (some (cstr "me")) := by
  refine (splits_exactly_iff ?_ rfl).mpr (by decide)
  intro text digits
  rw [nutService, if_neg]
  rintro rfl
  revert digits
  decide

-- A host of one character is taken for no host.
theorem split_oneCharacterHost :
    splitAuthconfSection nutService (cstr "h:3493") = some (⟨cstr "@localhost:3493", false, cstr "localhost", cstr "3493"⟩, none) ∧
      ¬ SplitsExactly nutService (cstr "h:3493") ⟨cstr "@localhost:3493", false, cstr "localhost", cstr "3493"⟩ none := by
  refine ⟨rfl, fun exactly => ?_⟩
  exact absurd exactly.host (by decide)

end Nut.Nutauth
