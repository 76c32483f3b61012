import Mathlib.Data.List.Infix
import Mathlib.Data.List.TakeWhile
import Nut.Common.Decimal

set_option autoImplicit false

namespace Nut

def strchrFrom (string : CString) (start : Nat) (c : UInt8) : Option Nat :=
  ((string.drop start).findIdx? (· == c)).map (start + ·)

def strstrAt (string needle : CString) : Option Nat :=
  string.tails.findIdx? needle.isPrefixOf

def ulongMax : Nat := 2 ^ 64 - 1
def uintMax : Nat := 2 ^ 32 - 1

def strToUlongStrict (string : CString) : Option Nat :=
  match string with
  | [] => none
  | first :: _ =>
    if first = 43 ∨ first = 45 ∨ isspace (charToInt first) = true then none
    else if string.dropWhile isdigit ≠ [] then none
    else if digitsValue string > ulongMax then none
    else some (digitsValue string)

def strToUintStrict (string : CString) : Option Nat :=
  (strToUlongStrict string).bind fun num => if num > uintMax then none else some num

structure SplitListen where
  ret : Bool
  string : CString
  address : Option Nat
  port : Option Nat
  deriving DecidableEq, Repr

def textAt (string : CString) (offset : Nat) : CString :=
  (string.drop offset).takeWhile (· ≠ 0)

def SplitListen.failed (string : CString) : SplitListen :=
  { ret := false, string, address := none, port := none }

def SplitListen.whole (string : CString) : SplitListen :=
  { ret := true, string, address := some 0, port := none }

def splitPort (string : CString) (host stop colon : Nat) : SplitListen :=
  let p := string.drop (colon + 1)
  if colon = host ∨ p = [] ∨ p.all isdigit = false then .failed string
  else
    match strToUintStrict p with
    | none => .failed string
    | some number =>
      if number > 65535 then .failed string
      else { ret := true, string := string.set stop 0, address := some host, port := some (colon + 1) }

def splitBrackets (string : CString) : SplitListen :=
  match strchrFrom string 0 93, strchrFrom string 0 58 with
  | some stop, some colon =>
    if colon > stop then .failed string
    else
      match strchrFrom string (colon + 1) 58 with
      | none => .failed string
      | some second =>
        if second > stop ∨ (strchrFrom string 1 91).isSome = true ∨ (strchrFrom string (stop + 1) 93).isSome = true then
          .failed string
        else
          match string[stop + 1]? with
          -- Bare brackets are left to the resolver.
          | none => .whole string
          | some b => if b ≠ 58 then .failed string else splitPort string 1 stop (stop + 1)
  | _, _ => .failed string

def splitPlain (string : CString) : SplitListen :=
  match strchrFrom string 0 58 with
  | none => .whole string
  | some colon =>
    match strstrAt string (cstr ":::") with
    | some triple =>
      if strstrAt string (cstr "::") ≠ some triple then .failed string
      else splitPort string 0 (triple + 2) (triple + 2)
    | none => if (strchrFrom string (colon + 1) 58).isSome = true then .whole string else splitPort string 0 colon colon

-- `held` is what the two pointers hold before, and still hold behind an empty string.
def strSplitListen (string : CString) (held : Option Nat × Option Nat) : SplitListen :=
  if string = [] then { ret := false, string, address := held.1, port := held.2 }
  else if string.head? = some 91 then splitBrackets string
  else if (strchrFrom string 0 91).isSome = true ∨ (strchrFrom string 0 93).isSome = true then .failed string
  else splitPlain string

section Searches

variable {string needle : CString} {start i : Nat} {c : UInt8}

theorem strchrFrom_some (found : strchrFrom string start c = some i) : start ≤ i ∧ string[i]? = some c := by
  obtain ⟨k, here, rfl⟩ := Option.map_eq_some_iff.mp found
  obtain ⟨inside, hit, _⟩ := List.findIdx?_eq_some_iff_getElem.mp here
  refine ⟨Nat.le_add_right _ _, ?_⟩
  rw [<- List.getElem?_drop, List.getElem?_eq_getElem inside, beq_iff_eq.mp hit]

theorem strchrFrom_isSome : (strchrFrom string start c).isSome = true ↔ c ∈ string.drop start := by
  rw [strchrFrom, Option.isSome_map, List.findIdx?_isSome]
  simp

theorem strstrAt_some :
    strstrAt string needle = some i ↔ needle <+: string.drop i ∧ i ≤ string.length ∧ ∀ j < i, ¬ needle <+: string.drop j := by
  rw [strstrAt, List.findIdx?_eq_some_iff_getElem]
  simp only [List.isPrefixOf_iff_prefix, List.length_tails, List.getElem_tails]
  constructor
  · rintro ⟨inside, hit, first⟩
    exact ⟨hit, by omega, first⟩
  · rintro ⟨hit, inside, first⟩
    exact ⟨by omega, hit, first⟩

theorem strstrAt_none : strstrAt string needle = none ↔ strstr string needle = false := by
  rw [strstrAt, strstr, List.findIdx?_eq_none_iff, List.any_eq_false]
  simp only [Bool.not_eq_true]

theorem colons_start {rest : CString} : cstr "::" <+: rest ↔ rest[0]? = some 58 ∧ rest[1]? = some 58 := by
  have text : cstr "::" = [58, 58] := by decide
  rw [text]
  cases rest with
  | nil => simp
  | cons a rest => cases rest <;> simp [eq_comm]

theorem threeColons_start {rest : CString} :
    cstr ":::" <+: rest ↔ rest[0]? = some 58 ∧ rest[1]? = some 58 ∧ rest[2]? = some 58 := by
  have text : cstr ":::" = [58, 58, 58] := by decide
  rw [text]
  cases rest with
  | nil => simp
  | cons a rest =>
    cases rest with
    | nil => simp
    | cons b rest => cases rest <;> simp [eq_comm]

theorem strstr_true : strstr string needle = true ↔ ∃ j, needle <+: string.drop j := by
  rw [strstr, List.any_eq_true]
  constructor
  · rintro ⟨rest, member, hit⟩
    obtain ⟨front, split⟩ := (List.mem_tails _ _).mp member
    refine ⟨front.length, ?_⟩
    rw [<- split, List.drop_left]
    exact List.isPrefixOf_iff_prefix.mp hit
  · rintro ⟨j, hit⟩
    exact ⟨string.drop j, (List.mem_tails _ _).mpr (List.drop_suffix j string), List.isPrefixOf_iff_prefix.mpr hit⟩

end Searches

section Texts

variable {string : CString}

theorem textAt_whole (noNul : 0 ∉ string) (offset : Nat) : textAt string offset = string.drop offset :=
  takeWhile_text fun member => noNul (List.mem_of_mem_drop member)

theorem textAt_cut (noNul : 0 ∉ string) {host stop : Nat} (order : host ≤ stop) (inside : stop < string.length) :
    textAt (string.set stop 0) host = (string.take stop).drop host := by
  have cut : string.set stop 0 = string.take stop ++ 0 :: string.drop (stop + 1) := by
    simp [List.set_eq_take_append_cons_drop, inside]
  have front : ∀ b ∈ (string.take stop).drop host, decide (b ≠ 0) = true := fun b member => by
    have own := List.mem_of_mem_take (List.mem_of_mem_drop member)
    simpa using fun zero : b = 0 => noNul (zero ▸ own)
  rw [textAt, cut, List.drop_append_of_le_length (by rw [List.length_take]; omega), List.takeWhile_append_of_pos front]
  simp

theorem textAt_behind (noNul : 0 ∉ string) {stop offset : Nat} (behind : stop < offset) :
    textAt (string.set stop 0) offset = string.drop offset := by
  rw [textAt, List.drop_set_of_lt behind]
  exact textAt_whole noNul offset

end Texts

structure DecimalPort (p : CString) : Prop where
  some_ : p ≠ []
  digits : p.all isdigit = true
  small : digitsValue p ≤ 65535

section Ports

theorem strToUintStrict_digits {p : CString} (some_ : p ≠ []) (digits : p.all isdigit = true) :
    strToUintStrict p = if digitsValue p > uintMax then none else some (digitsValue p) := by
  have order : uintMax < ulongMax := by decide
  obtain ⟨first, rest, rfl⟩ := List.exists_cons_of_ne_nil some_
  have digit : isdigit first = true := by simpa using (List.all_eq_true.mp digits) first List.mem_cons_self
  obtain ⟨skip, notMinus, notPlus⟩ := isdigit_notSpace digit
  have plain : ¬ (first = 43 ∨ first = 45 ∨ isspace (charToInt first) = true) := by simp [skip, notMinus, notPlus]
  have all : (first :: rest).dropWhile isdigit = [] := by
    rw [List.dropWhile_eq_nil_iff]
    exact fun b member => List.all_eq_true.mp digits b member
  rw [strToUintStrict, strToUlongStrict, if_neg plain, if_neg (by simp [all])]
  by_cases huge : digitsValue (first :: rest) > ulongMax
  · rw [if_pos huge, if_pos (by omega)]
    rfl
  · rw [if_neg huge, Option.bind_some]

theorem splitPort_cases (string : CString) (host stop colon : Nat) :
    splitPort string host stop colon = .failed string ∧ ¬ (colon ≠ host ∧ DecimalPort (string.drop (colon + 1))) ∨
      splitPort string host stop colon =
          { ret := true, string := string.set stop 0, address := some host, port := some (colon + 1) } ∧
        colon ≠ host ∧ DecimalPort (string.drop (colon + 1)) := by
  have order : 65535 < uintMax := by decide
  unfold splitPort
  dsimp only
  generalize string.drop (colon + 1) = p
  by_cases bad : colon = host ∨ p = [] ∨ p.all isdigit = false
  · rw [if_pos bad]
    refine Or.inl ⟨rfl, fun ⟨apart, port⟩ => ?_⟩
    obtain same | none_ | other := bad
    · exact apart same
    · exact port.some_ none_
    · rw [port.digits] at other
      cases other
  · rw [if_neg bad]
    simp only [not_or, Bool.not_eq_false] at bad
    obtain ⟨apart, some_, digits⟩ := bad
    rw [strToUintStrict_digits some_ digits]
    by_cases huge : digitsValue p > uintMax
    · rw [if_pos huge]
      refine Or.inl ⟨rfl, fun ⟨_, port⟩ => ?_⟩
      have := port.small
      omega
    · rw [if_neg huge]
      dsimp only
      by_cases large : digitsValue p > 65535
      · rw [if_pos large]
        refine Or.inl ⟨rfl, fun ⟨_, port⟩ => ?_⟩
        have := port.small
        omega
      · rw [if_neg large]
        exact Or.inr ⟨rfl, apart, some_, digits, by omega⟩

end Ports

-- What stands behind `str_split_listen`, whichever way the string is written.
structure Splits (string : CString) (out : SplitListen) : Prop where
  port : out.ret = true -> ∀ offset, out.port = some offset ->
    ∃ start, out.address = some start ∧ DecimalPort (textAt out.string offset) ∧
      (string = textAt out.string start ++ 58 :: textAt out.string offset ∨
        string = 91 :: textAt out.string start ++ 93 :: 58 :: textAt out.string offset)
  whole : out.ret = true -> out.port = none ->
    out.string = string ∧ ∃ start, out.address = some start ∧ textAt out.string start = string
  failed : out.ret = false -> out = .failed string

section Splits

variable {string : CString}

theorem splits_failed (string : CString) : Splits string (.failed string) where
  port done := by cases done
  whole done := by cases done
  failed _ := rfl

theorem splits_whole (noNul : 0 ∉ string) : Splits string (.whole string) where
  port _ offset some_ := by cases some_
  whole _ _ := ⟨rfl, 0, rfl, textAt_whole noNul 0⟩
  failed done := by cases done

theorem split_at {i : Nat} {b : UInt8} (here : string[i]? = some b) : string = string.take i ++ b :: string.drop (i + 1) := by
  obtain ⟨inside, rfl⟩ := List.getElem?_eq_some_iff.mp here
  rw [<- List.drop_eq_getElem_cons inside, List.take_append_drop]

theorem splits_port (noNul : 0 ∉ string) {host stop colon : Nat} (order : host ≤ stop ∧ stop ≤ colon)
    (here : string[colon]? = some 58) (parts : string = (string.take stop).drop host ++ 58 :: string.drop (colon + 1) ∨
      string = 91 :: (string.take stop).drop host ++ 93 :: 58 :: string.drop (colon + 1)) :
    Splits string (splitPort string host stop colon) := by
  obtain ⟨inside, _⟩ := List.getElem?_eq_some_iff.mp here
  obtain ⟨failed, _⟩ | ⟨split, _, port⟩ := splitPort_cases string host stop colon
  · rw [failed]
    exact splits_failed string
  · rw [split]
    refine ⟨fun _ offset some_ => ?_, fun _ none_ => (by cases none_), fun done => (by cases done)⟩
    cases some_
    refine ⟨host, rfl, ?_⟩
    simp only
    rw [textAt_behind noNul (by omega), textAt_cut noNul order.1 (by omega)]
    exact ⟨port, parts⟩

theorem splits_brackets (noNul : 0 ∉ string) (bracket : string.head? = some 91) : Splits string (splitBrackets string) := by
  unfold splitBrackets
  cases closing : strchrFrom string 0 93 with
  | none => exact splits_failed string
  | some stop =>
    cases first : strchrFrom string 0 58 with
    | none => exact splits_failed string
    | some colon =>
      dsimp only
      split
      · exact splits_failed string
      · cases strchrFrom string (colon + 1) 58 with
        | none => exact splits_failed string
        | some second =>
          dsimp only
          split
          · exact splits_failed string
          · cases behind : string[stop + 1]? with
            | none => exact splits_whole noNul
            | some b =>
              dsimp only
              by_cases isColon : b = 58
              · rw [if_neg (by simp [isColon])]
                rw [isColon] at behind
                have close := (strchrFrom_some closing).2
                obtain ⟨rest, rfl⟩ := List.head?_eq_some_iff.mp bracket
                obtain _ | last := stop
                · cases close
                · refine splits_port noNul (by omega) behind (Or.inr ?_)
                  rw [List.getElem?_cons_succ] at close behind
                  have more : rest.drop (last + 1) = 58 :: rest.drop (last + 2) := by
                    obtain ⟨inside, value⟩ := List.getElem?_eq_some_iff.mp behind
                    rw [List.drop_eq_getElem_cons inside, value]
                  have ends := split_at close
                  rw [more] at ends
                  simp only [List.take_succ_cons, List.drop_succ_cons, List.drop_zero, List.cons_append]
                  exact congrArg _ ends
              · rw [if_pos isColon]
                exact splits_failed string

theorem splits_plain (noNul : 0 ∉ string) : Splits string (splitPlain string) := by
  have split_ {colon : Nat} (here : string[colon]? = some 58) : Splits string (splitPort string 0 colon colon) :=
    splits_port noNul ⟨Nat.zero_le _, Nat.le_refl _⟩ here (Or.inl (split_at here))
  unfold splitPlain
  cases first : strchrFrom string 0 58 with
  | none => exact splits_whole noNul
  | some colon =>
    cases three : strstrAt string (cstr ":::") with
    | none =>
      dsimp only
      split
      · exact splits_whole noNul
      · exact split_ (strchrFrom_some first).2
    | some triple =>
      dsimp only
      split
      · exact splits_failed string
      · refine split_ ?_
        have third := (threeColons_start.mp (strstrAt_some.mp three).1).2.2
        rwa [List.getElem?_drop] at third

theorem strSplitListen_splits (noNul : 0 ∉ string) (some_ : string ≠ []) (held : Option Nat × Option Nat) :
    Splits string (strSplitListen string held) := by
  unfold strSplitListen
  rw [if_neg some_]
  split
  next bracket => exact splits_brackets noNul bracket
  next =>
    split
    · exact splits_failed string
    · exact splits_plain noNul

theorem strSplitListen_plain (some_ : string ≠ []) (noOpen : 91 ∉ string) (noClose : 93 ∉ string)
    (held : Option Nat × Option Nat) : strSplitListen string held = splitPlain string := by
  have notFirst : string.head? ≠ some 91 := fun first => noOpen (List.mem_of_head? first)
  have none_ : ¬ ((strchrFrom string 0 91).isSome = true ∨ (strchrFrom string 0 93).isSome = true) := by
    rw [strchrFrom_isSome, strchrFrom_isSome]
    simp [noOpen, noClose]
  rw [strSplitListen, if_neg some_, if_neg notFirst, if_neg none_]

end Splits

def Compressed (string front p : CString) : Prop :=
  string = front ++ 58 :: 58 :: 58 :: p ∧ strstr (front ++ [58]) (cstr "::") = false

section Colons

variable {string front p : CString}

theorem colons_within (front rest : CString) :
    strstr (front ++ [58]) (cstr "::") = true ↔ ∃ j < front.length, cstr "::" <+: (front ++ 58 :: rest).drop j := by
  have same (j k : Nat) (before : j < front.length) (near : k ≤ 1) :
      ((front ++ [58]).drop j)[k]? = ((front ++ 58 :: rest).drop j)[k]? := by
    have whole : front ++ 58 :: rest = (front ++ [58]) ++ rest := by simp
    have inside : j + k < (front ++ [58]).length := by
      rw [List.length_append, List.length_singleton]
      omega
    rw [List.getElem?_drop, List.getElem?_drop, whole]
    exact (List.getElem?_append_left inside).symm
  rw [strstr_true]
  constructor
  · rintro ⟨j, hit⟩
    have both := colons_start.mp hit
    have second := both.2
    rw [List.getElem?_drop] at second
    obtain ⟨inside, _⟩ := List.getElem?_eq_some_iff.mp second
    rw [List.length_append, List.length_singleton] at inside
    have before : j < front.length := by omega
    rw [same j 0 before (by decide), same j 1 before (by decide)] at both
    exact ⟨j, before, colons_start.mpr both⟩
  · rintro ⟨j, before, hit⟩
    have both := colons_start.mp hit
    rw [<- same j 0 before (by decide), <- same j 1 before (by decide)] at both
    exact ⟨j, colons_start.mpr both⟩

theorem strstrAt_compressed {t : Nat} : strstrAt string (cstr ":::") = some t ∧ strstrAt string (cstr "::") = some t ↔
      ∃ front p, Compressed string front p ∧ front.length = t := by
  have two (j : Nat) (three : cstr ":::" <+: string.drop j) : cstr "::" <+: string.drop j := by
    have all := threeColons_start.mp three
    exact colons_start.mpr ⟨all.1, all.2.1⟩
  rw [strstrAt_some, strstrAt_some]
  constructor
  · rintro ⟨⟨⟨p, text⟩, inside, _⟩, _, _, first⟩
    have text' : string.drop t = 58 :: 58 :: 58 :: p := text.symm
    have split : string = string.take t ++ 58 :: 58 :: 58 :: p := by rw [<- text', List.take_append_drop]
    have length : (string.take t).length = t := by rw [List.length_take]; omega
    refine ⟨string.take t, p, ⟨split, ?_⟩, length⟩
    rw [Bool.eq_false_iff]
    intro earlier
    obtain ⟨j, before, hit⟩ := (colons_within _ (58 :: 58 :: p)).mp earlier
    rw [<- split] at hit
    exact first j (by omega) hit
  · rintro ⟨front, p, ⟨split, only⟩, rfl⟩
    have rest : string.drop front.length = 58 :: 58 :: 58 :: p := by rw [split, List.drop_left]
    have hit : cstr ":::" <+: string.drop front.length := by
      rw [rest]
      exact ⟨p, rfl⟩
    have first (j : Nat) (before : j < front.length) : ¬ cstr "::" <+: string.drop j := fun earlier => by
      rw [split] at earlier
      rw [(colons_within front (58 :: 58 :: p)).mpr ⟨j, before, earlier⟩] at only
      cases only
    have inside : front.length ≤ string.length := by
      rw [split, List.length_append]
      omega
    exact ⟨⟨hit, inside, fun j before three => first j before (two j three)⟩, two _ hit, inside, first⟩

theorem strchrFrom_least {c : UInt8} {i : Nat} (found : strchrFrom string 0 c = some i) : c ∉ string.take i := by
  obtain ⟨k, here, rfl⟩ := Option.map_eq_some_iff.mp found
  obtain ⟨_, _, before⟩ := List.findIdx?_eq_some_iff_getElem.mp here
  intro member
  obtain ⟨j, inside, value⟩ := List.getElem_of_mem member
  rw [List.length_take, List.drop_zero] at *
  rw [List.getElem_take] at value
  have other := before j (by omega)
  rw [beq_iff_eq] at other
  exact other value

theorem splitPlain_colons (colons : 2 ≤ string.count 58) (noThree : strstr string (cstr ":::") = false) :
    splitPlain string = .whole string := by
  have any : (strchrFrom string 0 58).isSome = true := by
    rw [strchrFrom_isSome, List.drop_zero, <- List.count_pos_iff]
    omega
  obtain ⟨colon, first⟩ := Option.isSome_iff_exists.mp any
  have more : (strchrFrom string (colon + 1) 58).isSome = true := by
    have parts := congrArg (List.count 58) (split_at (strchrFrom_some first).2)
    rw [List.count_append, List.count_cons_self, List.count_eq_zero.mpr (strchrFrom_least first)] at parts
    rw [strchrFrom_isSome, <- List.count_pos_iff]
    omega
  rw [splitPlain, first, strstrAt_none.mpr noThree]
  exact if_pos more

theorem splitPlain_triple {t : Nat} (three : strstrAt string (cstr ":::") = some t) :
    splitPlain string =
      if strstrAt string (cstr "::") ≠ some t then .failed string else splitPort string 0 (t + 2) (t + 2) := by
  have hit := threeColons_start.mp (strstrAt_some.mp three).1
  have any : (strchrFrom string 0 58).isSome = true := by
    rw [strchrFrom_isSome, List.drop_zero]
    exact List.mem_of_mem_drop (List.mem_of_getElem? hit.1)
  obtain ⟨colon, first⟩ := Option.isSome_iff_exists.mp any
  rw [splitPlain, first, three]

theorem Compressed.behind (compressed : Compressed string front p) : string.drop (front.length + 3) = p := by
  rw [compressed.1, <- List.drop_drop, List.drop_left]
  rfl

theorem splitPlain_compressed (compressed : Compressed string front p) (port : DecimalPort p) :
    splitPlain string =
      { ret := true, string := string.set (front.length + 2) 0, address := some 0, port := some (front.length + 3) } := by
  obtain ⟨three, two⟩ := strstrAt_compressed.mpr ⟨front, p, compressed, rfl⟩
  rw [splitPlain_triple three, if_neg (not_not.mpr two)]
  obtain ⟨_, refused⟩ | ⟨split, _⟩ := splitPort_cases string 0 (front.length + 2) (front.length + 2)
  · rw [compressed.behind] at refused
    exact absurd ⟨by omega, port⟩ refused
  · exact split

theorem splitPlain_refused (three : strstr string (cstr ":::") = true)
    (other : ¬ ∃ front p, Compressed string front p ∧ DecimalPort p) : splitPlain string = .failed string := by
  have found : strstrAt string (cstr ":::") ≠ none := fun none_ => by
    rw [strstrAt_none.mp none_] at three
    cases three
  obtain ⟨t, three⟩ := Option.ne_none_iff_exists'.mp found
  rw [splitPlain_triple three]
  by_cases two : strstrAt string (cstr "::") = some t
  · obtain ⟨front, p, compressed, rfl⟩ := strstrAt_compressed.mp ⟨three, two⟩
    rw [if_neg (not_not.mpr two)]
    obtain ⟨failed, _⟩ | ⟨_, _, port⟩ := splitPort_cases string 0 (front.length + 2) (front.length + 2)
    · exact failed
    · rw [compressed.behind] at port
      exact absurd ⟨front, p, compressed, port⟩ other
  · rw [if_pos two]

end Colons

structure BareSplit (string : CString) (out : SplitListen) : Prop where
  whole : strstr string (cstr ":::") = false -> out = .whole string
  compressed : ∀ front p, Compressed string front p -> DecimalPort p -> out.ret = true ∧
    (∃ offset, out.port = some offset ∧ textAt out.string offset = p) ∧
      ∃ start, out.address = some start ∧ textAt out.string start = front ++ [58, 58]
  refused : strstr string (cstr ":::") = true -> (¬ ∃ front p, Compressed string front p ∧ DecimalPort p) ->
    out = .failed string

theorem splitPlain_bare {string : CString} (noNul : 0 ∉ string) (colons : 2 ≤ string.count 58) :
    BareSplit string (splitPlain string) where
  whole noThree := splitPlain_colons colons noThree
  compressed front p compressed port := by
    have split := compressed.1
    have long : string.length = front.length + (p.length + 3) := by
      rw [split, List.length_append]
      simp only [List.length_cons]
    rw [splitPlain_compressed compressed port]
    refine ⟨rfl, ⟨_, rfl, ?_⟩, 0, rfl, ?_⟩
    · simp only
      rw [textAt_behind noNul (Nat.lt_succ_self _)]
      exact compressed.behind
    · simp only
      rw [textAt_cut noNul (Nat.zero_le _) (by omega), List.drop_zero, split, List.take_length_add_append]
      rfl
  refused three other := splitPlain_refused three other

theorem listen_splitting {string : CString} (noNul : 0 ∉ string) (held : Option Nat × Option Nat) :
    (string ≠ [] -> Splits string (strSplitListen string held)) ∧
      (91 ∉ string -> 93 ∉ string -> 2 ≤ string.count 58 -> BareSplit string (strSplitListen string held)) ∧
      strSplitListen [] held = { ret := false, string := [], address := held.1, port := held.2 } := by
  refine ⟨fun some_ => strSplitListen_splits noNul some_ held, fun noOpen noClose colons => ?_, if_pos rfl⟩
  have some_ : string ≠ [] := fun none_ => by simp [none_] at colons
  rw [strSplitListen_plain some_ noOpen noClose]
  exact splitPlain_bare noNul colons

theorem listen_splitting_sample : Splits (cstr ":::3493") (strSplitListen (cstr ":::3493") (none, none)) ∧
      BareSplit (cstr ":::3493") (strSplitListen (cstr ":::3493") (none, none)) :=
  have facts := @listen_splitting (cstr ":::3493") (by decide) (none, none)
  ⟨facts.1 (by decide), facts.2.1 (by decide) (by decide) (by decide)⟩

-- Neither split nor left whole; and what the pointers held is still there behind an empty string.
theorem listen_refuses_colons : 2 ≤ (cstr ":::1x").count 58 ∧ 91 ∉ cstr ":::1x" ∧ 93 ∉ cstr ":::1x" ∧
      (strSplitListen (cstr ":::1x") (none, none)).ret = false ∧ (strSplitListen [] (some 4, some 9)).address = some 4 := by
  decide

end Nut
