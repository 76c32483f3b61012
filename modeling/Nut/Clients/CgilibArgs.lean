import Mathlib.Data.List.Forall2
import Nut.Clients.Cgilib
import Nut.Common.TokenList

set_option autoImplicit false

namespace Nut

def plainChar (ch : UInt8) : CString :=
  if ch = 0 then [] else [ch]

set_option maxRecDepth 2000 in
def decode (behind : CString) : CString -> Except CgiStop CString
  | [] => .ok []
  | 37 :: h :: l :: rest =>
    match escapedChar h l with
    | .error stop => .error stop
    | .ok ch => (decode behind rest).map (plainChar ch ++ ·)
  | [37, _] => .error (.fatalx "bad escape char")
  | [37] => if behind = [] then .error .overrun else .error (.fatalx "bad escape char")
  | ch :: rest => (decode behind rest).map (plainChar (if ch = 43 then 32 else ch) ++ ·)

section Decode

variable {behind : CString}

theorem snprintfcatChar_fits {dst : CString} {size : Nat} (ch : UInt8) (fits : dst.length + 2 < size) :
    snprintfcatChar dst size ch = dst ++ plainChar ch := by
  unfold snprintfcatChar plainChar
  split
  next => rw [List.append_nil]
  next => exact snprintfcat_fits fits

theorem escapedChar_nul (h : UInt8) : escapedChar h 0 = .error (.fatalx "bad escape char") := by
  have notDigit : isxdigit 0 = false := by decide
  simp [escapedChar, notDigit]

theorem nul_escapedChar (l : UInt8) : escapedChar 0 l = .error (.fatalx "bad escape char") := by
  have notDigit : isxdigit 0 = false := by decide
  simp [escapedChar, notDigit]

theorem plainChar_length (ch : UInt8) : (plainChar ch).length ≤ 1 := by
  unfold plainChar
  split <;> simp

theorem unescapeFrom_eq (buflen i : Nat) (newbuf left : CString) (size : i + left.length + 2 = buflen)
    (room : newbuf.length ≤ i) : unescapeFrom buflen behind i newbuf left = (decode behind left).map (newbuf ++ ·) := by
  fun_induction decode behind left generalizing i newbuf with
  | case1 => simp [unescapeFrom, snprintfcatChar, Except.map]
  | case2 h l rest stop bad =>
    have guard : ¬ i + 2 > buflen := by omega
    simp [unescapeFrom, guard, bad, Except.map]
  | case3 h l rest ch good ih =>
    have guard : ¬ i + 2 > buflen := by omega
    simp only [List.length_cons] at size
    have short := plainChar_length ch
    have later := ih (i + 3) (newbuf ++ plainChar ch) (by omega) (by rw [List.length_append]; omega)
    simp only [unescapeFrom, guard, good, if_false]
    rw [snprintfcatChar_fits ch (by omega), later]
    cases decode behind rest <;> simp [Except.map]
  | case4 h =>
    have guard : ¬ i + 2 > buflen := by omega
    simp [unescapeFrom, guard, escapedChar_nul, Except.map]
  | case5 none_ =>
    have guard : ¬ i + 2 > buflen := by omega
    simp [unescapeFrom, guard, none_, Except.map]
  | case6 some_ =>
    have guard : ¬ i + 2 > buflen := by omega
    obtain ⟨l, more, rfl⟩ := List.exists_cons_of_ne_nil some_
    simp [unescapeFrom, guard, nul_escapedChar, Except.map]
  | case7 ch rest whole one none_ ih =>
    simp only [List.length_cons] at size
    have short := plainChar_length (if ch = 43 then 32 else ch)
    have later := ih (i + 1) (newbuf ++ plainChar (if ch = 43 then 32 else ch)) (by omega)
      (by rw [List.length_append]; omega)
    have step : unescapeFrom buflen behind i newbuf (ch :: rest) =
        unescapeFrom buflen behind (i + 1) (snprintfcatChar newbuf buflen (if ch = 43 then 32 else ch)) rest := by
      simp [unescapeFrom]
    rw [step, snprintfcatChar_fits _ (by omega), later]
    cases decode behind rest <;> simp [Except.map]

theorem unescape_eq (buf behind : CString) : unescape buf behind = decode behind buf := by
  rw [unescape, unescapeFrom_eq _ 0 [] buf (by omega) (by simp)]
  cases decode behind buf <;> rfl

theorem decode_plain {ch : UInt8} (notEscape : ch ≠ 37) (rest : CString) :
    decode behind (ch :: rest) = (decode behind rest).map (plainChar (if ch = 43 then 32 else ch) ++ ·) := by
  rw [decode.eq_def]
  split <;> simp_all

end Decode

section Encode

variable {behind : CString}

theorem isUnreserved_iff {b : UInt8} : isUnreserved b = true ↔ (65 ≤ b.toNat ∧ b.toNat ≤ 90) ∨
    (97 ≤ b.toNat ∧ b.toNat ≤ 122) ∨ (48 ≤ b.toNat ∧ b.toNat ≤ 57) ∨ b.toNat = 45 ∨ b.toNat = 46 ∨ b.toNat = 95 ∨
    b.toNat = 126 := by
  simp [isUnreserved, isdigit, UInt8.le_iff_toNat_le, <- UInt8.toNat_inj, or_assoc]

theorem isUnreserved_ne {b : UInt8} (unreserved : isUnreserved b = true) :
    b ≠ 0 ∧ b ≠ 37 ∧ b ≠ 38 ∧ b ≠ 43 ∧ b ≠ 61 := by
  have bounds := isUnreserved_iff.mp unreserved
  simp only [ne_eq, <- UInt8.toNat_inj]
  simp
  omega

theorem upperHexDigit_value :
    ∀ n < 16, isxdigit (upperHexDigit n) = true ∧ isUnreserved (upperHexDigit n) = true ∧ hexValue (upperHexDigit n) = n := by
  decide

theorem escapedChar_upperHex {b : UInt8} (line : b ≠ 10 ∧ b ≠ 13) :
    escapedChar (upperHexDigit (b.toNat / 16)) (upperHexDigit (b.toNat % 16)) = .ok b := by
  have bound := b.toNat_lt
  obtain ⟨high, _, highValue⟩ := upperHexDigit_value (b.toNat / 16) (by omega)
  obtain ⟨low, _, lowValue⟩ := upperHexDigit_value (b.toNat % 16) (by omega)
  have whole : 16 * (b.toNat / 16) + b.toNat % 16 = b.toNat := by omega
  simp [escapedChar, high, low, highValue, lowValue, whole, line]

def Clean (text : CString) : Prop :=
  ∀ b ∈ text, b ≠ 0 ∧ b ≠ 10 ∧ b ≠ 13

theorem decode_char {b : UInt8} (clean : b ≠ 0 ∧ b ≠ 10 ∧ b ≠ 13) (rest : CString) :
    decode behind (urlPrintChar b ++ rest) = (decode behind rest).map ([b] ++ ·) := by
  unfold urlPrintChar
  split
  next unreserved =>
    obtain ⟨_, notEscape, _, notPlus, _⟩ := isUnreserved_ne unreserved
    rw [List.singleton_append, decode_plain notEscape, if_neg notPlus, plainChar, if_neg clean.1]
  next =>
    simp only [List.cons_append, List.nil_append, decode, escapedChar_upperHex clean.2]
    rw [plainChar, if_neg clean.1]
    rfl

theorem urlPrintEsc_cons (b : UInt8) (text : CString) : urlPrintEsc (b :: text) = urlPrintChar b ++ urlPrintEsc text := rfl

theorem except_map_id {ε α : Type} (result : Except ε α) : result.map (fun value => value) = result := by
  cases result <;> rfl

theorem decode_urlPrintEsc {text : CString} (clean : Clean text) (rest : CString) :
    decode behind (urlPrintEsc text ++ rest) = (decode behind rest).map (text ++ ·) := by
  induction text with
  | nil => exact (except_map_id _).symm
  | cons b text ih =>
    have later := ih fun c member => clean c (List.mem_cons_of_mem b member)
    rw [urlPrintEsc_cons, List.append_assoc, decode_char (clean b List.mem_cons_self), later]
    cases decode behind rest <;> simp [Except.map]

theorem unescape_urlPrintEsc {text : CString} (clean : Clean text) (behind : CString) :
    unescape (urlPrintEsc text) behind = .ok text := by
  have decoded := @decode_urlPrintEsc behind text clean []
  rw [List.append_nil] at decoded
  simp [unescape_eq, decoded, decode, Except.map]

theorem urlPrintEsc_free (text : CString) : 38 ∉ urlPrintEsc text ∧ 61 ∉ urlPrintEsc text ∧ 0 ∉ urlPrintEsc text := by
  have each (b c : UInt8) (member : c ∈ urlPrintChar b) : isUnreserved c = true ∨ c = 37 := by
    unfold urlPrintChar at member
    have bound := b.toNat_lt
    split at member
    next unreserved =>
      rw [List.mem_singleton.mp member]
      exact .inl unreserved
    next =>
      simp only [List.mem_cons, List.not_mem_nil, or_false] at member
      obtain rfl | rfl | rfl := member
      · exact .inr rfl
      · exact .inl (upperHexDigit_value _ (by omega)).2.1
      · exact .inl (upperHexDigit_value _ (by omega)).2.1
  have free (c : UInt8) (special : isUnreserved c = false ∧ c ≠ 37) : c ∉ urlPrintEsc text := by
    intro member
    obtain ⟨b, _, inside⟩ := List.mem_flatMap.mp member
    obtain unreserved | escape := each b c inside
    · rw [special.1] at unreserved
      cases unreserved
    · exact special.2 escape
  exact ⟨free 38 (by decide), free 61 (by decide), free 0 (by decide)⟩

theorem urlPrintEsc_longer (text : CString) : text.length ≤ (urlPrintEsc text).length := by
  induction text with
  | nil => exact Nat.le_refl _
  | cons b text ih =>
    have one : 1 ≤ (urlPrintChar b).length := by
      unfold urlPrintChar
      split <;> simp
    rw [urlPrintEsc_cons, List.length_append, List.length_cons]
    omega

theorem urlPrintEsc_self (text : CString) : urlPrintEsc text = text ↔ ∀ b ∈ text, isUnreserved b = true := by
  induction text with
  | nil => simp [urlPrintEsc]
  | cons b text ih =>
    simp only [List.forall_mem_cons, <- ih, urlPrintEsc_cons]
    by_cases unreserved : isUnreserved b = true
    · simp [urlPrintChar, unreserved]
    · have more := urlPrintEsc_longer text
      have different : urlPrintChar b ++ urlPrintEsc text ≠ b :: text := by
        intro same
        have length := congrArg List.length same
        simp only [urlPrintChar, unreserved, Bool.false_eq_true, if_false, List.length_append, List.length_cons,
          List.length_nil] at length
        omega
      simp [different, unreserved]

end Encode

structure CgiPair where
  name : CString
  value : CString
  nonempty : name ≠ []
  cleanName : Clean name
  cleanValue : Clean value
  shortName : (urlPrintEsc name).length < smallbuf / 2
  shortValue : (urlPrintEsc value).length < smallbuf / 2

def CgiPair.call (pair : CgiPair) : CString × CString :=
  (pair.name, pair.value)

def CgiPair.text (pair : CgiPair) : CString :=
  urlPrintEsc pair.name ++ 61 :: urlPrintEsc pair.value

def queryOf (pairs : List CgiPair) : CString :=
  ([38] : CString).intercalate (pairs.map CgiPair.text)

section Strchr

variable {c : UInt8}

theorem strchr_append {before : CString} (free : c ∉ before) (behind : CString) :
    strchr c (before ++ c :: behind) = some (before, behind) := by
  induction before with
  | nil => simp [strchr]
  | cons b before ih =>
    rw [List.mem_cons, not_or] at free
    simp [strchr, Ne.symm free.1, ih free.2]

theorem strchr_none {s : CString} (free : c ∉ s) : strchr c s = none := by
  induction s with
  | nil => rfl
  | cons b s ih =>
    rw [List.mem_cons, not_or] at free
    simp [strchr, Ne.symm free.1, ih free.2]

end Strchr

section Get

theorem pairToken_pair (pair : CgiPair) (next : Option CString) :
    pairToken (urlPrintEsc pair.name) (urlPrintEsc pair.value) next = (.ok pair.call, next) := by
  simp [pairToken, unescape_urlPrintEsc pair.cleanName, unescape_urlPrintEsc pair.cleanValue, CgiPair.call, bind,
    Except.bind, pure, Except.pure]

theorem cgiToken_last (pair : CgiPair) : cgiToken pair.text = (.ok pair.call, none) := by
  have free := urlPrintEsc_free pair.name
  have freeValue := urlPrintEsc_free pair.value
  have noAmp : 38 ∉ pair.text := by simp [CgiPair.text, free.1, freeValue.1]
  have eq : strchr 61 pair.text = some (urlPrintEsc pair.name, urlPrintEsc pair.value) := strchr_append free.2.1 _
  simp [cgiToken, eq, strchr_none noAmp, assignment, strchr_none freeValue.1, pairToken_pair]

theorem cgiToken_more (pair : CgiPair) (rest : CString) : cgiToken (pair.text ++ 38 :: rest) = (.ok pair.call, some rest) := by
  have free := urlPrintEsc_free pair.name
  have freeValue := urlPrintEsc_free pair.value
  have noAmp : 38 ∉ pair.text := by simp [CgiPair.text, free.1, freeValue.1]
  have eq : strchr 61 (pair.text ++ 38 :: rest) = some (urlPrintEsc pair.name, urlPrintEsc pair.value ++ 38 :: rest) := by
    have split : pair.text ++ 38 :: rest = urlPrintEsc pair.name ++ 61 :: (urlPrintEsc pair.value ++ 38 :: rest) := by
      simp [CgiPair.text]
    rw [split, strchr_append free.2.1]
  have later : ¬ pair.text.length < (urlPrintEsc pair.name).length := by
    simp only [CgiPair.text, List.length_append]
    omega
  simp [cgiToken, eq, strchr_append noAmp, later, assignment, strchr_append freeValue.1, pairToken_pair]

theorem extractFrom_step (ptr : CString) : extractFrom ptr =
    match cgiToken ptr with
    | (call, some next) => CgiRun.andThen call (extractFrom next)
    | (call, none) => CgiRun.andThen call ⟨[], none⟩ := by
  rw [extractFrom]
  split <;> simp_all

theorem extractcgiargs_queryOf (pairs : List CgiPair) :
    extractcgiargs (some (queryOf pairs)) = ⟨pairs.map CgiPair.call, none⟩ := by
  have loop (pair : CgiPair) (rest : List CgiPair) :
      extractFrom (queryOf (pair :: rest)) = ⟨(pair :: rest).map CgiPair.call, none⟩ := by
    induction rest generalizing pair with
    | nil =>
      rw [queryOf, List.map_singleton, List.intercalate_singleton, extractFrom_step, cgiToken_last]
      rfl
    | cons second rest ih =>
      have split : queryOf (pair :: second :: rest) = pair.text ++ 38 :: queryOf (second :: rest) := by
        simp [queryOf, List.intercalate_cons_cons]
      rw [split, extractFrom_step, cgiToken_more]
      simp [ih, CgiRun.andThen]
  cases pairs with
  | nil => rfl
  | cons pair rest =>
    have some_ : queryOf (pair :: rest) ≠ [] := by
      intro none_
      have member : 61 ∈ queryOf (pair :: rest) := by
        rw [queryOf, List.map_cons, intercalate_cons_map]
        simp [CgiPair.text]
      rw [none_] at member
      cases member
    rw [extractcgiargs, if_neg some_, loop]

end Get

set_option maxRecDepth 2000 in
def decodable : CString -> Bool
  | [] => true
  | 37 :: h :: l :: rest => isxdigit h && isxdigit l && decodable rest
  | [37, _] => false
  | [37] => false
  | _ :: rest => decodable rest

set_option maxRecDepth 2000 in
-- Behind complete escapes the text ends with a percent sign.
def dangling : CString -> Bool
  | [] => false
  | 37 :: h :: l :: rest => isxdigit h && isxdigit l && dangling rest
  | [37, _] => false
  | [37] => true
  | _ :: rest => dangling rest

section Bounds

variable {behind : CString}

theorem escapedChar_cases (h l : UInt8) : (∃ ch, escapedChar h l = .ok ch ∧ isxdigit h = true ∧ isxdigit l = true) ∨
    escapedChar h l = .error (.fatalx "bad escape char") ∧ (isxdigit h && isxdigit l) = false := by
  by_cases high : isxdigit h = true <;> by_cases low : isxdigit l = true <;> simp [escapedChar, high, low]

theorem decode_ok_iff (s : CString) : (∃ text, decode behind s = .ok text) ↔ decodable s = true := by
  fun_induction decodable s with
  | case1 => exact ⟨fun _ => rfl, fun _ => ⟨[], rfl⟩⟩
  | case2 h l rest ih =>
    obtain ⟨ch, good, high, low⟩ | ⟨bad, which⟩ := escapedChar_cases h l
    · rw [high, low, Bool.true_and, Bool.true_and, <- ih]
      cases later : decode behind rest <;> simp [decode, good, later, Except.map]
    · simp [decode, bad, which]
  | case3 => simp [decode]
  | case4 =>
    simp only [decode]
    split <;> simp
  | case5 ch rest whole one none_ ih =>
    have notEscape : ch ≠ 37 := by rcases rest with _ | ⟨_, _ | _⟩ <;> grind
    rw [decode_plain notEscape, <- ih]
    cases decode behind rest <;> simp [Except.map]

theorem decode_overrun_iff (s : CString) : decode behind s = .error .overrun ↔ behind = [] ∧ dangling s = true := by
  fun_induction dangling s with
  | case1 => simp [decode]
  | case2 h l rest ih =>
    obtain ⟨ch, good, high, low⟩ | ⟨bad, which⟩ := escapedChar_cases h l
    · rw [high, low, Bool.true_and, Bool.true_and, <- ih]
      cases later : decode behind rest <;> simp [decode, good, later, Except.map]
    · simp [decode, bad, which]
  | case3 => simp [decode]
  | case4 =>
    simp only [decode, and_true]
    split <;> simp_all
  | case5 ch rest whole one none_ ih =>
    have notEscape : ch ≠ 37 := by rcases rest with _ | ⟨_, _ | _⟩ <;> grind
    rw [decode_plain notEscape, <- ih]
    cases decode behind rest <;> simp [Except.map]

theorem dangling_append {c : UInt8} (separator : isxdigit c = false) (notEscape : c ≠ 37) (a b : CString) :
    dangling (a ++ c :: b) = (decodable a && dangling b) := by
  fun_induction decodable a with
  | case1 => simp [dangling, notEscape]
  | case2 h l rest ih => simp [dangling, ih, Bool.and_assoc]
  | case3 h => simp [dangling, separator]
  | case4 =>
    cases b with
    | nil => simp [dangling]
    | cons x b => simp [dangling, separator]
  | case5 ch rest whole one none_ ih =>
    have notPercent : ch ≠ 37 := by
      intro escape
      match rest with
      | [] => exact none_ escape rfl
      | [h] => exact one h escape rfl
      | h :: l :: rest => exact whole h l rest escape rfl
    simp [dangling, notPercent, ih]

theorem behindNul_some (next : CString) : behindNul (some next) ≠ [] := by
  simp [behindNul]

structure TokenBounds (ptr : CString) (token : Except CgiStop (CString × CString) × Option CString) : Prop where
  last : token.2 = none -> (token.1 = .error .overrun ↔ dangling ptr = true)
  more : ∀ next, token.2 = some next -> token.1 ≠ .error .overrun ∧
    (dangling ptr = true ↔ (∃ call, token.1 = .ok call) ∧ dangling next = true)

theorem flagToken_last (ptr : CString) : TokenBounds ptr (flagToken ptr none) := by
  refine ⟨fun _ => ?_, fun next more => by cases more⟩
  have overrun := @decode_overrun_iff [] ptr
  simp only [flagToken, unescape_eq, behindNul, Option.map_none, Option.getD_none]
  cases result : decode [] ptr <;> simp_all [Except.map]

theorem flagToken_more (varname next : CString) : TokenBounds (varname ++ 38 :: next) (flagToken varname (some next)) := by
  refine ⟨fun none_ => (by cases none_), fun rest more => ?_⟩
  obtain rfl : next = rest := by simpa [flagToken] using more
  have overrun := @decode_overrun_iff (behindNul (some next)) varname
  have good := @decode_ok_iff (behindNul (some next)) varname
  simp only [behindNul_some, false_and, iff_false] at overrun
  rw [dangling_append (by decide) (by decide), Bool.and_eq_true, <- good]
  simp only [flagToken, unescape_eq]
  cases result : decode (behindNul (some next)) varname <;> simp_all [Except.map]

theorem pairToken_bounds (name value : CString) (next : Option CString) :
    ((pairToken name value next).1 = .error .overrun ↔ decodable name = true ∧ next = none ∧ dangling value = true) ∧
    ((∃ call, (pairToken name value next).1 = .ok call) ↔ decodable name = true ∧ decodable value = true) := by
  have nameBehind : value ++ 0 :: behindNul next ≠ [] := by simp
  have nameOverrun := @decode_overrun_iff (value ++ 0 :: behindNul next) name
  have nameGood := @decode_ok_iff (value ++ 0 :: behindNul next) name
  have valueOverrun := @decode_overrun_iff (behindNul next) value
  have valueGood := @decode_ok_iff (behindNul next) value
  have valueBehind : behindNul next = [] ↔ next = none := by
    cases next <;> simp [behindNul]
  rw [valueBehind] at valueOverrun
  rw [<- nameGood, <- valueGood]
  simp only [nameBehind, false_and, iff_false] at nameOverrun
  simp only [pairToken, unescape_eq, bind, Except.bind, pure, Except.pure]
  cases first : decode (value ++ 0 :: behindNul next) name with
  | error stop => simp_all
  | ok cleanvar => cases second : decode (behindNul next) value <;> simp_all

theorem assignment_bounds (name value : CString) : TokenBounds (name ++ 61 :: value) (assignment name value) := by
  have whole := @dangling_append 61 (by decide) (by decide) name value
  unfold assignment
  split
  next value next cut =>
    obtain ⟨rfl, _⟩ := strchr_some cut
    obtain ⟨overrun, good⟩ := pairToken_bounds name value (some next)
    refine ⟨fun none_ => (by cases none_), fun rest more => ?_⟩
    obtain rfl : next = rest := by simpa [pairToken] using more
    rw [whole, dangling_append (by decide) (by decide), good]
    simp [overrun, and_assoc]
  next =>
    obtain ⟨overrun, _⟩ := pairToken_bounds name value none
    refine ⟨fun _ => ?_, fun next more => by cases more⟩
    rw [overrun, whole]
    simp

theorem cgiToken_bounds (ptr : CString) : TokenBounds ptr (cgiToken ptr) := by
  unfold cgiToken
  split
  next => exact flagToken_last ptr
  next amp =>
    rw [(strchr_some amp).1]
    exact flagToken_more _ _
  next eq _ =>
    rw [(strchr_some eq).1]
    exact assignment_bounds _ _
  next eq amp =>
    split
    next =>
      rw [(strchr_some amp).1]
      exact flagToken_more _ _
    next =>
      rw [(strchr_some eq).1]
      exact assignment_bounds _ _

theorem andThen_stop (call : Except CgiStop (CString × CString)) (rest : CgiRun) :
    (CgiRun.andThen call rest).stop = some .overrun ↔
      call = .error .overrun ∨ (∃ args, call = .ok args) ∧ rest.stop = some .overrun := by
  cases call <;> simp [CgiRun.andThen]

theorem extractFrom_overrun (ptr : CString) : (extractFrom ptr).stop = some .overrun ↔ dangling ptr = true := by
  induction ptr using extractFrom.induct with
  | case1 ptr call next token ih =>
    have bounds := cgiToken_bounds ptr
    rw [token] at bounds
    obtain ⟨within, continues⟩ := bounds.more next rfl
    simp only at within continues
    rw [extractFrom_step, token]
    simp [andThen_stop, within, continues, ih]
  | case2 ptr call token =>
    have bounds := cgiToken_bounds ptr
    rw [token] at bounds
    rw [extractFrom_step, token]
    simpa [andThen_stop] using bounds.last rfl

theorem extractcgiargs_overrun (query : CString) :
    (extractcgiargs (some query)).stop = some .overrun ↔ dangling query = true := by
  by_cases none_ : query = []
  · simp [extractcgiargs, none_, dangling]
  · simp [extractcgiargs, none_, extractFrom_overrun]

end Bounds

end Nut
