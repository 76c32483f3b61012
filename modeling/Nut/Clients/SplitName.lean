import Nut.Common.Str

set_option autoImplicit false

namespace Nut

-- NUT_PORT
def upsdPort : UInt16 := 3493

def deref (buffer : CString) (pointer : Option Nat) : Option UInt8 :=
  pointer.map fun at_ => (textAt buffer at_).headD 0

def xstrdup (buffer : CString) (pointer : Option Nat) : Option CString :=
  pointer.map (textAt buffer)

structure StrtokR where
  buffer : CString
  token : Option Nat
  last : Nat

def strtokR (delim buffer : CString) (start : Nat) : StrtokR :=
  let begin_ := start + ((textAt buffer start).takeWhile (· ∈ delim)).length
  let stop := begin_ + ((textAt buffer begin_).takeWhile (· ∉ delim)).length
  if begin_ = stop then { buffer, token := none, last := begin_ }
  else if textAt buffer stop = [] then { buffer, token := some begin_, last := stop }
  else { buffer := buffer.set stop 0, token := some begin_, last := stop + 1 }

-- What the two functions return, and what they leave behind the pointers; `none` was not written, or is NULL.
structure SplitName where
  ret : Int
  upsname : Option CString
  hostname : Option CString
  port : Option UInt16
  deriving DecidableEq, Repr

namespace SplitName

def failed : SplitName :=
  { ret := -1, upsname := none, hostname := none, port := none }

def readPort (out : SplitName) (tmp : CString) (s : Option Nat) : Option SplitName :=
  s.map fun s =>
    let text := textAt tmp (s + 1)
    if text = [] ∨ (strtol text).toInt < 1 ∨ (strtol text).toInt > 65535 then { out with ret := -1 }
    else { out with ret := 0, port := some (UInt16.ofNat (strtol text).toInt.toNat) }

end SplitName

def upscliSplitaddr (buf : CString) : Option SplitName :=
  let tmp := snprintf smallbuf buf
  if buf.length < 1 then some .failed
  else if tmp.headD 0 = 91 then
    if strchrFrom tmp 0 93 = none then some .failed
    else
      let first := strtokR [93] tmp 1
      let out : SplitName := { SplitName.failed with hostname := xstrdup first.buffer first.token }
      if out.hostname = none then some out
      else do
        let second := strtokR [] first.buffer first.last
        if second.token = none then some { out with ret := 0, port := some upsdPort }
        else if (<- deref second.buffer second.token) ≠ 58 then some { out with ret := 0, port := some upsdPort }
        else out.readPort second.buffer second.token
  else
    let s := strchrFrom tmp 0 58
    let first := strtokR [58] tmp 0
    let out : SplitName := { SplitName.failed with hostname := xstrdup first.buffer first.token }
    if out.hostname = none then some out
    else if s = none then some { out with ret := 0, port := some upsdPort }
    else out.readPort first.buffer s

def upscliSplitname (buf : CString) : Option SplitName :=
  let tmp := snprintf smallbuf buf
  if buf.length < 1 then some .failed
  else do
    let sat := strchrFrom tmp 0 64
    let ssc := strchrFrom tmp 0 58
    if sat = some 0 then some .failed
    else
      let first := strtokR [64] tmp 0
      let out : SplitName := { SplitName.failed with upsname := xstrdup first.buffer first.token }
      if out.upsname = none then some out
      else if (<- deref first.buffer first.token) = 0 then some out
      else if sat = none then
        if ssc.isSome then some out else some { out with ret := 0, hostname := some (cstr "localhost"), port := some upsdPort }
      else if (<- deref first.buffer (sat.map (· + 1))) = 0 then some out
      else
        let host <- upscliSplitaddr (textAt first.buffer ((<- sat) + 1))
        some { host with upsname := out.upsname }

section Forms

variable {s a n h p x : CString} {port : UInt16}

structure PortNumber (p : CString) (port : UInt16) : Prop where
  decimal : DecimalPort p
  value : digitsValue p = port.toNat
  positive : 1 ≤ port.toNat

inductive AddrForm (a h : CString) (port : UInt16) : Prop where
  | host (split : a = h) (some_ : h ≠ []) (plain : 58 ∉ h) (standard : port = upsdPort)
  | hostPort (p : CString) (split : a = h ++ 58 :: p) (some_ : h ≠ []) (plain : 58 ∉ h) (number : PortNumber p port)
  | addr (split : a = 91 :: (h ++ [93])) (some_ : h ≠ []) (plain : 93 ∉ h) (standard : port = upsdPort)
  | addrPort (p : CString) (split : a = 91 :: (h ++ 93 :: 58 :: p)) (some_ : h ≠ []) (plain : 93 ∉ h)
      (number : PortNumber p port)

-- `upsname`, or `upsname@` and an address.
inductive NameForm (s n h : CString) (port : UInt16) : Prop where
  | name (split : s = n) (some_ : n ≠ []) (plain : 64 ∉ n ∧ 58 ∉ n) (local_ : h = cstr "localhost" ∧ port = upsdPort)
  | named (a : CString) (split : s = n ++ 64 :: a) (some_ : n ≠ []) (plain : 64 ∉ n ∧ 58 ∉ n) (addr : AddrForm a h port)

structure SplitsExactly (s : CString) : Prop where
  safe : ∃ out, upscliSplitname s = some out
  takes : ∀ out, upscliSplitname s = some out ->
    (out.ret = 0 ↔ s.length < smallbuf ∧ ∃ n h port, NameForm s n h port)
  parts : ∀ out, upscliSplitname s = some out -> out.ret = 0 ->
    ∃ n h port, NameForm s n h port ∧ out.upsname = some n ∧ out.hostname = some h ∧ out.port = some port

end Forms

def addrParts (a : CString) : Option (CString × Option CString) :=
  if a.headD 0 = 91 then
    let y := (a.drop 1).dropWhile (· = 93)
    let host := y.takeWhile (· ≠ 93)
    let rest := (y.dropWhile (· ≠ 93)).drop 1
    if 93 ∉ a ∨ host = [] then none else some (host, if rest.headD 0 = 58 then some (rest.drop 1) else none)
  else
    let host := (a.dropWhile (· = 58)).takeWhile (· ≠ 58)
    if host = [] then none
    else if 58 ∉ a then some (host, none)
    else if a.headD 0 = 58 then some (host, some ((a.takeWhile (· = 58) ++ host).drop 1))
    else some (host, some ((a.dropWhile (· ≠ 58)).drop 1))

def portTaken (text : CString) : Bool :=
  1 ≤ (strtol text).toInt && (strtol text).toInt ≤ 65535

def addrTaken (a : CString) : Bool :=
  (addrParts a).any fun parts => parts.2.all portTaken

def addrText (t : CString) : CString :=
  (t.dropWhile (· ≠ 64)).drop 1

def nameTaken (t : CString) : Bool :=
  t ≠ [] && t.headD 0 ≠ 64 && if 64 ∉ t then 58 ∉ t else addrText t ≠ [] && addrTaken (addrText t)

def LooseAddr (a : CString) : Prop :=
  if a.headD 0 = 91 then
    let rest := ((a.drop 1).dropWhile (· ≠ 93)).drop 1
    (a.drop 1).takeWhile (· ≠ 93) = [] ∨ rest ≠ [] ∧ (rest.headD 0 ≠ 58 ∨ (rest.drop 1).all isdigit = false)
  else a.headD 0 = 58 ∨ 58 ∈ a ∧ ((a.dropWhile (· ≠ 58)).drop 1).all isdigit = false

instance (a : CString) : Decidable (LooseAddr a) := by
  unfold LooseAddr
  infer_instance

def OpenBracket (a : CString) : Prop :=
  let text := (a.dropWhile (· ≠ 58)).drop 1
  a.headD 0 = 91 ∧ (93 ∉ a ∨ (a.drop 1).all (· = 93)) ∧ (58 ∈ a -> text.all isdigit ∧ portTaken text)

instance (a : CString) : Decidable (OpenBracket a) := by
  unfold OpenBracket
  infer_instance

-- A string that is split although it is too long, or has a colon in the UPS name or an address like that;
-- or one that is not, for the bracket in front of its host.
def Slips (s : CString) : Prop :=
  let t := snprintf smallbuf s
  let name := t.takeWhile (· ≠ 64)
  nameTaken t = true ∧ (smallbuf ≤ s.length ∨ 64 ∈ t ∧ 58 ∈ name ∨ 64 ∈ t ∧ LooseAddr (addrText t)) ∨
    s.length < smallbuf ∧ 64 ∈ t ∧ name ≠ [] ∧ 58 ∉ name ∧ OpenBracket (addrText t)

section Texts

variable {b delim : CString} {i k stop : Nat}

theorem drop_takeWhile {p : UInt8 -> Bool} (l : CString) (short : k ≤ (l.takeWhile p).length) :
    (l.drop k).takeWhile p = (l.takeWhile p).drop k := by
  induction k generalizing l with
  | zero => rfl
  | succ k ih =>
    cases l with
    | nil => simp at short
    | cons c l =>
      by_cases holds : p c = true
      · rw [List.takeWhile_cons_of_pos holds] at short ⊢
        exact ih l (Nat.le_of_succ_le_succ short)
      · rw [List.takeWhile_cons_of_neg holds] at short
        simp at short

theorem textAt_add (short : k ≤ (textAt b i).length) : textAt b (i + k) = (textAt b i).drop k := by
  rw [textAt, <- List.drop_drop]
  exact drop_takeWhile _ short

theorem textAt_set_behind (behind : stop < i) : textAt (b.set stop 0) i = textAt b i := by
  rw [textAt, List.drop_set_of_lt behind]
  rfl

theorem textAt_set_before (order : i ≤ stop) (inside : stop - i < (textAt b i).length) :
    textAt (b.set stop 0) i = (textAt b i).take (stop - i) := by
  have moved : (b.set stop 0).drop i = (b.drop i).set (stop - i) 0 := by
    rw [List.drop_set]
    simp [Nat.not_lt.mpr order]
  rw [textAt, moved]
  generalize stop - i = k at inside
  rw [textAt] at inside ⊢
  generalize b.drop i = l at inside
  induction k generalizing l with
  | zero =>
    cases l with
    | nil => rfl
    | cons c l => simp
  | succ k ih =>
    cases l with
    | nil => rfl
    | cons c l =>
      by_cases zero : c = 0
      · simp [zero] at inside
      · have shorter : k < (l.takeWhile (· ≠ 0)).length := by simpa [zero] using inside
        simpa [zero] using ih l shorter

end Texts

structure TakesToken (start : Nat) (lead word behind : CString) (out : StrtokR) : Prop where
  none_ : word = [] -> out.token = none
  token : word ≠ [] -> xstrdup out.buffer out.token = some word
  last : word ≠ [] -> textAt out.buffer out.last = behind.drop 1
  before : word ≠ [] -> textAt out.buffer start = lead ++ word
  place : word ≠ [] -> behind ≠ [] -> out.last = start + lead.length + word.length + 1

theorem strtokR_takes (delim buffer : CString) (start : Nat) {y : CString}
    (rest : (textAt buffer start).dropWhile (· ∈ delim) = y) :
    TakesToken start ((textAt buffer start).takeWhile (· ∈ delim)) (y.takeWhile (· ∉ delim)) (y.dropWhile (· ∉ delim))
      (strtokR delim buffer start) := by
  have whole : textAt buffer start = (textAt buffer start).takeWhile (· ∈ delim) ++ y := by
    rw [<- rest]
    exact List.takeWhile_append_dropWhile.symm
  unfold strtokR
  dsimp only
  generalize (textAt buffer start).takeWhile (· ∈ delim) = lead at whole
  have atToken : textAt buffer (start + lead.length) = y := by
    rw [textAt_add (by simp [whole]), whole, List.drop_left]
  have split : y = y.takeWhile (· ∉ delim) ++ y.dropWhile (· ∉ delim) := List.takeWhile_append_dropWhile.symm
  rw [atToken]
  generalize y.takeWhile (· ∉ delim) = word at split
  generalize y.dropWhile (· ∉ delim) = behind at split
  have atEnd : textAt buffer (start + lead.length + word.length) = behind := by
    rw [textAt_add (by rw [atToken, split]; simp), atToken, split, List.drop_left]
  by_cases none_ : word = []
  · subst none_
    rw [List.length_nil, Nat.add_zero, if_pos rfl]
    exact ⟨fun _ => rfl, fun found => absurd rfl found, fun found => absurd rfl found, fun found => absurd rfl found,
      fun found => absurd rfl found⟩
  · have positive := List.length_pos_iff.mpr none_
    rw [if_neg (by omega), atEnd]
    by_cases last : behind = []
    · subst last
      rw [List.append_nil] at split
      rw [if_pos rfl]
      exact ⟨fun found => absurd found none_, fun _ => by rw [xstrdup, Option.map_some, atToken, split],
        fun _ => atEnd, fun _ => by rw [whole, split], fun _ found => absurd rfl found⟩
    · have inside : word.length < y.length := by
        rw [split, List.length_append]
        exact Nat.lt_add_of_pos_right (List.length_pos_iff.mpr last)
      rw [if_neg last]
      refine ⟨fun found => absurd found none_, fun _ => ?_, fun _ => ?_, fun _ => ?_, fun _ _ => rfl⟩
      · rw [xstrdup, Option.map_some, textAt_set_before (by omega) (by rw [atToken]; omega), atToken, split]
        simp
      · have step := @textAt_add buffer (start + lead.length + word.length) 1
          (by rw [atEnd]; exact List.length_pos_iff.mpr last)
        simp only
        rw [textAt_set_behind (Nat.lt_succ_self _), step, atEnd]
      · have both : start + lead.length + word.length - start = (lead ++ word).length := by
          rw [List.length_append]
          omega
        simp only
        rw [textAt_set_before (by omega) (by rw [whole, List.length_append]; omega), whole, split, both,
          <- List.append_assoc, List.take_left]

section Closed

variable {a b s : CString} {c : UInt8}

theorem strchrFrom_first (b : CString) (c : UInt8) :
    strchrFrom b 0 c = if c ∈ b then some (b.takeWhile (· ≠ c)).length else none := by
  have index : b.findIdx? (· == c) = if c ∈ b then some (b.takeWhile (· ≠ c)).length else none := by
    induction b with
    | nil => rfl
    | cons d b ih =>
      by_cases same : d = c
      · simp [List.findIdx?_cons, same]
      · have other : c ∈ d :: b ↔ c ∈ b := by simp [Ne.symm same]
        rw [List.findIdx?_cons, ih, List.takeWhile_cons_of_pos (by simpa using same)]
        simp only [other, beq_iff_eq, same, if_false]
        split <;> rfl
  rw [strchrFrom, List.drop_zero, index]
  split <;> simp

def SplitName.ofAddr : Option (CString × Option CString) -> SplitName
  | none => failed
  | some (host, none) => { failed with ret := 0, hostname := some host, port := some upsdPort }
  | some (host, some text) =>
    if portTaken text then
      { failed with ret := 0, hostname := some host, port := some (UInt16.ofNat (strtol text).toInt.toNat) }
    else { failed with hostname := some host }

theorem readPort_eq (host tmp : CString) (at_ : Nat) :
    SplitName.readPort { SplitName.failed with hostname := some host } tmp (some at_) =
      some (.ofAddr (some (host, some (textAt tmp (at_ + 1))))) := by
  rw [SplitName.readPort, Option.map_some]
  generalize textAt tmp (at_ + 1) = text
  have none_ : text = [] -> (strtol text).toInt < 1 := by
    rintro rfl
    decide
  simp only [SplitName.ofAddr, portTaken, Bool.and_eq_true, decide_eq_true_eq]
  by_cases taken : 1 ≤ (strtol text).toInt ∧ (strtol text).toInt ≤ 65535
  · rw [if_pos taken, if_neg]
    rintro (empty | low | high)
    · have := none_ empty
      omega
    · omega
    · omega
  · rw [if_neg taken, if_pos]
    · rfl
    · by_cases low : (strtol text).toInt < 1
      · exact .inr (.inl low)
      · exact .inr (.inr (by omega))

theorem strtokR_one (c : UInt8) (buffer : CString) (start : Nat) :
    TakesToken start ((textAt buffer start).takeWhile (· = c))
      (((textAt buffer start).dropWhile (· = c)).takeWhile (· ≠ c))
      (((textAt buffer start).dropWhile (· = c)).dropWhile (· ≠ c)) (strtokR [c] buffer start) := by
  have takes := strtokR_takes [c] buffer start rfl
  simpa only [List.mem_singleton] using takes

theorem strtokR_all (buffer : CString) (start : Nat) :
    TakesToken start [] (textAt buffer start) [] (strtokR [] buffer start) := by
  have takes := strtokR_takes [] buffer start rfl
  have lead (l : CString) : l.takeWhile (fun _ => false) = [] := by cases l <;> rfl
  have rest (l : CString) : l.dropWhile (fun _ => false) = l := by cases l <;> rfl
  have word (l : CString) : l.takeWhile (fun _ => true) = l := List.takeWhile_eq_self_iff.mpr fun _ _ => rfl
  have behind (l : CString) : l.dropWhile (fun _ => true) = [] := List.dropWhile_eq_nil_iff.mpr fun _ _ => rfl
  simpa [lead, rest, word, behind] using takes

theorem splitaddr_bracket (noNul : 0 ∉ a) (bracket : a.headD 0 = 91) (short : a.length < smallbuf) :
    upscliSplitaddr a = some (.ofAddr (addrParts a)) := by
  have some_ : ¬ a.length < 1 := by
    cases a with
    | nil => cases bracket
    | cons => simp
  have text : textAt a 1 = a.drop 1 := textAt_whole noNul 1
  have first := strtokR_one 93 a 1
  rw [text] at first
  unfold upscliSplitaddr addrParts
  simp only [snprintf_fits short, if_neg some_, if_pos bracket, strchrFrom_first]
  generalize ((a.drop 1).dropWhile (· = 93)).takeWhile (· ≠ 93) = host at first
  generalize ((a.drop 1).dropWhile (· = 93)).dropWhile (· ≠ 93) = behind at first
  generalize strtokR [93] a 1 = out at first
  by_cases closed : 93 ∈ a
  · simp only [closed, if_true]
    by_cases none_ : host = []
    · simp only [none_, or_true, if_true, first.none_ none_]
      simp [xstrdup, SplitName.ofAddr, SplitName.failed]
    · have second := strtokR_all out.buffer out.last
      rw [first.last none_] at second
      generalize strtokR [] out.buffer out.last = more at second
      simp only [first.token none_, none_, not_true_eq_false, or_false, if_false, reduceCtorEq]
      generalize behind.drop 1 = rest at second
      by_cases end_ : rest = []
      · subst end_
        simp [second.none_ rfl, SplitName.ofAddr]
      · have found := second.token end_
        obtain ⟨at_, place, textThere⟩ := Option.map_eq_some_iff.mp found
        have colon : deref more.buffer more.token = some (rest.headD 0) := by
          rw [deref, place, Option.map_some, textThere]
        have behindColon : textAt more.buffer (at_ + 1) = rest.drop 1 := by
          rw [textAt_add (by rw [textThere]; exact List.length_pos_iff.mpr end_), textThere]
        rw [colon]
        simp only [place, reduceCtorEq, if_false, Option.bind_eq_bind, Option.bind_some]
        by_cases port : rest.headD 0 = 58
        · simp only [port, ne_eq, not_true_eq_false, if_false, if_true]
          rw [readPort_eq, behindColon]
        · rw [if_pos port, if_neg port]
          rfl
  · simp [closed, SplitName.ofAddr]

theorem splitaddr_plain (noNul : 0 ∉ a) (some_ : a ≠ []) (bracket : a.headD 0 ≠ 91) (short : a.length < smallbuf) :
    upscliSplitaddr a = some (.ofAddr (addrParts a)) := by
  have long : ¬ a.length < 1 := by
    have := List.length_pos_iff.mpr some_
    omega
  have first := strtokR_one 58 a 0
  rw [textAt_whole noNul, List.drop_zero] at first
  unfold upscliSplitaddr addrParts
  simp only [snprintf_fits short, if_neg long, if_neg bracket, strchrFrom_first]
  by_cases none_ : (a.dropWhile (· = 58)).takeWhile (· ≠ 58) = []
  · simp only [none_, if_true, first.none_ none_]
    simp [xstrdup, SplitName.ofAddr, SplitName.failed]
  · simp only [first.token none_, none_, if_false, reduceCtorEq]
    by_cases colon : 58 ∈ a
    · simp only [colon, if_true, not_true_eq_false, if_false, reduceCtorEq]
      rw [readPort_eq]
      by_cases front : a.headD 0 = 58
      · obtain ⟨rest, rfl⟩ : ∃ rest, a = 58 :: rest := by
          cases a with
          | nil => cases front
          | cons c rest => exact ⟨rest, by rw [<- front]; rfl⟩
        have there := first.before none_
        have behind := @textAt_add (strtokR [58] (58 :: rest) 0).buffer 0 1 (by rw [there]; simp)
        rw [there] at behind
        have same : textAt (strtokR [58] (58 :: rest) 0).buffer 1 =
            rest.takeWhile (· = 58) ++ (rest.dropWhile (· = 58)).takeWhile (· ≠ 58) := by simpa using behind
        simp [same]
      · have lead : a.takeWhile (· = 58) = [] := by
          cases a with
          | nil => rfl
          | cons c rest => simpa using front
        have whole : a.dropWhile (· = 58) = a := by
          cases a with
          | nil => rfl
          | cons c rest => simpa using front
        rw [whole, lead] at first
        have inside : a.dropWhile (· ≠ 58) ≠ [] := by
          rw [ne_eq, List.dropWhile_eq_nil_iff]
          intro all
          simpa using all 58 colon
        rw [whole] at none_
        have place := first.place none_ inside
        have last := first.last none_
        rw [place] at last
        simp only [front, if_false, whole]
        simp only [List.length_nil, Nat.zero_add] at last
        rw [last]
    · simp [colon, SplitName.ofAddr]

theorem upscliSplitaddr_eq (noNul : 0 ∉ a) (some_ : a ≠ []) (short : a.length < smallbuf) :
    upscliSplitaddr a = some (.ofAddr (addrParts a)) := by
  by_cases bracket : a.headD 0 = 91
  · exact splitaddr_bracket noNul bracket short
  · exact splitaddr_plain noNul some_ bracket short

def SplitName.ofText (t : CString) : SplitName :=
  if t = [] ∨ t.headD 0 = 64 then failed
  else
    let n := t.takeWhile (· ≠ 64)
    let a := addrText t
    if 64 ∉ t then
      if 58 ∈ t then { failed with upsname := some n }
      else { ret := 0, upsname := some n, hostname := some (cstr "localhost"), port := some upsdPort }
    else if a = [] then { failed with upsname := some n }
    else { ofAddr (addrParts a) with upsname := some n }

theorem upscliSplitname_eq (noNul : 0 ∉ s) : upscliSplitname s = some (.ofText (snprintf smallbuf s)) := by
  have kept : 0 ∉ snprintf smallbuf s := fun member => noNul (List.mem_of_mem_take member)
  have short : (snprintf smallbuf s).length < smallbuf := by
    have := snprintf_length smallbuf s
    simp only [smallbuf] at *
    omega
  have empty : s.length < 1 ↔ snprintf smallbuf s = [] := by
    rw [snprintf, List.take_eq_nil_iff, Nat.lt_one_iff, List.length_eq_zero_iff]
    simp [smallbuf]
  unfold upscliSplitname SplitName.ofText addrText
  simp only [empty]
  generalize snprintf smallbuf s = t at kept short
  cases t with
  | nil => simp
  | cons c rest =>
    simp only [reduceCtorEq, if_false, false_or, List.headD_cons]
    by_cases front : c = 64
    · subst front
      simp [strchrFrom_first]
    · have noZero : c ≠ 0 := fun zero => kept (by simp [zero])
      have first := strtokR_one 64 (c :: rest) 0
      rw [textAt_whole kept, List.drop_zero, List.takeWhile_cons_of_neg (by simpa using front),
        List.dropWhile_cons_of_neg (by simpa using front)] at first
      have name : ((c :: rest).takeWhile (· ≠ 64)).headD 0 = c := by simp [front]
      have some_ : (c :: rest).takeWhile (· ≠ 64) ≠ [] := by simp [front]
      have away : strchrFrom (c :: rest) 0 64 ≠ some 0 := by
        rw [strchrFrom_first]
        split <;> simp [front]
      obtain ⟨at_, place, text⟩ := Option.map_eq_some_iff.mp (first.token some_)
      have lead : deref (strtokR [64] (c :: rest) 0).buffer (strtokR [64] (c :: rest) 0).token = some c := by
        rw [deref, place, Option.map_some, text, name]
      simp only [away, if_false, front, first.token some_, lead, reduceCtorEq, noZero, Option.bind_eq_bind, Option.bind_some]
      by_cases at64 : 64 ∈ c :: rest
      · have inside : (c :: rest).dropWhile (· ≠ 64) ≠ [] := by
          rw [ne_eq, List.dropWhile_eq_nil_iff]
          intro all
          simpa using all 64 at64
        have last := first.last some_
        rw [first.place some_ inside, List.length_nil, Nat.zero_add, Nat.add_zero] at last
        simp only [strchrFrom_first, at64, if_true, reduceCtorEq, if_false, Option.map_some, deref, last, Option.bind_some,
          not_true_eq_false]
        have suffix : ((c :: rest).dropWhile (· ≠ 64)).drop 1 <:+ c :: rest :=
          (List.drop_suffix _ _).trans (List.dropWhile_suffix _)
        generalize ((c :: rest).dropWhile (· ≠ 64)).drop 1 = a at suffix
        have noNul : 0 ∉ a := fun member => kept (suffix.subset member)
        by_cases empty : a = []
        · subst empty
          simp
        · have headed : a.headD 0 ≠ 0 := by
            cases a with
            | nil => exact absurd rfl empty
            | cons d more => exact fun zero => noNul (List.mem_cons.mpr (.inl zero.symm))
          rw [if_neg headed, if_neg empty, upscliSplitaddr_eq noNul empty (by
            have := suffix.length_le
            omega)]
          rfl
      · have whole : (c :: rest).takeWhile (· ≠ 64) = c :: rest := by
          rw [List.takeWhile_eq_self_iff]
          intro b member
          simpa using fun same : b = 64 => at64 (same ▸ member)
        simp only [strchrFrom_first, at64, if_false, if_true, whole]
        by_cases colon : 58 ∈ c :: rest
        · simp [colon]
        · simp [colon]

end Closed

section Parts

variable {a h p s t n : CString} {c : UInt8} {port : UInt16}

theorem until_sep (plain : c ∉ h) (rest : CString) :
    (h ++ c :: rest).takeWhile (· ≠ c) = h ∧ (h ++ c :: rest).dropWhile (· ≠ c) = c :: rest := by
  have all : ∀ b ∈ h, decide (b ≠ c) = true := fun b member => by
    simpa using fun same : b = c => plain (same ▸ member)
  constructor
  · rw [List.takeWhile_append_of_pos all]
    simp
  · rw [List.dropWhile_append_of_pos all]
    simp

theorem until_end (plain : c ∉ h) : h.takeWhile (· ≠ c) = h ∧ h.dropWhile (· ≠ c) = [] := by
  have all : ∀ b ∈ h, decide (b ≠ c) = true := fun b member => by
    simpa using fun same : b = c => plain (same ▸ member)
  exact ⟨List.takeWhile_eq_self_iff.mpr all, List.dropWhile_eq_nil_iff.mpr all⟩

theorem no_lead (other : a.headD 0 ≠ c) : a.dropWhile (· = c) = a := by
  cases a with
  | nil => rfl
  | cons d rest => exact List.dropWhile_cons_of_neg (by simpa using other)

theorem headD_append (some_ : h ≠ []) (rest : CString) : (h ++ rest).headD 0 = h.headD 0 := by
  cases h with
  | nil => exact absurd rfl some_
  | cons => rfl

theorem headD_plain (some_ : h ≠ []) (plain : c ∉ h) : h.headD 0 ≠ c := by
  cases h with
  | nil => exact absurd rfl some_
  | cons d rest => exact fun same => plain (List.mem_cons.mpr (.inl same.symm))

theorem strtol_digits (some_ : p ≠ []) (digits : p.all isdigit = true) :
    (strtol p).toInt = min longMax (digitsValue p) := by
  obtain ⟨b, rest, rfl⟩ := List.exists_cons_of_ne_nil some_
  have digit : isdigit b = true := List.all_eq_true.mp digits b (by simp)
  have clamp : max longMin (min longMax (digitsValue (b :: rest) : Int)) = min longMax (digitsValue (b :: rest) : Int) := by
    simp only [longMin, longMax]
    omega
  rw [strtol_digit digit, clamp, Int64.toInt_ofInt_of_le]
  · simp only [longMax]
    omega
  · simp only [longMax]
    omega

theorem portNumber_taken (number : PortNumber p port) :
    portTaken p = true ∧ UInt16.ofNat (strtol p).toInt.toNat = port := by
  have value := strtol_digits number.decimal.some_ number.decimal.digits
  have positive := number.positive
  have small := number.decimal.small
  rw [number.value] at value small
  have number_ : (strtol p).toInt = (port.toNat : Int) := by
    rw [value]
    simp only [longMax]
    omega
  rw [portTaken, number_]
  refine ⟨?_, by simp⟩
  simp only [Bool.and_eq_true, decide_eq_true_eq]
  omega

theorem taken_portNumber (digits : p.all isdigit = true) (taken : portTaken p = true) :
    PortNumber p (UInt16.ofNat (strtol p).toInt.toNat) := by
  have some_ : p ≠ [] := by
    rintro rfl
    revert taken
    decide
  have value := strtol_digits some_ digits
  simp only [longMax] at value
  simp only [portTaken, value, Bool.and_eq_true, decide_eq_true_eq] at taken
  have same : (strtol p).toInt.toNat = digitsValue p := by
    rw [value]
    omega
  have back : (UInt16.ofNat (strtol p).toInt.toNat).toNat = digitsValue p := by
    rw [same, UInt16.toNat_ofNat', Nat.mod_eq_of_lt]
    omega
  exact ⟨⟨some_, digits, by omega⟩, back.symm, by omega⟩

def SplitName.ofForm (h : CString) (port : UInt16) : SplitName :=
  { failed with ret := 0, hostname := some h, port := some port }

theorem ofAddr_number (number : PortNumber p port) : SplitName.ofAddr (some (h, some p)) = .ofForm h port := by
  obtain ⟨taken, same⟩ := portNumber_taken number
  rw [SplitName.ofAddr, if_pos taken, same]
  rfl

theorem addrParts_bracket (some_ : h ≠ []) (plain : 93 ∉ h) (rest : CString) :
    addrParts (91 :: (h ++ 93 :: rest)) = some (h, if rest.headD 0 = 58 then some (rest.drop 1) else none) := by
  have front : (h ++ 93 :: rest).headD 0 ≠ 93 := by
    rw [headD_append some_]
    exact headD_plain some_ plain
  obtain ⟨before, behind⟩ := until_sep plain rest
  have closed : ¬ (93 ∉ 91 :: (h ++ 93 :: rest) ∨ h = []) := by simp [some_]
  unfold addrParts
  simp only [List.headD_cons, if_true, List.drop_one, List.tail_cons, no_lead front, before, behind, if_neg closed]

theorem loose_bracket (some_ : h ≠ []) (plain : 93 ∉ h) (rest : CString) :
    LooseAddr (91 :: (h ++ 93 :: rest)) ↔ rest ≠ [] ∧ (rest.headD 0 ≠ 58 ∨ (rest.drop 1).all isdigit = false) := by
  obtain ⟨before, behind⟩ := until_sep plain rest
  unfold LooseAddr
  simp only [List.headD_cons, if_true, List.drop_one, List.tail_cons, before, behind, some_, false_or]

theorem addrParts_colon (some_ : h ≠ []) (plain : 58 ∉ h) (noBracket : h.headD 0 ≠ 91) (p : CString) :
    addrParts (h ++ 58 :: p) = some (h, some p) := by
  have front : (h ++ 58 :: p).headD 0 ≠ 58 := by
    rw [headD_append some_]
    exact headD_plain some_ plain
  obtain ⟨before, behind⟩ := until_sep plain p
  have colon : 58 ∈ h ++ 58 :: p := by simp
  rw [<- headD_append some_ (58 :: p)] at noBracket
  unfold addrParts
  simp only [if_neg noBracket, no_lead front, before, behind, some_, if_false, colon, not_true_eq_false, front,
    List.drop_one, List.tail_cons]

theorem loose_colon (some_ : h ≠ []) (plain : 58 ∉ h) (noBracket : h.headD 0 ≠ 91) (p : CString) :
    LooseAddr (h ++ 58 :: p) ↔ p.all isdigit = false := by
  have front : (h ++ 58 :: p).headD 0 ≠ 58 := by
    rw [headD_append some_]
    exact headD_plain some_ plain
  have colon : 58 ∈ h ++ 58 :: p := by simp
  rw [<- headD_append some_ (58 :: p)] at noBracket
  unfold LooseAddr
  simp only [if_neg noBracket, front, (until_sep plain p).2, colon, true_and, false_or, List.drop_one, List.tail_cons]

theorem addrParts_host (some_ : h ≠ []) (plain : 58 ∉ h) (noBracket : h.headD 0 ≠ 91) :
    addrParts h = some (h, none) ∧ ¬ LooseAddr h := by
  have front := headD_plain some_ plain
  constructor
  · unfold addrParts
    simp only [if_neg noBracket, no_lead front, (until_end plain).1, some_, if_false, plain, not_false_eq_true, if_true]
  · unfold LooseAddr
    simp only [if_neg noBracket, front, plain, false_and, or_self, not_false_eq_true]

theorem addrParts_closed {b : CString} (closed : 93 ∈ b) (more : ¬ b.all (· = 93)) :
    ∃ host text, addrParts (91 :: b) = some (host, text) ∧ 93 ∉ host ∧
      ∀ p, text = some p -> ∃ before, 91 :: b = before ++ 58 :: p := by
  have parts : addrParts (91 :: b) = some ((b.dropWhile (· = 93)).takeWhile (· ≠ 93),
      if (((b.dropWhile (· = 93)).dropWhile (· ≠ 93)).drop 1).headD 0 = 58 then
        some ((((b.dropWhile (· = 93)).dropWhile (· ≠ 93)).drop 1).drop 1) else none) := by
    have some_ : (b.dropWhile (· = 93)).takeWhile (· ≠ 93) ≠ [] := by
      intro none_
      have front : b.dropWhile (· = 93) = [] := by
        by_contra found
        have head := List.head_dropWhile_not (fun d => decide (d = 93)) found
        obtain ⟨d, rest, split⟩ := List.exists_cons_of_ne_nil found
        simp only [split, List.head_cons, decide_eq_false_iff_not] at head
        simp [split, head] at none_
      rw [List.dropWhile_eq_nil_iff] at front
      exact more (List.all_eq_true.mpr front)
    have inside : 93 ∈ 91 :: b := List.mem_cons_of_mem _ closed
    unfold addrParts
    simp only [List.headD_cons, if_true, List.drop_succ_cons, List.drop_zero, inside, not_true_eq_false, some_, or_self,
      if_false]
  refine ⟨_, _, parts, ?_, ?_⟩
  · intro member
    simpa using List.mem_takeWhile_imp member
  · intro p found
    have suffix : ((b.dropWhile (· = 93)).dropWhile (· ≠ 93)).drop 1 <:+ 91 :: b :=
      (List.drop_suffix _ _).trans ((List.dropWhile_suffix _).trans ((List.dropWhile_suffix _).trans (List.suffix_cons _ _)))
    generalize ((b.dropWhile (· = 93)).dropWhile (· ≠ 93)).drop 1 = rest at found suffix
    cases rest with
    | nil => cases found
    | cons c rest =>
      by_cases colon : c = 58
      · subst colon
        obtain rfl : rest = p := by simpa using found
        obtain ⟨before, whole⟩ := suffix
        exact ⟨before, whole.symm⟩
      · simp [colon] at found

theorem open_addrParts (bracket : OpenBracket a) : addrParts a = none := by
  obtain ⟨front, closed, _⟩ := bracket
  unfold addrParts
  simp only [if_pos front]
  rcases closed with none_ | all
  · simp only [none_, not_false_eq_true, true_or, if_true]
  · have empty : (a.drop 1).dropWhile (· = 93) = [] := List.dropWhile_eq_nil_iff.mpr (List.all_eq_true.mp all)
    simp only [empty, List.takeWhile_nil, or_true, if_true]

theorem open_addrForm (bracket : OpenBracket a) : ∃ h port, AddrForm a h port := by
  obtain ⟨front, -, port⟩ := bracket
  by_cases colon : 58 ∈ a
  · obtain ⟨h, p, rfl, plain⟩ := List.eq_append_cons_of_mem colon
    have some_ : h ≠ [] := by
      rintro rfl
      cases front
    obtain ⟨digits, taken⟩ := port colon
    rw [(until_sep plain p).2] at digits taken
    exact ⟨h, _, .hostPort p rfl some_ plain (taken_portNumber digits taken)⟩
  · refine ⟨a, upsdPort, .host rfl ?_ colon rfl⟩
    rintro rfl
    cases front

theorem digits_noColon (digits : p.all isdigit = true) (other : isdigit c = false) : c ∉ p := by
  intro member
  rw [List.all_eq_true.mp digits c member] at other
  cases other

theorem bracketHost_taken (front : a.headD 0 = 91) (closed : ¬ OpenBracket a)
    (host : 58 ∉ a ∨ ∃ h p, a = h ++ 58 :: p ∧ 58 ∉ h ∧ PortNumber p port) : addrTaken a = true := by
  obtain ⟨b, rfl⟩ : ∃ b, a = 91 :: b := by
    cases a with
    | nil => cases front
    | cons c b => exact ⟨b, by rw [<- front]; rfl⟩
  have text : 58 ∈ 91 :: b -> (((91 :: b).dropWhile (· ≠ 58)).drop 1).all isdigit ∧
      portTaken (((91 :: b).dropWhile (· ≠ 58)).drop 1) := by
    intro colon
    obtain plain | ⟨h, p, split, plain, number⟩ := host
    · exact absurd colon plain
    · rw [split, (until_sep plain p).2]
      exact ⟨number.decimal.digits, (portNumber_taken number).1⟩
  have inside : 93 ∈ b := by
    by_contra none_
    exact closed ⟨rfl, .inl (by simpa using none_), text⟩
  have more : ¬ b.all (· = 93) := fun all => closed ⟨rfl, .inr all, text⟩
  obtain ⟨found, port, parts, -, behind⟩ := addrParts_closed inside more
  rw [addrTaken, parts, Option.any_some]
  cases port with
  | none => rfl
  | some p =>
    obtain ⟨before, whole⟩ := behind p rfl
    obtain plain | ⟨h, q, split, plain, number⟩ := host
    · exact absurd (whole ▸ List.mem_append_right _ List.mem_cons_self) plain
    · have digits := digits_noColon number.decimal.digits (by decide : isdigit 58 = false)
      obtain ⟨-, -, rfl⟩ := (List.append_cons_inj_of_notMem plain digits).mp (split.symm.trans whole)
      exact (portNumber_taken number).1

theorem addrForm_taken (form : AddrForm a h port) (closed : ¬ OpenBracket a) : addrTaken a = true := by
  cases form with
  | host split some_ plain standard =>
    subst split
    by_cases front : a.headD 0 = 91
    · exact @bracketHost_taken a port front closed (.inl plain)
    · rw [addrTaken, (addrParts_host some_ plain front).1]
      rfl
  | hostPort p split some_ plain number =>
    by_cases front : a.headD 0 = 91
    · exact bracketHost_taken front closed (.inr ⟨h, p, split, plain, number⟩)
    · subst split
      rw [headD_append some_] at front
      rw [addrTaken, addrParts_colon some_ plain front, Option.any_some]
      exact (portNumber_taken number).1
  | addr split some_ plain standard =>
    subst split
    rw [addrTaken, addrParts_bracket some_ plain]
    rfl
  | addrPort p split some_ plain number =>
    subst split
    rw [addrTaken, addrParts_bracket some_ plain, Option.any_some]
    exact (portNumber_taken number).1

theorem ofAddr_host (parts : SplitName.ofAddr (addrParts a) = .ofForm h port) : ∃ text, addrParts a = some (h, text) := by
  cases found : addrParts a with
  | none =>
    rw [found] at parts
    exact absurd (congrArg SplitName.ret parts) (by decide : (-1 : Int) ≠ 0)
  | some pair =>
    obtain ⟨host, text⟩ := pair
    have same : (SplitName.ofAddr (some (host, text))).hostname = some host := by
      cases text with
      | none => rfl
      | some text =>
        rw [SplitName.ofAddr]
        split <;> rfl
    rw [found] at parts
    rw [parts] at same
    exact ⟨text, by rw [Option.some.inj same]⟩

theorem addrForm_strict (form : AddrForm a h port) (parts : SplitName.ofAddr (addrParts a) = .ofForm h port) :
    ¬ LooseAddr a := by
  obtain ⟨text, found⟩ := ofAddr_host parts
  have noBracket (all : 93 ∈ a -> 93 ∈ h) : a.headD 0 ≠ 91 := by
    intro front
    obtain ⟨b, rfl⟩ : ∃ b, a = 91 :: b := by
      cases a with
      | nil => cases front
      | cons c b => exact ⟨b, by rw [<- front]; rfl⟩
    by_cases bracket : OpenBracket (91 :: b)
    · rw [open_addrParts bracket] at found
      cases found
    · have closed : 93 ∈ 91 :: b ∧ ¬ b.all (· = 93) := by
        constructor
        · by_contra none_
          unfold addrParts at found
          simp [none_] at found
        · intro same
          have empty : b.dropWhile (· = 93) = [] := List.dropWhile_eq_nil_iff.mpr (List.all_eq_true.mp same)
          unfold addrParts at found
          simp [empty] at found
      have inside : 93 ∈ b := by simpa using closed.1
      obtain ⟨host, port, split, plain, -⟩ := addrParts_closed inside closed.2
      rw [found] at split
      obtain ⟨rfl, -⟩ := Prod.mk.inj (Option.some.inj split)
      exact plain (all closed.1)
  cases form with
  | host split some_ plain standard =>
    subst split
    exact (addrParts_host some_ plain (noBracket id)).2
  | hostPort p split some_ plain number =>
    have digits := digits_noColon number.decimal.digits (by decide : isdigit 93 = false)
    have front := noBracket (by simp [split, digits])
    subst split
    rw [headD_append some_] at front
    rw [loose_colon some_ plain front]
    simp [number.decimal.digits]
  | addr split some_ plain standard =>
    subst split
    rw [loose_bracket some_ plain]
    exact fun loose => loose.1 rfl
  | addrPort p split some_ plain number =>
    subst split
    rw [loose_bracket some_ plain]
    exact fun loose => loose.2.elim (fun other => other rfl) (by simp [number.decimal.digits])

theorem split_addrForm (taken : addrTaken a = true) (strict : ¬ LooseAddr a) :
    ∃ h port, AddrForm a h port ∧ SplitName.ofAddr (addrParts a) = .ofForm h port := by
  by_cases bracket : a.headD 0 = 91
  · obtain ⟨b, rfl⟩ : ∃ b, a = 91 :: b := by
      cases a with
      | nil => cases bracket
      | cons c b => exact ⟨b, by rw [<- bracket]; rfl⟩
    by_cases closed : 93 ∈ b
    · obtain ⟨h, rest, rfl, plain⟩ := List.eq_append_cons_of_mem closed
      have some_ : h ≠ [] := by
        rintro rfl
        exact strict (by simp [LooseAddr])
      rw [loose_bracket some_ plain] at strict
      rw [addrTaken, addrParts_bracket some_ plain] at taken
      cases rest with
      | nil => exact ⟨h, upsdPort, .addr rfl some_ plain rfl, by rw [addrParts_bracket some_ plain]; rfl⟩
      | cons c p =>
        simp only [List.headD_cons, List.drop_one, List.tail_cons, ne_eq, reduceCtorEq, not_false_eq_true, true_and, not_or,
          Decidable.not_not, Bool.not_eq_false] at strict
        obtain ⟨rfl, digits⟩ := strict
        simp only [List.headD_cons, if_true, List.drop_one, List.tail_cons, Option.any_some, Option.all_some] at taken
        have number := taken_portNumber digits taken
        exact ⟨h, _, .addrPort p rfl some_ plain number, by rw [addrParts_bracket some_ plain]; exact ofAddr_number number⟩
    · simp [addrTaken, addrParts, closed] at taken
  · by_cases colon : 58 ∈ a
    · obtain ⟨h, p, rfl, plain⟩ := List.eq_append_cons_of_mem colon
      have some_ : h ≠ [] := by
        rintro rfl
        exact strict (by simp [LooseAddr])
      rw [headD_append some_] at bracket
      rw [loose_colon some_ plain bracket, Bool.not_eq_false] at strict
      rw [addrTaken, addrParts_colon some_ plain bracket] at taken
      have number := taken_portNumber strict taken
      exact ⟨h, _, .hostPort p rfl some_ plain number, by rw [addrParts_colon some_ plain bracket, ofAddr_number number]⟩
    · have some_ : a ≠ [] := by
        rintro rfl
        simp [addrTaken, addrParts] at taken
      exact ⟨a, upsdPort, .host rfl some_ colon rfl, by rw [(addrParts_host some_ colon bracket).1]; rfl⟩

theorem ofAddr_ret (parts : Option (CString × Option CString)) :
    (SplitName.ofAddr parts).ret = 0 ↔ (parts.any fun parts => parts.2.all portTaken) = true := by
  cases parts with
  | none => decide
  | some parts =>
    obtain ⟨host, text⟩ := parts
    cases text with
    | none => simp [SplitName.ofAddr]
    | some text =>
      rw [SplitName.ofAddr, Option.any_some, Option.all_some]
      by_cases taken : portTaken text = true
      · simp [taken]
      · simp [taken, SplitName.failed]

theorem ofText_ret (t : CString) : (SplitName.ofText t).ret = 0 ↔ nameTaken t = true := by
  unfold SplitName.ofText nameTaken
  by_cases empty : t = []
  · simp [empty, SplitName.failed]
  by_cases front : t.headD 0 = 64
  · simp only [front, or_true, if_true]
    simp [SplitName.failed]
  simp only [empty, front, or_self, if_false, ne_eq, not_false_eq_true, decide_true, Bool.true_and]
  by_cases at64 : 64 ∈ t
  · simp only [at64, not_true_eq_false, if_false]
    by_cases none_ : addrText t = []
    · simp [none_, SplitName.failed]
    · simp only [none_, if_false, not_false_eq_true, decide_true, Bool.true_and]
      exact ofAddr_ret _
  · simp only [at64, not_false_eq_true, if_true]
    by_cases colon : 58 ∈ t <;> simp [colon, SplitName.failed]

def SplitName.ofName (n h : CString) (port : UInt16) : SplitName :=
  { ret := 0, upsname := some n, hostname := some h, port := some port }

theorem SplitName.eq_ofName {out : SplitName} (zero : out.ret = 0) (name : out.upsname = some n)
    (host : out.hostname = some h) (number : out.port = some port) : out = .ofName n h port := by
  obtain ⟨ret, upsname, hostname, port⟩ := out
  simp_all [ofName]

theorem ofText_named {a : CString} (some_ : n ≠ []) (plain : 64 ∉ n) :
    addrText (n ++ 64 :: a) = a ∧ (nameTaken (n ++ 64 :: a) = true ↔ addrTaken a = true) ∧
      SplitName.ofText (n ++ 64 :: a) = { SplitName.ofAddr (addrParts a) with upsname := some n } := by
  obtain ⟨before, behind⟩ := until_sep plain a
  have front : (n ++ 64 :: a).headD 0 ≠ 64 := by
    rw [headD_append some_]
    exact headD_plain some_ plain
  have text : addrText (n ++ 64 :: a) = a := by
    rw [addrText, behind]
    rfl
  have here : 64 ∈ n ++ 64 :: a := by simp
  have nonempty : n ++ 64 :: a ≠ [] := by simp
  have none_ : a = [] -> addrTaken a = false ∧ addrParts a = none := by
    rintro rfl
    decide
  refine ⟨text, ?_, ?_⟩
  · unfold nameTaken
    simp only [nonempty, front, here, text, ne_eq, not_false_eq_true, decide_true, Bool.true_and, not_true_eq_false, if_false,
      Bool.and_eq_true, decide_eq_true_eq, and_iff_right_iff_imp]
    intro taken empty
    simp [(none_ empty).1] at taken
  · unfold SplitName.ofText
    simp only [nonempty, front, or_self, if_false, here, not_true_eq_false, text, before]
    by_cases empty : a = []
    · rw [if_pos empty, (none_ empty).2]
      rfl
    · rw [if_neg empty]

def OpenName (t : CString) : Prop :=
  64 ∈ t ∧ t.takeWhile (· ≠ 64) ≠ [] ∧ 58 ∉ t.takeWhile (· ≠ 64) ∧ OpenBracket (addrText t)

theorem nameForm_taken (form : NameForm t n h port) (closed : ¬ OpenName t) : nameTaken t = true := by
  cases form with
  | name split some_ plain local_ =>
    subst split
    have front := headD_plain some_ plain.1
    simp [nameTaken, some_, plain, - List.headD_eq_head?_getD, front]
  | named a split some_ plain addr =>
    subst split
    obtain ⟨text, taken, -⟩ := @ofText_named n a some_ plain.1
    obtain ⟨before, -⟩ := until_sep plain.1 a
    rw [taken]
    refine addrForm_taken addr fun bracket => closed ?_
    rw [OpenName, text, before]
    exact ⟨by simp, some_, plain.2, bracket⟩

theorem open_name (bracket : OpenName t) : nameTaken t = false ∧ ∃ n h port, NameForm t n h port := by
  obtain ⟨here, some_, colon, bracket⟩ := bracket
  obtain ⟨n, a, rfl, plain⟩ := List.eq_append_cons_of_mem here
  rw [(until_sep plain a).1] at some_ colon
  obtain ⟨text, taken, -⟩ := @ofText_named n a some_ plain
  rw [text] at bracket
  obtain ⟨h, port, form⟩ := open_addrForm bracket
  refine ⟨?_, n, h, port, .named a rfl some_ ⟨plain, colon⟩ form⟩
  rw [<- Bool.not_eq_true, taken, addrTaken, open_addrParts bracket]
  decide

theorem nameForm_strict (form : NameForm t n h port) (parts : SplitName.ofText t = .ofName n h port) :
    ¬ (64 ∈ t ∧ 58 ∈ t.takeWhile (· ≠ 64)) ∧ ¬ (64 ∈ t ∧ LooseAddr (addrText t)) := by
  cases form with
  | name split some_ plain local_ =>
    subst split
    exact ⟨fun found => plain.1 found.1, fun found => plain.1 found.1⟩
  | named a split some_ plain addr =>
    subst split
    obtain ⟨text, -, result⟩ := @ofText_named n a some_ plain.1
    rw [(until_sep plain.1 a).1, text]
    refine ⟨fun found => plain.2 found.2, fun found => addrForm_strict addr ?_ found.2⟩
    rw [result] at parts
    have none_ : (SplitName.ofAddr (addrParts a)).upsname = none := by
      cases addrParts a with
      | none => rfl
      | some pair =>
        obtain ⟨host, text⟩ := pair
        cases text with
        | none => rfl
        | some text =>
          rw [SplitName.ofAddr]
          split <;> rfl
    generalize SplitName.ofAddr (addrParts a) = out at parts none_
    obtain ⟨ret, upsname, hostname, port⟩ := out
    simp only [SplitName.ofName, SplitName.mk.injEq, true_and] at parts
    simp only at none_
    simp [SplitName.ofForm, SplitName.failed, parts, none_]

theorem split_nameForm (taken : nameTaken t = true) (name : ¬ (64 ∈ t ∧ 58 ∈ t.takeWhile (· ≠ 64)))
    (strict : ¬ (64 ∈ t ∧ LooseAddr (addrText t))) :
    ∃ n h port, NameForm t n h port ∧ SplitName.ofText t = .ofName n h port := by
  have some_ : t ≠ [] := by
    rintro rfl
    cases taken
  have front : t.headD 0 ≠ 64 := by
    intro front
    simp only [nameTaken, front] at taken
    simp at taken
  by_cases at64 : 64 ∈ t
  · obtain ⟨n, a, rfl, plain⟩ := List.eq_append_cons_of_mem at64
    have nonempty : n ≠ [] := by
      rintro rfl
      exact front rfl
    obtain ⟨text, both, result⟩ := @ofText_named n a nonempty plain
    rw [(until_sep plain a).1] at name
    rw [text] at strict
    obtain ⟨h, port, form, parts⟩ := split_addrForm (both.mp taken) fun loose => strict ⟨at64, loose⟩
    refine ⟨n, h, port, .named a rfl nonempty ⟨plain, fun colon => name ⟨at64, colon⟩⟩ form, ?_⟩
    rw [result, parts]
    rfl
  · have colon : 58 ∉ t := by
      unfold nameTaken at taken
      simp only [at64, not_false_eq_true, if_true, Bool.and_eq_true, decide_eq_true_eq] at taken
      exact taken.2
    refine ⟨t, cstr "localhost", upsdPort, .name rfl some_ ⟨at64, colon⟩ ⟨rfl, rfl⟩, ?_⟩
    unfold SplitName.ofText
    simp only [some_, front, or_self, if_false, at64, not_false_eq_true, if_true, colon, (until_end at64).1]
    rfl

end Parts

section Claims

variable {s n h : CString} {port : UInt16}

theorem splitname_exactly (noNul : 0 ∉ s) : SplitsExactly s ↔ ¬ Slips s := by
  have call := upscliSplitname_eq noNul
  constructor
  · rintro exactly (⟨taken, slip⟩ | ⟨short, bracket⟩)
    · have zero := (ofText_ret _).mpr taken
      obtain ⟨short, -⟩ := (exactly.takes _ call).mp zero
      obtain ⟨n, h, port, form, name, host, number⟩ := exactly.parts _ call zero
      rw [snprintf_fits short] at slip zero name host number
      obtain ⟨plain, strict⟩ := nameForm_strict form (SplitName.eq_ofName zero name host number)
      rcases slip with long | colon | loose
      · omega
      · exact plain colon
      · exact strict loose
    · rw [snprintf_fits short] at bracket
      obtain ⟨refused, form⟩ := open_name bracket
      have taken := (exactly.takes _ call).mpr ⟨short, form⟩
      rw [ofText_ret, snprintf_fits short, refused] at taken
      cases taken
  · intro clean
    have split (taken : nameTaken (snprintf smallbuf s) = true) :
        s.length < smallbuf ∧ ∃ n h port, NameForm s n h port ∧ SplitName.ofText s = .ofName n h port := by
      have short : s.length < smallbuf := by
        by_contra long
        exact clean (.inl ⟨taken, .inl (by omega)⟩)
      have fits := snprintf_fits short
      rw [Slips, fits] at clean
      rw [fits] at taken
      exact ⟨short, split_nameForm taken (fun slip => clean (.inl ⟨taken, .inr (.inl slip)⟩)) fun slip =>
        clean (.inl ⟨taken, .inr (.inr slip)⟩)⟩
    refine ⟨⟨_, call⟩, fun out result => ?_, fun out result zero => ?_⟩
    · obtain rfl := Option.some.inj (call.symm.trans result)
      rw [ofText_ret]
      constructor
      · intro taken
        obtain ⟨short, n, h, port, form, -⟩ := split taken
        exact ⟨short, n, h, port, form⟩
      · rintro ⟨short, n, h, port, form⟩
        rw [Slips, snprintf_fits short] at clean
        rw [snprintf_fits short]
        exact nameForm_taken form fun bracket => clean (.inr ⟨short, bracket⟩)
    · obtain rfl := Option.some.inj (call.symm.trans result)
      obtain ⟨short, n, h, port, form, parts⟩ := split ((ofText_ret _).mp zero)
      rw [snprintf_fits short, parts]
      exact ⟨n, h, port, form, rfl, rfl, rfl⟩

theorem splitname_exactly_host : SplitsExactly (cstr "ups@host:80") ↔ ¬ Slips (cstr "ups@host:80") :=
  splitname_exactly (by decide)

-- The port number is taken for the host as well.
theorem port_for_host : ¬ SplitsExactly (cstr "ups@:123") := by
  intro exactly
  have call := upscliSplitname_eq (by decide : 0 ∉ cstr "ups@:123")
  have zero : (SplitName.ofText (snprintf smallbuf (cstr "ups@:123"))).ret = 0 := by decide
  obtain ⟨n, h, port, form, name, host, number⟩ := exactly.parts _ call zero
  exact (nameForm_strict form (SplitName.eq_ofName zero name host number)).2 ⟨by decide, by decide⟩

end Claims

end Nut
