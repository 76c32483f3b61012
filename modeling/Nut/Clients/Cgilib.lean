import Nut.Common.CString

set_option autoImplicit false

namespace Nut

def isUnreserved (b : UInt8) : Bool :=
  (65 ≤ b && b ≤ 90) || (97 ≤ b && b ≤ 122) || isdigit b || b == 45 || b == 46 || b == 95 || b == 126

def upperHexDigit (n : Nat) : UInt8 :=
  (cstr "0123456789ABCDEF").getD n 0

def urlPrintChar (b : UInt8) : CString :=
  if isUnreserved b then [b] else [37, upperHexDigit (b.toNat / 16), upperHexDigit (b.toNat % 16)]

def urlPrintEsc (text : CString) : CString :=
  text.flatMap urlPrintChar

def hexValue (b : UInt8) : Nat :=
  if isdigit b then b.toNat - 48 else if b ≤ 70 then b.toNat - 55 else b.toNat - 87

-- What keeps `unescape` from returning: the program exits, or it reads memory that is not its input.
inductive CgiStop where
  | fatalx (message : String)
  | overrun
  deriving DecidableEq, Repr

def snprintfcatChar (dst : CString) (size : Nat) (ch : UInt8) : CString :=
  if ch = 0 then dst else snprintfcat dst size [ch]

def escapedChar (h l : UInt8) : Except CgiStop UInt8 :=
  if !isxdigit h || !isxdigit l then .error (.fatalx "bad escape char")
  else
    let ch := UInt8.ofNat (16 * hexValue h + hexValue l)
    .ok (if ch = 10 ∨ ch = 13 then 32 else ch)

set_option maxRecDepth 2000 in
def unescapeFrom (buflen : Nat) (behind : CString) (i : Nat) (newbuf : CString) : CString -> Except CgiStop CString
  | [] => .ok (snprintfcatChar newbuf buflen 0)
  | 37 :: h :: l :: rest =>
    if i + 2 > buflen then .error (.fatalx "string too short for escaped char")
    else
      match escapedChar h l with
      | .error stop => .error stop
      | .ok ch => unescapeFrom buflen behind (i + 3) (snprintfcatChar newbuf buflen ch) rest
  | [37, h] =>
    if i + 2 > buflen then .error (.fatalx "string too short for escaped char")
    else (escapedChar h 0).map (snprintfcatChar newbuf buflen)
  | [37] =>
    if i + 2 > buflen then .error (.fatalx "string too short for escaped char")
    else
      match behind with
      | [] => .error .overrun
      | l :: _ => (escapedChar 0 l).map (snprintfcatChar newbuf buflen)
  | ch :: rest => unescapeFrom buflen behind (i + 1) (snprintfcatChar newbuf buflen (if ch = 43 then 32 else ch)) rest

def unescape (buf behind : CString) : Except CgiStop CString :=
  unescapeFrom (buf.length + 2) behind 0 [] buf

def strchr (c : UInt8) : CString -> Option (CString × CString)
  | [] => none
  | b :: s => if b = c then some ([], s) else (strchr c s).map fun (before, behind) => (b :: before, behind)

theorem strchr_some {c : UInt8} {s before behind : CString} (found : strchr c s = some (before, behind)) :
    s = before ++ c :: behind ∧ c ∉ before := by
  induction s generalizing before with
  | nil => cases found
  | cons b s ih =>
    rw [strchr] at found
    split at found
    next same =>
      cases found
      exact ⟨by rw [same, List.nil_append], List.not_mem_nil⟩
    next other =>
      obtain ⟨⟨front, rest⟩, inside, same⟩ := Option.map_eq_some_iff.mp found
      cases same
      obtain ⟨split, free⟩ := ih inside
      refine ⟨by rw [split]; rfl, ?_⟩
      rw [List.mem_cons, not_or]
      exact ⟨Ne.symm other, free⟩

-- The calls of `parsearg`, and what ended them early.
structure CgiRun where
  calls : List (CString × CString)
  stop : Option CgiStop
  deriving DecidableEq, Repr

def CgiRun.andThen (call : Except CgiStop (CString × CString)) (rest : CgiRun) : CgiRun :=
  match call with
  | .ok call => { rest with calls := call :: rest.calls }
  | .error stop => ⟨[], some stop⟩

-- The memory behind the NUL that ends a part of the query: the rest of it, with its own NUL.
def behindNul (next : Option CString) : CString :=
  (next.map (· ++ [0])).getD []

def flagToken (varname : CString) (next : Option CString) : Except CgiStop (CString × CString) × Option CString :=
  ((unescape varname (behindNul next)).map (·, []), next)

def pairToken (varname value : CString) (next : Option CString) : Except CgiStop (CString × CString) × Option CString :=
  (do
    let cleanvar <- unescape varname (value ++ 0 :: behindNul next)
    let cleanval <- unescape value (behindNul next)
    return (cleanvar, cleanval), next)

def assignment (varname value : CString) : Except CgiStop (CString × CString) × Option CString :=
  match strchr 38 value with
  | some (value, next) => pairToken varname value (some next)
  | none => pairToken varname value none

-- One round of `extractcgiargs`.
def cgiToken (ptr : CString) : Except CgiStop (CString × CString) × Option CString :=
  match strchr 61 ptr, strchr 38 ptr with
  | none, none => flagToken ptr none
  | none, some (varname, next) => flagToken varname (some next)
  | some (name, value), none => assignment name value
  | some (name, value), some (varname, next) =>
    -- `amp < eq`
    if varname.length < name.length then flagToken varname (some next) else assignment name value

theorem cgiToken_next {ptr next : CString} (more : (cgiToken ptr).2 = some next) : next.length < ptr.length := by
  have shorter {c : UInt8} {s before behind : CString} (found : strchr c s = some (before, behind)) :
      behind.length < s.length := by
    rw [(strchr_some found).1]
    simp
    omega
  have assigned {name value next : CString} (more : (assignment name value).2 = some next) : next.length ≤ value.length := by
    unfold assignment at more
    split at more
    next cut =>
      cases more
      exact Nat.le_of_lt (shorter cut)
    next => cases more
  unfold cgiToken at more
  split at more
  next => cases more
  next amp =>
    cases more
    exact shorter amp
  next eq _ => exact Nat.lt_of_le_of_lt (assigned more) (shorter eq)
  next eq amp =>
    split at more
    next =>
      cases more
      exact shorter amp
    next => exact Nat.lt_of_le_of_lt (assigned more) (shorter eq)

def extractFrom (ptr : CString) : CgiRun :=
  match _token : cgiToken ptr with
  | (call, some next) => CgiRun.andThen call (extractFrom next)
  | (call, none) => CgiRun.andThen call ⟨[], none⟩
termination_by ptr.length
decreasing_by exact cgiToken_next (by rw [_token])

def extractcgiargs (query : Option CString) : CgiRun :=
  match query with
  | none => ⟨[], none⟩
  | some query => if query = [] then ⟨[], none⟩ else extractFrom query

-- What is done with a chunk that has been collected. Its name is taken as it is.
def postCall (buf : CString) : Except CgiStop (CString × CString) :=
  match strchr 61 buf with
  | none => .ok (buf, [])
  | some (name, value) => (unescape value []).map (name, ·)

def postFrom (contentLength : Int) (buf : CString) (bytesSeen : Int) : CString -> CgiRun
  | [] => CgiRun.andThen (postCall buf) ⟨[], none⟩
  | ch :: stdin =>
    let bytesSeen := bytesSeen + 1
    if ch = 38 ∨ (contentLength ≥ 0 ∧ bytesSeen ≥ contentLength) then
      CgiRun.andThen (postCall buf)
        (if contentLength ≥ 0 ∧ bytesSeen ≥ contentLength then ⟨[], none⟩
        else postFrom contentLength [] bytesSeen stdin)
    else postFrom contentLength (snprintfcatChar buf smallbuf ch) bytesSeen stdin

-- `CONTENT_LENGTH` comes as the number that `atoi` reads.
def extractpostargs (contentLength : Option Int) (serverSoftware : Option CString) (stdin : CString) : CgiRun :=
  let contentLength := contentLength.getD (-1)
  let contentLength :=
    if contentLength > 0 ∧ strstr (serverSoftware.getD []) (cstr "IIS") = true then contentLength - 1 else contentLength
  if stdin = [] then ⟨[], none⟩ else postFrom contentLength [] 0 stdin

end Nut
