import Nut.Common.CString

set_option autoImplicit false

namespace Nut

inductive ExplodeState where
  | init
  | simpleString
  | quotedString
  | simpleEscape
  | quotedEscape
  deriving DecidableEq, Repr

-- The variables of `TcpClient::explode`.
structure Exploder where
  state : ExplodeState
  temp : CString
  res : List CString
  deriving DecidableEq, Repr

def Exploder.push (e : Exploder) (state : ExplodeState) : Exploder :=
  { state, temp := [], res := e.res ++ [e.temp] }

def Exploder.add (e : Exploder) (c : UInt8) (state : ExplodeState) : Exploder :=
  { e with temp := e.temp ++ [c], state }

def explodeChar (e : Exploder) (c : UInt8) : Exploder :=
  match e.state with
  | .init =>
    if c = 32 then e
    else if c = 34 then { e with state := .quotedString }
    else if c = 92 then { e with state := .simpleEscape }
    else e.add c .simpleString
  | .simpleString =>
    if c = 32 then e.push .init
    else if c = 92 then { e with state := .simpleEscape }
    else if c = 34 then e.push .quotedString
    else e.add c .simpleString
  | .quotedString =>
    if c = 92 then { e with state := .quotedEscape }
    else if c = 34 then e.push .init
    else e.add c .quotedString
  | .simpleEscape =>
    if c = 92 ∨ c = 34 ∨ c = 32 then e.add c .simpleString
    -- The backslash and the character are added up as numbers.
    else e.add (92 + c) .simpleString
  | .quotedEscape =>
    if c = 92 ∨ c = 34 then e.add c .quotedString
    else e.add (92 + c) .quotedString

def explodeChars (e : Exploder) (str : CString) : Exploder :=
  str.foldl explodeChar e

def Exploder.finish (e : Exploder) : List CString :=
  if e.temp ≠ [] then e.res ++ [e.temp] else e.res

-- `TcpClient::explode`.
def explode (str : CString) (start : Nat) : List CString :=
  (explodeChars ⟨.init, [], []⟩ (str.drop start)).finish

def escapeChar (c : UInt8) : CString :=
  if c = 34 then [92, 34] else if c = 92 then [92, 92] else [c]

def escape (str : CString) : CString :=
  34 :: str.flatMap escapeChar ++ [34]

section Explode

@[simp] theorem explodeChars_nil (e : Exploder) : explodeChars e [] = e := rfl

@[simp] theorem explodeChars_cons (e : Exploder) (c : UInt8) (str : CString) :
    explodeChars e (c :: str) = explodeChars (explodeChar e c) str := rfl

theorem explodeChars_append (e : Exploder) (str more : CString) :
    explodeChars e (str ++ more) = explodeChars (explodeChars e str) more := List.foldl_append

variable (temp : CString) (res : List CString)

theorem explode_space : explodeChar ⟨.init, temp, res⟩ 32 = ⟨.init, temp, res⟩ := rfl

theorem explode_quote : explodeChar ⟨.init, temp, res⟩ 34 = ⟨.quotedString, temp, res⟩ := rfl

theorem explode_unquote : explodeChar ⟨.quotedString, temp, res⟩ 34 = ⟨.init, [], res ++ [temp]⟩ := rfl

theorem explode_word_space : explodeChar ⟨.simpleString, temp, res⟩ 32 = ⟨.init, [], res ++ [temp]⟩ := rfl

theorem explode_quotedChar {c : UInt8} (noQuote : c ≠ 34) (noEscape : c ≠ 92) :
    explodeChar ⟨.quotedString, temp, res⟩ c = ⟨.quotedString, temp ++ [c], res⟩ := by
  simp [explodeChar, Exploder.add, noQuote, noEscape]

def IsSimple (c : UInt8) : Prop :=
  c ≠ 32 ∧ c ≠ 34 ∧ c ≠ 92

theorem explode_firstChar {c : UInt8} (simple : IsSimple c) :
    explodeChar ⟨.init, temp, res⟩ c = ⟨.simpleString, temp ++ [c], res⟩ := by
  simp [explodeChar, Exploder.add, simple.1, simple.2.1, simple.2.2]

theorem explode_simpleChar {c : UInt8} (simple : IsSimple c) :
    explodeChar ⟨.simpleString, temp, res⟩ c = ⟨.simpleString, temp ++ [c], res⟩ := by
  simp [explodeChar, Exploder.add, simple.1, simple.2.1, simple.2.2]

theorem explode_simpleChars {word : CString} (simple : ∀ c ∈ word, IsSimple c) :
    explodeChars ⟨.simpleString, temp, res⟩ word = ⟨.simpleString, temp ++ word, res⟩ := by
  induction word generalizing temp with
  | nil => simp
  | cons c word ih =>
    rw [explodeChars_cons, explode_simpleChar temp res (simple c List.mem_cons_self),
      ih (temp ++ [c]) fun d member => simple d (List.mem_cons_of_mem c member)]
    simp

theorem explode_simpleWord {word : CString} (simple : ∀ c ∈ word, IsSimple c) (nonempty : word ≠ []) :
    explodeChars ⟨.init, [], res⟩ word = ⟨.simpleString, word, res⟩ := by
  obtain ⟨c, word, rfl⟩ := List.exists_cons_of_ne_nil nonempty
  rw [explodeChars_cons, explode_firstChar [] res (simple c List.mem_cons_self),
    explode_simpleChars _ res fun d member => simple d (List.mem_cons_of_mem c member)]
  simp

theorem explode_quotedWord {write : UInt8 -> CString} {read : UInt8 -> UInt8}
    (each : ∀ temp c, explodeChars ⟨.quotedString, temp, res⟩ (write c) =
      ⟨.quotedString, temp ++ [read c], res⟩) (word : CString) :
    explodeChars ⟨.init, [], res⟩ (34 :: word.flatMap write ++ [34]) = ⟨.init, [], res ++ [word.map read]⟩ := by
  have inside (temp : CString) : explodeChars ⟨.quotedString, temp, res⟩ (word.flatMap write) =
      ⟨.quotedString, temp ++ word.map read, res⟩ := by
    induction word generalizing temp with
    | nil => simp
    | cons c word ih =>
      rw [List.flatMap_cons, explodeChars_append, each, ih]
      simp
  rw [List.cons_append, explodeChars_cons, explode_quote, explodeChars_append, inside]
  simp [explode_unquote]

theorem explode_escape (word : CString) : explodeChars ⟨.init, [], res⟩ (escape word) = ⟨.init, [], res ++ [word]⟩ := by
  have each (temp : CString) (c : UInt8) : explodeChars ⟨.quotedString, temp, res⟩ (escapeChar c) =
      ⟨.quotedString, temp ++ [id c], res⟩ := by
    unfold escapeChar
    split_ifs with quote backslash
    · subst quote
      rfl
    · subst backslash
      rfl
    · exact explode_quotedChar temp res quote backslash
  have word_ := explode_quotedWord res each word
  rwa [List.map_id] at word_

end Explode

end Nut
