import Mathlib.Algebra.Group.Int.Defs
import Mathlib.Algebra.GroupWithZero.Nat
import Mathlib.Data.List.Basic
import Mathlib.Data.List.TakeWhile

set_option autoImplicit false

namespace Nut

-- A C string as its bytes, without the terminating NUL.
abbrev CString := List UInt8

instance CString.lawfulBEq : @LawfulBEq CString List.instBEq := List.instLawfulBEq

instance CString.decidableBAll (p : UInt8 -> Prop) [DecidablePred p] (text : CString) : Decidable (∀ b ∈ text, p b) :=
  List.decidableBAll p text

def cstr (s : String) : CString :=
  s.toList.map fun c => UInt8.ofNat c.toNat

-- The value of a `char` on platforms where it is signed.
def charToInt (b : UInt8) : Int :=
  if b.toNat < 128 then b.toNat else (b.toNat : Int) - 256

-- C locale
def isspace (ch : Int) : Bool :=
  ch == 32 || (9 ≤ ch && ch ≤ 13)

def isdigit (b : UInt8) : Bool :=
  48 ≤ b && b ≤ 57

def isxdigit (b : UInt8) : Bool :=
  isdigit b || (65 ≤ b && b ≤ 70) || (97 ≤ b && b ≤ 102)

def tolower (b : UInt8) : UInt8 :=
  if 65 ≤ b && b ≤ 90 then b + 32 else b

def strcasecmp : CString -> CString -> Ordering
  | [], [] => .eq
  | [], _ :: _ => .lt
  | _ :: _, [] => .gt
  | a :: as, b :: bs =>
    match compare (tolower a) (tolower b) with
    | .eq => strcasecmp as bs
    | order => order

def foldCase (s : CString) : CString :=
  s.map tolower

theorem strcasecmp_eq_compare (a b : CString) : strcasecmp a b = compare (foldCase a) (foldCase b) := by
  induction a generalizing b with
  | nil => cases b <;> rfl
  | cons x xs ih =>
    cases b with
    | nil => rfl
    | cons y ys =>
      simp only [strcasecmp, foldCase, List.map_cons, List.compare_cons_cons]
      cases order : compare (tolower x) (tolower y) <;> simp [ih, foldCase]

theorem strcasecmp_eq_iff (a b : CString) : strcasecmp a b = .eq ↔ foldCase a = foldCase b := by
  rw [strcasecmp_eq_compare]
  exact Std.LawfulEqOrd.compare_eq_iff_eq

instance : Std.TransCmp strcasecmp where
  eq_swap {a b} := by
    simpa only [strcasecmp_eq_compare] using Std.OrientedOrd.eq_swap
  isLE_trans {a b c} ab bc := by
    simp only [strcasecmp_eq_compare] at *
    exact Std.TransOrd.isLE_trans ab bc

@[simp] theorem strcasecmp_self (a : CString) : strcasecmp a a = .eq :=
  Std.ReflCmp.compare_self

def smallbuf : Nat := 512
def largebuf : Nat := 1024

def snprintf (size : Nat) (text : CString) : CString :=
  text.take (size - 1)

theorem snprintf_length (size : Nat) (text : CString) : (snprintf size text).length ≤ size - 1 := by
  rw [snprintf, List.length_take]
  omega

theorem snprintf_fits {size : Nat} {text : CString} (fits : text.length < size) : snprintf size text = text := by
  apply List.take_of_length_le
  omega

-- `vsnprintfcat` passes on one byte less than what is left, so the last byte is never used.
def snprintfcat (dst : CString) (size : Nat) (text : CString) : CString :=
  if dst.length > size - 1 then dst else dst ++ text.take (size - 1 - dst.length - 1)

theorem snprintfcat_fits {dst : CString} {size : Nat} {text : CString}
    (fits : dst.length + text.length + 1 < size) : snprintfcat dst size text = dst ++ text := by
  have room : ¬ dst.length > size - 1 := by omega
  rw [snprintfcat, if_neg room, List.take_of_length_le (by omega)]

-- `%i`, `%d` and `%ld`.
def printInt (i : Int) : CString :=
  let digits := (Nat.toDigits 10 i.natAbs).map fun c => UInt8.ofNat c.toNat
  if i < 0 then 45 :: digits else digits

def digitsValue (s : CString) : Nat :=
  (s.takeWhile isdigit).foldl (fun value b => 10 * value + (b.toNat - 48)) 0

def longMin : Int := -2 ^ 63
def longMax : Int := 2 ^ 63 - 1

-- Base 10; out-of-range values saturate.
def strtol (s : CString) : Int64 :=
  let value : Int :=
    match s.dropWhile (fun b => isspace (charToInt b)) with
    | 45 :: rest => -(digitsValue rest : Int)
    | 43 :: rest => digitsValue rest
    | rest => digitsValue rest
  Int64.ofInt (max longMin (min longMax value))

def atoi (s : CString) : Int32 :=
  (strtol s).toInt32

theorem takeWhile_text {string : CString} (noNul : 0 ∉ string) : string.takeWhile (· ≠ 0) = string := by
  rw [List.takeWhile_eq_self_iff]
  intro b member
  simpa using fun zero : b = 0 => noNul (zero ▸ member)

def strstr (haystack needle : CString) : Bool :=
  haystack.tails.any needle.isPrefixOf

-- `strtok_r` until it gives NULL; no token is empty.
def strtok (delimiter : UInt8) (s : CString) : List CString :=
  (s.splitOn delimiter).filter (· ≠ [])

end Nut
