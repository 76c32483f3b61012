import Mathlib.Data.List.DropRight
import Nut.Common.CString
import Nut.Library.PrefixCode
import Nut.Library.Printf

set_option autoImplicit false

namespace Nut

-- What a character does behind a percent sign; see the `switch` of `minimize_formatting_string`.
inductive InEscape where
  | copied
  | converts (as : UInt8)
  | skipped
  deriving DecidableEq, Repr

def inEscape (p : UInt8) : InEscape :=
  match Char.ofNat p.toNat with
  | 'l' | 'L' | 'h' | 'z' | 'j' | 't' | '*' => .copied
  | 'd' | 'i' => .converts (Printf.ascii 'i')
  | 'u' | 'o' | 'x' | 'X' => .converts (Printf.ascii 'u')
  | 'f' | 'e' | 'E' | 'g' | 'G' | 'F' | 'a' | 'A' => .converts (Printf.ascii 'f')
  | 'c' | 's' | 'p' | 'n' => .converts p
  | _ => .skipped

-- `room` is what is left of the buffer.
def minimizeLoop (room : Nat) (escaped : Bool) : CString -> CString
  | [] => []
  | 37 :: 37 :: fmt => if room = 0 then [] else minimizeLoop room escaped fmt
  | p :: fmt =>
    if room = 0 then []
    else if p = 37 then p :: minimizeLoop (room - 1) true fmt
    else if escaped then
      match inEscape p with
      | .copied => p :: minimizeLoop (room - 1) true fmt
      | .converts as => as :: minimizeLoop (room - 1) false fmt
      | .skipped => minimizeLoop room true fmt
    else minimizeLoop room false fmt

def minimizeFormattingString (buflen : Nat) (fmt : CString) : Option CString :=
  if buflen = 0 then none else some (minimizeLoop buflen false fmt)

def isConversion (b : UInt8) : Bool :=
  match Char.ofNat b.toNat with
  | '*' | 'i' | 'u' | 'f' | 'c' | 's' | 'p' | 'n' => true
  | _ => false

def validateFormattingString (fmtDynamic fmtReference : CString) : Int :=
  match minimizeFormattingString (fmtDynamic.length + 1) fmtDynamic,
    minimizeFormattingString (fmtReference.length + 1) fmtReference with
  | some bufD, some bufR =>
    if bufD = bufR then 0
    else if (bufD.rdropWhile fun b => !isConversion b).isPrefixOf bufR then 1
    else -3
  | _, _ => -2

example : validateFormattingString (cstr "%s: %5.2f%%") (cstr "%s=%g %i") = 1 := by decide +kernel

example : validateFormattingString (cstr "%S") (cstr "") = 1 := by decide +kernel

end Nut
