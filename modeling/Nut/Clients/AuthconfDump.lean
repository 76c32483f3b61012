import Nut.Clients.AuthconfTitles
import Nut.Common.ParseConfLines

set_option autoImplicit false

namespace Nut.Nutauth

section Printer

variable (forDebug : Int)

def dumpAuthconfLineStr (var : CString) (val : Option CString) (indent : CString) : CString :=
  match val with
  | none => if forDebug ≠ 0 then indent ++ var ++ cstr " = <null>\n" else []
  | some val =>
    if forDebug = 1 ∧ val ≠ [] then indent ++ var ++ cstr " = \"" ++ pconfEncode val [] largebuf ++ cstr "\"\n"
    else indent ++ var ++ cstr " = \"" ++ val ++ cstr "\"\n"

def dumpAuthconfLineInt (var : CString) (val : Int) (indent : CString) : CString :=
  indent ++ var ++ cstr " = " ++ printInt val ++ cstr "\n"

def shownPass (showPass : Bool) (val : Option CString) : Option CString :=
  if showPass ∨ val = none then val else some (cstr "<redacted>")

def dumpAuthconfItem (node : AuthconfItem) (showPass : Bool) : CString :=
  let head := match node.section_ with
    | some (b :: section_) => (cstr "\t", cstr "[" ++ (b :: section_) ++ cstr "]\n")
    | _ => if forDebug ≠ 0 then (cstr "\t", cstr "[<null>]\n") else ([], [])
  let indent := head.1
  head.2 ++
    dumpAuthconfLineStr forDebug (cstr "USER") node.user indent ++
    dumpAuthconfLineStr forDebug (cstr "PASS") (shownPass showPass node.pass) indent ++
    dumpAuthconfLineStr forDebug (cstr "CERTPATH") node.certpath indent ++
    dumpAuthconfLineStr forDebug (cstr "CERTFILE") node.certfile indent ++
    dumpAuthconfLineStr forDebug (cstr "CERTIDENT_NAME") node.certident indent ++
    dumpAuthconfLineStr forDebug (cstr "CERTIDENT_PASS") (shownPass showPass node.certpasswd) indent ++
    dumpAuthconfLineStr forDebug (cstr "SSLBACKEND") node.sslBackend indent ++
    dumpAuthconfLineStr forDebug (cstr "CERTHOST") node.certhost indent ++
    dumpAuthconfLineInt (cstr "CERTVERIFY") node.certverify indent ++
    dumpAuthconfLineInt (cstr "FORCESSL") node.forcessl indent

def dumpAuthconfList (showPass : Bool) (authconfList : List AuthconfItem) : CString × Nat :=
  (authconfList.flatMap (dumpAuthconfItem forDebug · showPass), authconfList.length)

end Printer

structure Setting where
  var : CString
  written : CString
  meaning : CString

def Setting.line (indent : CString) (setting : Setting) : CString :=
  indent ++ setting.var ++ cstr " = " ++ setting.written

def stringSetting (var val : CString) : Setting :=
  { var, written := 34 :: val ++ [34], meaning := val }

def switchSetting (var : CString) (val : Int) : Setting :=
  { var, written := printInt val, meaning := printInt val }

section Lines

variable (item : AuthconfItem)

def AuthconfItem.strings : List (CString × Option CString) :=
  [(cstr "USER", item.user), (cstr "PASS", item.pass), (cstr "CERTPATH", item.certpath), (cstr "CERTFILE", item.certfile),
    (cstr "CERTIDENT_NAME", item.certident), (cstr "CERTIDENT_PASS", item.certpasswd), (cstr "SSLBACKEND", item.sslBackend),
    (cstr "CERTHOST", item.certhost)]

def AuthconfItem.switches : List (CString × Int) :=
  [(cstr "CERTVERIFY", item.certverify), (cstr "FORCESSL", item.forcessl)]

def AuthconfItem.written : List Setting :=
  (item.strings.flatMap fun string => string.2.toList.map (stringSetting string.1)) ++
    item.switches.map fun switch => switchSetting switch.1 switch.2

def AuthconfItem.header : Option CString :=
  item.section_.filter (· ≠ [])

def AuthconfItem.indent : CString :=
  if item.header.isSome then cstr "\t" else []

-- What is printed when it is not for debugging.
def AuthconfItem.lines : List CString :=
  item.header.toList.map (fun title => 91 :: title ++ [93]) ++ item.written.map (Setting.line item.indent)

end Lines

theorem dumpAuthconfLineStr_text (var : CString) (val : Option CString) (indent : CString) :
    dumpAuthconfLineStr 0 var val indent = linesText ((val.toList.map (stringSetting var)).map (Setting.line indent)) := by
  cases val with
  | none => rfl
  | some val =>
    have plain : ¬ ((0 : Int) = 1 ∧ val ≠ []) := fun both => absurd both.1 (by decide)
    have opening : cstr " = \"" = cstr " = " ++ [34] := by decide
    have closing : cstr "\"\n" = [34, 10] := by decide
    rw [dumpAuthconfLineStr, if_neg plain, opening, closing]
    simp [linesText, Setting.line, stringSetting]

theorem dumpAuthconfLineInt_text (var : CString) (val : Int) (indent : CString) :
    dumpAuthconfLineInt var val indent = linesText [(switchSetting var val).line indent] := by
  have newline : cstr "\n" = [10] := by decide
  rw [dumpAuthconfLineInt, newline]
  simp [linesText, Setting.line, switchSetting]

theorem dumpAuthconfItem_text (item : AuthconfItem) : dumpAuthconfItem 0 item true = linesText item.lines := by
  have opening : cstr "[" = [91] := by decide
  have closing : cstr "]\n" = [93, 10] := by decide
  have shown (val : Option CString) : shownPass true val = val := by simp [shownPass]
  have settings : linesText (item.written.map (Setting.line item.indent)) =
      dumpAuthconfLineStr 0 (cstr "USER") item.user item.indent ++
      dumpAuthconfLineStr 0 (cstr "PASS") item.pass item.indent ++
      dumpAuthconfLineStr 0 (cstr "CERTPATH") item.certpath item.indent ++
      dumpAuthconfLineStr 0 (cstr "CERTFILE") item.certfile item.indent ++
      dumpAuthconfLineStr 0 (cstr "CERTIDENT_NAME") item.certident item.indent ++
      dumpAuthconfLineStr 0 (cstr "CERTIDENT_PASS") item.certpasswd item.indent ++
      dumpAuthconfLineStr 0 (cstr "SSLBACKEND") item.sslBackend item.indent ++
      dumpAuthconfLineStr 0 (cstr "CERTHOST") item.certhost item.indent ++
      dumpAuthconfLineInt (cstr "CERTVERIFY") item.certverify item.indent ++
      dumpAuthconfLineInt (cstr "FORCESSL") item.forcessl item.indent := by
    simp only [dumpAuthconfLineStr_text, dumpAuthconfLineInt_text, <- linesText_append]
    simp [AuthconfItem.written, AuthconfItem.strings, AuthconfItem.switches]
  rw [AuthconfItem.lines, linesText_append, settings]
  unfold dumpAuthconfItem
  rw [shown, shown, opening, closing]
  rcases titled : item.section_ with _ | _ | ⟨b, title⟩
  · have header : item.header = none := by rw [AuthconfItem.header, titled, Option.filter_none]
    have indent : item.indent = [] := by rw [AuthconfItem.indent, header]; rfl
    simp [header, indent, linesText]
  · have header : item.header = none := by rw [AuthconfItem.header, titled]; rfl
    have indent : item.indent = [] := by rw [AuthconfItem.indent, header]; rfl
    simp [header, indent, linesText]
  · have header : item.header = some (b :: title) := by rw [AuthconfItem.header, titled]; rfl
    have indent : item.indent = cstr "\t" := by rw [AuthconfItem.indent, header]; rfl
    simp [header, indent, linesText]

theorem dumpAuthconfList_text (list : List AuthconfItem) :
    (dumpAuthconfList 0 true list).1 = linesText (list.flatMap AuthconfItem.lines) := by
  induction list with
  | nil => rfl
  | cons item list ih =>
    rw [List.flatMap_cons, linesText_append, <- dumpAuthconfItem_text, <- ih]
    rfl

end Nut.Nutauth
