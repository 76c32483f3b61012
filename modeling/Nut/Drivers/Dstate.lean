import Nut.Common.State

set_option autoImplicit false

namespace Nut

def stSockBufLen : Nat := 512

structure Dstate where
  dtreeRoot : StTree
  cmdhead : CmdList
  stale : Bool
  deriving DecidableEq

def Dstate.empty : Dstate :=
  { dtreeRoot := .nil, cmdhead := [], stale := true }

-- What `send_to_all` and `send_to_one` write for a formatted text: nothing when it is empty.
def sockLine (text : CString) : List CString :=
  if text = [] then [] else [snprintf stSockBufLen text]

def formatValue (keyword var value : CString) : CString :=
  keyword ++ cstr " " ++ var ++ cstr " \"" ++ value ++ cstr "\"\n"

def formatRange (keyword var : CString) (min max : Int32) : CString :=
  keyword ++ cstr " " ++ var ++ cstr " " ++ printInt min.toInt ++ cstr " " ++ printInt max.toInt ++
    cstr "\n"

def formatWord (keyword word : CString) : CString :=
  keyword ++ cstr " " ++ word ++ cstr "\n"

def formatAux (var : CString) (aux : Int64) : CString :=
  cstr "SETAUX " ++ var ++ cstr " " ++ printInt aux.toInt ++ cstr "\n"

def flagWord (flags flag : BitVec 32) (word flist : CString) : CString :=
  if flags &&& flag ≠ 0 then snprintfcat flist smallbuf word else flist

def flagList (var : CString) (flags : BitVec 32) : CString :=
  let flist := snprintf smallbuf var
  let flist := flagWord flags stFlagRw (cstr " RW") flist
  let flist := flagWord flags stFlagString (cstr " STRING") flist
  flagWord flags stFlagNumber (cstr " NUMBER") flist

namespace Dstate

abbrev Result (ρ : Type) := Dstate × List CString × ρ

def vdstateSetinfo (now : Int) (var text : CString) (d : Dstate) : Result Int :=
  let value := snprintf stMaxValueLen text
  let (dtreeRoot, ret) := stateSetinfo now var value d.dtreeRoot
  ({ d with dtreeRoot }, if ret = 1 then sockLine (formatValue (cstr "SETINFO") var value) else [], ret)

def vdstateAddenum (now : Int) (var text : CString) (d : Dstate) : Result Int :=
  let value := snprintf stMaxValueLen text
  let (dtreeRoot, ret) := stateAddenum now var value d.dtreeRoot
  ({ d with dtreeRoot }, if ret = 1 then sockLine (formatValue (cstr "ADDENUM") var value) else [], ret)

def dstateSetflags (var : CString) (flags : BitVec 32) (d : Dstate) : Result Unit :=
  match stateTreeFind d.dtreeRoot var with
  | none => (d, [], ())
  | some node =>
    if node.immutable then (d, [], ())
    else if node.flags = flags then (d, [], ())
    else
      let dtreeRoot := (stateVisit var (fun node => (some { node with flags }, ())) (none, ()) d.dtreeRoot).1
      ({ d with dtreeRoot }, sockLine (cstr "SETFLAGS " ++ flagList var flags ++ cstr "\n"), ())

def dstateAddflags (var : CString) (addflags : BitVec 32) (d : Dstate) : Result Unit :=
  let flags := stateGetflags d.dtreeRoot var
  if flags = -1 then (d, [], ())
  else if flags &&& addflags = addflags then (d, [], ())
  else dstateSetflags var (flags ||| addflags) d

def dstateDelflags (var : CString) (delflags : BitVec 32) (d : Dstate) : Result Unit :=
  let flags := stateGetflags d.dtreeRoot var
  if flags = -1 then (d, [], ())
  else if flags &&& delflags = 0 then (d, [], ())
  else dstateSetflags var (flags &&& ~~~delflags) d

def dstateAddrange (now : Int) (var : CString) (min max : Int32) (d : Dstate) : Result Int :=
  let (dtreeRoot, ret) := stateAddrange now var min max d.dtreeRoot
  let d := { d with dtreeRoot }
  if ret = 1 then
    let (d, lines, _) := dstateAddflags var stFlagNumber d
    (d, sockLine (formatRange (cstr "ADDRANGE") var min max) ++ lines, ret)
  else (d, [], ret)

def dstateSetaux (var : CString) (aux : Int64) (d : Dstate) : Result Unit :=
  match stateTreeFind d.dtreeRoot var with
  | none => (d, [], ())
  | some node =>
    if node.aux = aux then (d, [], ())
    else
      let dtreeRoot := (stateVisit var (fun node => (some { node with aux }, ())) (none, ()) d.dtreeRoot).1
      ({ d with dtreeRoot }, sockLine (formatAux var aux), ())

def dstateAddcmd (cmdname : CString) (d : Dstate) : Result Unit :=
  let (cmdhead, ret) := stateAddcmd cmdname d.cmdhead
  ({ d with cmdhead }, if ret = 1 then sockLine (formatWord (cstr "ADDCMD") cmdname) else [], ())

def dstateDelinfo (var : CString) (d : Dstate) : Result Int :=
  let (dtreeRoot, ret) := stateDelinfo var d.dtreeRoot
  ({ d with dtreeRoot }, if ret = 1 then sockLine (formatWord (cstr "DELINFO") var) else [], ret)

def dstateDelinfoOlderthan (var : CString) (cutoff : Int) (d : Dstate) : Result Int :=
  let (dtreeRoot, ret) := stateDelinfoOlderthan var cutoff d.dtreeRoot
  ({ d with dtreeRoot }, if ret = 1 then sockLine (formatWord (cstr "DELINFO") var) else [], ret)

def dstateDelenum (now : Int) (var val : CString) (d : Dstate) : Result Int :=
  let (dtreeRoot, ret) := stateDelenum now var val d.dtreeRoot
  ({ d with dtreeRoot }, if ret = 1 then sockLine (formatValue (cstr "DELENUM") var val) else [], ret)

def dstateDelrange (now : Int) (var : CString) (min max : Int32) (d : Dstate) : Result Int :=
  let (dtreeRoot, ret) := stateDelrange now var min max d.dtreeRoot
  ({ d with dtreeRoot }, if ret = 1 then sockLine (formatRange (cstr "DELRANGE") var min max) else [], ret)

def dstateDelcmd (cmd : CString) (d : Dstate) : Result Int :=
  let (cmdhead, ret) := stateDelcmd cmd d.cmdhead
  ({ d with cmdhead }, if ret = 1 then sockLine (formatWord (cstr "DELCMD") cmd) else [], ret)

def dstateDataok (d : Dstate) : Result Unit :=
  if d.stale then ({ d with stale := false }, sockLine (cstr "DATAOK\n"), ()) else (d, [], ())

def dstateDatastale (d : Dstate) : Result Unit :=
  if d.stale then (d, [], ()) else ({ d with stale := true }, sockLine (cstr "DATASTALE\n"), ())

end Dstate

def stTreeDumpConnOneNode (node : StNode) : List CString :=
  sockLine (formatValue (cstr "SETINFO") node.var node.val) ++
    node.enumList.flatMap (fun val => sockLine (formatValue (cstr "ADDENUM") node.var val)) ++
    node.rangeList.flatMap (fun range =>
      sockLine (formatRange (cstr "ADDRANGE") node.var range.1 range.2)) ++
    (if node.aux ≠ 0 then sockLine (formatAux node.var node.aux) else []) ++
    (if node.flags ≠ 0 then
      sockLine (cstr "SETFLAGS " ++ flagList node.var node.flags ++ cstr "\n")
    else [])

def stTreeDumpConn : StTree -> List CString
  | .nil => []
  | .node left node right => stTreeDumpConn left ++ stTreeDumpConnOneNode node ++ stTreeDumpConn right

def cmdDumpConn (cmdhead : CmdList) : List CString :=
  cmdhead.flatMap fun cmd => sockLine (formatWord (cstr "ADDCMD") cmd)

def sockArgDumpall (d : Dstate) : List CString :=
  (if d.stale then sockLine (cstr "DATASTALE\n") else []) ++
    stTreeDumpConn d.dtreeRoot ++ cmdDumpConn d.cmdhead ++
    (if d.stale then [] else sockLine (cstr "DATAOK\n")) ++
    sockLine (cstr "DUMPDONE\n")

end Nut
