import Nut.Common.ParseConf

set_option autoImplicit false

namespace Nut

structure Caller where
  upsName : CString
  notifyType : CString
  notifyMsg : Option CString
  deriving DecidableEq, Repr

structure UpsschedConf where
  cmdscriptArgv : List CString
  pipefn : Option CString
  lockfn : Option CString
  deriving DecidableEq, Repr

def UpsschedConf.initial : UpsschedConf :=
  { cmdscriptArgv := [], pipefn := none, lockfn := none }

inductive AtAction where
  -- not for us, or no such command
  | nothing
  | fatalx
  | sendcmd (cmd arg1 : CString) (arg2 : Option CString)
  | execCmd (cmd : CString)
  deriving DecidableEq, Repr

def parseAt (conf : UpsschedConf) (caller : Caller) (ntype un cmd ca1 : CString) (ca2 : Option CString) :
    AtAction :=
  if conf.cmdscriptArgv = [] ∨ conf.pipefn = none ∨ conf.lockfn = none then .fatalx
  else if caller.upsName ≠ un ∧ un ≠ cstr "*" then .nothing
  else if strcasecmp caller.notifyType ntype ≠ .eq then .nothing
  else if cmd = cstr "START-TIMER" then .sendcmd (cstr "START") ca1 ca2
  else if cmd = cstr "START-TIMER-SHARED" then .sendcmd (cstr "START-SHARED") ca1 ca2
  else if cmd = cstr "CANCEL-TIMER" then .sendcmd (cstr "CANCEL") ca1 ca2
  else if cmd = cstr "EXECUTE" ∧ ca1 ≠ [] then .execCmd ca1
  else .nothing

-- `DEBUG_MIN` and lines that are not known change nothing here.
def upsschedConfArg (caller : Caller) (conf : UpsschedConf) : List CString -> UpsschedConf × AtAction
  | keyword :: value :: rest =>
    if keyword = cstr "CMDSCRIPT" then ({ conf with cmdscriptArgv := value :: rest }, .nothing)
    else if keyword = cstr "DEBUG_MIN" then (conf, .nothing)
    else if keyword = cstr "PIPEFN" then ({ conf with pipefn := some value }, .nothing)
    else if keyword = cstr "LOCKFN" then ({ conf with lockfn := some value }, .nothing)
    else match rest with
      | un :: cmd :: ca1 :: more =>
        if keyword = cstr "AT" then (conf, parseAt conf caller value un cmd ca1 more.head?)
        else (conf, .nothing)
      | _ => (conf, .nothing)
  | _ => (conf, .nothing)

def checkconf (caller : Caller) : UpsschedConf -> List (List CString) -> List AtAction
  | _, [] => []
  | conf, arglist :: lines =>
    match upsschedConfArg caller conf arglist with
    | (_, .fatalx) => [.fatalx]
    | (conf, action) => action :: checkconf caller conf lines

def requestField (word : CString) : CString :=
  [32, 34] ++ pconfEncode word [] (largebuf + 8) ++ [34]

def sendcmd (caller : Caller) (cmd arg1 : CString) (arg2 : Option CString) : CString :=
  let buf := snprintf largebuf (cmd ++ requestField arg1)
  let buf := snprintfcat buf largebuf (requestField (arg2.getD []))
  let buf := snprintfcat buf largebuf (requestField caller.notifyType)
  let buf := snprintfcat buf largebuf (requestField caller.upsName)
  let buf := snprintfcat buf largebuf (requestField (caller.notifyMsg.getD []))
  snprintf (largebuf + 8) (buf ++ [10])

end Nut
