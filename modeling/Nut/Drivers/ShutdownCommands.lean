import Nut.Common.Str

set_option autoImplicit false

namespace Nut.Shutdown

def statHandled : Int := 0
def statInvalid : Int := 2
def maxSdcommandsDepth : Nat := 15

inductive Stop where
  -- too deeply nested
  | fatalx
  -- a read of a buffer that has been freed
  | freed
  | nullPointer
  | unfinished
  deriving DecidableEq

inductive Behaviour (World : Type) where
  | done (world : World) (ret : Int)
  | call (world : World) (sdcmds : Option CString) (next : World -> Int -> Option CString -> Behaviour World)

-- `upsh.instcmd` and `upsdrv_shutdown`; the second gives no result.
structure Driver (World : Type) where
  instcmd : Option (World -> CString -> Behaviour World)
  shutdown : World -> Behaviour World

-- The `call_depth`, where `strtok` goes on and what is left there, and the buffers that are allocated.
structure Process where
  callDepth : Nat
  position : Option (Nat × CString)
  buffers : List Nat
  next : Nat
  fresh : ∀ buffer ∈ buffers, buffer < next

def Process.alloc (st : Process) : Process :=
  { st with
    buffers := st.next :: st.buffers
    next := st.next + 1
    fresh := by
      intro buffer member
      rcases List.mem_cons.mp member with rfl | before
      · exact Nat.lt_succ_self _
      · exact Nat.lt_succ_of_lt (st.fresh buffer before) }

def Process.free (st : Process) (buffer : Nat) : Process :=
  { st with
    buffers := st.buffers.erase buffer
    fresh := fun other member => st.fresh other (List.mem_of_mem_erase member) }

-- `strtok` of a new text or, without one, from where it was.
def Process.strtok (st : Process) (start : Option (Nat × CString)) : Except Stop (Option CString × Process) :=
  match start.or st.position with
  | none => .error .nullPointer
  | some (buffer, text) =>
    if buffer ∈ st.buffers then
      match text.dropWhile (· = 44) with
      | [] => .ok (none, { st with position := some (buffer, []) })
      | b :: rest =>
        .ok (some (b :: rest.takeWhile (· ≠ 44)), { st with position := some (buffer, (rest.dropWhile (· ≠ 44)).drop 1) })
    else .error .freed

structure Answer where
  ret : Int
  used : Option CString
  tried : List CString
  deriving DecidableEq

section Runs

variable {World State : Type}

abbrev Caller (State World : Type) : Type :=
  State -> World -> Option CString -> Except Stop (Answer × State × World)

def runHandler (nested : Caller State World) : Behaviour World -> State -> Except Stop (Int × State × World)
  | .done world ret, st => .ok (ret, st, world)
  | .call world sdcmds next, st =>
    match nested st world sdcmds with
    | .error stop => .error stop
    | .ok (answer, st, world) => runHandler nested (next world answer.ret answer.used) st

def shutdownDefault : CString := cstr "shutdown.default"

-- The turns are for one token each.
def strtokLoop (driver : Driver World) (instcmd : World -> CString -> Behaviour World) (nested : Caller Process World) :
    Nat -> Option (Nat × CString) -> List CString -> Process -> World ->
      Except Stop (Option CString × List CString × Process × World)
  | 0, _, _, _, _ => .error .unfinished
  | turns + 1, start, tried, st, world =>
    match st.strtok start with
    | .error stop => .error stop
    | .ok (none, st) => .ok (none, tried, st, world)
    | .ok (some command, st) =>
      if command = shutdownDefault then
        match runHandler nested (driver.shutdown world) st with
        | .error stop => .error stop
        | .ok (_, st, world) => .ok (some command, tried ++ [command], st, world)
      else
        match runHandler nested (instcmd world command) st with
        | .error stop => .error stop
        | .ok (ret, st, world) =>
          if ret = statHandled then .ok (some command, tried ++ [command], st, world)
          else strtokLoop driver instcmd nested turns none (tried ++ [command]) st world

def defaultFirst (text : CString) : Bool :=
  match strstrAt text shutdownDefault with
  | some cs =>
    (cs = 0 || text[cs - 1]? = some 44) &&
      (text[cs + shutdownDefault.length]? = none || text[cs + shutdownDefault.length]? = some 44)
  | none => false

def answerOf (used : Option CString) (tried : List CString) : Answer :=
  { ret := if used.isSome then statHandled else statInvalid, used, tried }

def Process.leave (st : Process) : Process :=
  { st with callDepth := st.callDepth - 1 }

-- The levels are those left up to the limit, which the first of them is above.
def doLoopAt (driver : Driver World) : Nat -> Caller Process World
  | 0, _, _, _ => .error .fatalx
  | levels + 1, st, world, sdcmds =>
    let st := { st with callDepth := st.callDepth + 1 }
    if maxSdcommandsDepth < st.callDepth then .error .fatalx
    else
      match sdcmds.getD [] with
      | [] => .ok (answerOf none [], st.leave, world)
      | b :: text =>
        match driver.instcmd with
        | none =>
          if defaultFirst (b :: text) then
            match runHandler (doLoopAt driver levels) (driver.shutdown world) st with
            | .error stop => .error stop
            | .ok (_, st, world) => .ok (answerOf (some shutdownDefault) [shutdownDefault], st.leave, world)
          else .ok (answerOf none [], st.leave, world)
        | some instcmd =>
          match strtokLoop driver instcmd (doLoopAt driver levels) (text.length + 2) (some (st.next, b :: text)) [] st.alloc
            world with
          | .error stop => .error stop
          | .ok (used, tried, after, world) => .ok (answerOf used tried, (after.free st.next).leave, world)

def doLoopShutdownCommands (driver : Driver World) : Caller Process World := fun st =>
  doLoopAt driver (maxSdcommandsDepth + 1 - st.callDepth) st

end Runs

end Nut.Shutdown
