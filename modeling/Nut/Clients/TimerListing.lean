import Nut.Clients.CollectString
import Nut.Clients.TimerCancel

set_option autoImplicit false

namespace Nut

def usSockBufLen : Nat := 256

def divNearest (n unit : Nat) : Nat :=
  if 2 * (n % unit) < unit ∨ 2 * (n % unit) = unit ∧ n / unit % 2 = 0 then n / unit else n / unit + 1

def doubleOf (n : Nat) : Nat :=
  divNearest n (2 ^ (n.log2 - 52)) * 2 ^ (n.log2 - 52)

def difftime (time1 time0 : Int) : Int :=
  if time1 < time0 then -(doubleOf (time0 - time1).toNat : Int) else doubleOf (time1 - time0).toNat

def digitTexts (n : Nat) : CString :=
  (Nat.toDigits 10 n).map fun c => UInt8.ofNat c.toNat

def printG (i : Int) : CString :=
  if i.natAbs < 10 ^ 6 then printInt i
  else
    let length := (Nat.toDigits 10 i.natAbs).length
    let rounded := divNearest i.natAbs (10 ^ (length - 6))
    let exponent := if rounded = 10 ^ 6 then length else length - 1
    let figures := ((digitTexts rounded).reverse.dropWhile (· == 48)).reverse
    (if i < 0 then [45] else []) ++ figures.take 1 ++ (if figures.length ≤ 1 then [] else 46 :: figures.drop 1) ++
      cstr "e+" ++ (if exponent < 10 then [48] else []) ++ digitTexts exponent

example : printG (difftime 1234667 100) = cstr "1.23457e+06" := by decide +kernel

-- Each write of the answer goes through a buffer of its own.
def sendToOne (text : CString) : CString :=
  snprintf usSockBufLen text

def sendStrings (alloc : Nat -> Bool) (fresh : Nat -> UInt8) (strings : List CString) (sep ending : String) : CString :=
  let s := ((collectString alloc fresh strings (cstr sep)).map Collected.text).getD []
  sendToOne ((if s ≠ [] then s else cstr "\"\"") ++ cstr ending)

def sendTimer (alloc : Nat -> Bool) (fresh : Nat -> UInt8) (now : Int) (item : Timer) : CString :=
  sendToOne (item.name ++ cstr "\t" ++ printInt item.etime ++ cstr "\t" ++ printG (difftime item.etime now) ++ cstr "\t") ++
    sendStrings alloc fresh item.notifytypes "," "\t" ++ sendStrings alloc fresh item.upsnames "," "\t" ++
    sendStrings alloc fresh item.notifymsgs ".\t" "\n"

def listTimers (alloc : Nat -> Bool) (fresh : Nat -> UInt8) (now : Int) (thead : List Timer) : CString :=
  sendToOne (cstr "BEGIN LIST TIMERS\n") ++ thead.flatMap (sendTimer alloc fresh now) ++
    sendToOne (cstr "END LIST TIMERS\n") ++ sendToOne (cstr "OK\n")

-- `sock_arg` up to what it calls, with the arguments it reads; `none` where one is not there.
def sockArg (arglist : List CString) : Option TimerRequest :=
  if arglist.length < 1 then some .unknown
  else do
    let cmd <- arglist[0]?
    if cmd = cstr "LIST-TIMERS" then some .list
    else if cmd = cstr "CANCEL" ∨ cmd = cstr "CANCEL-MATCHED" then
      let doCancelMatched := cmd == cstr "CANCEL-MATCHED"
      if arglist.length < 3 then
        let name <- arglist[1]?
        some (.cancel { name, cname := none, notifytype := none, upsname := none, doCancelMatched })
      else if arglist.length < 6 then
        let name <- arglist[1]?
        let cname <- arglist[2]?
        some (.cancel { name, cname := some cname, notifytype := none, upsname := none, doCancelMatched })
      else
        let name <- arglist[1]?
        let cname <- arglist[2]?
        let notifytype <- arglist[3]?
        let upsname <- arglist[4]?
        let _ <- arglist[5]?
        some (.cancel { name, cname := some cname, notifytype := some notifytype, upsname := some upsname, doCancelMatched })
    else if arglist.length < 6 then some .unknown
    else if cmd = cstr "START" ∨ cmd = cstr "START-SHARED" then
      let name <- arglist[1]?
      let ofsstr <- arglist[2]?
      let notifytype <- arglist[3]?
      let upsname <- arglist[4]?
      let notifymsg <- arglist[5]?
      some (.start name ofsstr notifytype upsname notifymsg (cmd == cstr "START-SHARED"))
    else some .unknown

theorem sockArg_eq (arglist : List CString) :
    sockArg arglist = if arglist = [cstr "CANCEL"] ∨ arglist = [cstr "CANCEL-MATCHED"] then none
      else some (timerRequest arglist) := by
  have apart : cstr "CANCEL" ≠ cstr "LIST-TIMERS" ∧ cstr "CANCEL-MATCHED" ≠ cstr "LIST-TIMERS" ∧
      cstr "CANCEL" ≠ cstr "CANCEL-MATCHED" ∧ cstr "START" ≠ cstr "START-SHARED" := by decide
  obtain ⟨cancelList, matchedList, cancelMatched, starts⟩ := apart
  have unmatched : (cstr "CANCEL" == cstr "CANCEL-MATCHED") = false := by decide
  have unshared : (cstr "START" == cstr "START-SHARED") = false := by decide
  have long (rest : List CString) : ¬ rest.length + 1 + 1 + 1 + 1 + 1 + 1 < 3 ∧ ¬ rest.length + 1 + 1 + 1 + 1 + 1 + 1 < 6 := by
    omega
  obtain _ | ⟨cmd, args⟩ := arglist
  · rfl
  by_cases list : cmd = cstr "LIST-TIMERS"
  · simp [sockArg, timerRequest, list, cancelList.symm, matchedList.symm]
  by_cases cancel : cmd = cstr "CANCEL"
  · rcases args with _ | ⟨a, _ | ⟨b, _ | ⟨c, _ | ⟨d, _ | ⟨e, rest⟩⟩⟩⟩⟩ <;>
      simp [sockArg, timerRequest, cancelRequest, cancel, cancelList, cancelMatched, unmatched, long]
  by_cases matched : cmd = cstr "CANCEL-MATCHED"
  · rcases args with _ | ⟨a, _ | ⟨b, _ | ⟨c, _ | ⟨d, _ | ⟨e, rest⟩⟩⟩⟩⟩ <;>
      simp [sockArg, timerRequest, cancelRequest, matched, matchedList, cancelMatched.symm, long]
  by_cases start : cmd = cstr "START"
  · rcases args with _ | ⟨a, _ | ⟨b, _ | ⟨c, _ | ⟨d, _ | ⟨e, rest⟩⟩⟩⟩⟩ <;>
      simp [sockArg, timerRequest, start, start ▸ list, start ▸ cancel, start ▸ matched, starts, unshared, long]
  by_cases shared : cmd = cstr "START-SHARED"
  · rcases args with _ | ⟨a, _ | ⟨b, _ | ⟨c, _ | ⟨d, _ | ⟨e, rest⟩⟩⟩⟩⟩ <;>
      simp [sockArg, timerRequest, shared, shared ▸ list, shared ▸ cancel, shared ▸ matched, starts.symm, long]
  · rcases args with _ | ⟨a, _ | ⟨b, _ | ⟨c, _ | ⟨d, _ | ⟨e, rest⟩⟩⟩⟩⟩ <;>
      simp [sockArg, timerRequest, list, cancel, matched, start, shared]

def shownStrings (strings : List CString) (sep ending : String) : CString :=
  (if strings = [] then cstr "\"\"" else (cstr sep).intercalate strings) ++ cstr ending

def timerPieces (now : Int) (item : Timer) : List CString :=
  [item.name ++ cstr "\t" ++ printInt item.etime ++ cstr "\t" ++ printG (difftime item.etime now) ++ cstr "\t",
    shownStrings item.notifytypes "," "\t", shownStrings item.upsnames "," "\t",
    shownStrings item.notifymsgs ".\t" "\n"]

def timersListed (now : Int) (thead : List Timer) : CString :=
  cstr "BEGIN LIST TIMERS\n" ++ thead.flatMap (fun item => (timerPieces now item).flatten) ++
    cstr "END LIST TIMERS\n" ++ cstr "OK\n"

structure SentOf (sent meant : CString) (fits : Prop) : Prop where
  shorter : sent.length ≤ meant.length
  whole : sent = meant ↔ fits

section Sent

variable {alloc : Nat -> Bool} {fresh : Nat -> UInt8} {now : Int}

theorem sentOf_append {sent meant sent' meant' : CString} {fits fits' : Prop} (first : SentOf sent meant fits)
    (second : SentOf sent' meant' fits') : SentOf (sent ++ sent') (meant ++ meant') (fits ∧ fits') := by
  have shorter := first.shorter
  have shorter' := second.shorter
  refine ⟨by simpa using Nat.add_le_add shorter shorter', ?_⟩
  rw [<- first.whole, <- second.whole]
  constructor
  · intro same
    have lengths := congrArg List.length same
    rw [List.length_append, List.length_append] at lengths
    exact List.append_inj same (by omega)
  · rintro ⟨rfl, rfl⟩
    rfl

theorem sentOf_flatMap {sent meant : Timer -> CString} {fits : Timer -> Prop} {thead : List Timer}
    (each : ∀ item ∈ thead, SentOf (sent item) (meant item) (fits item)) :
    SentOf (thead.flatMap sent) (thead.flatMap meant) (∀ item ∈ thead, fits item) := by
  induction thead with
  | nil => exact ⟨Nat.le_refl _, by simp⟩
  | cons item rest ih =>
    have both := sentOf_append (each item List.mem_cons_self) (ih fun other member => each other (List.mem_cons_of_mem _ member))
    simpa only [List.flatMap_cons, List.forall_mem_cons] using both

theorem sentOf_cut {sent meant : CString} (cut : sent.length < usSockBufLen)
    (fits : meant.length < usSockBufLen -> sent = meant) : SentOf sent meant (meant.length < usSockBufLen) := by
  refine ⟨?_, fun same => same ▸ cut, fits⟩
  by_cases short : meant.length < usSockBufLen
  · rw [fits short]
  · omega

theorem sendToOne_length (text : CString) : (sendToOne text).length < usSockBufLen := by
  rw [sendToOne, snprintf, List.length_take, usSockBufLen]
  omega

theorem sendToOne_whole {text : CString} (fits : text.length < usSockBufLen) : sendToOne text = text :=
  List.take_of_length_le (by rw [usSockBufLen] at *; omega)

theorem sentOf_text (text : CString) : SentOf (sendToOne text) text (text.length < usSockBufLen) :=
  sentOf_cut (sendToOne_length text) sendToOne_whole

theorem sentOf_strings {strings : List CString} (filled : ∀ text ∈ strings, text ≠ [] ∧ 0 ∉ text) {sep : String}
    (sepNul : 0 ∉ cstr sep) (ending : String) :
    SentOf (sendStrings alloc fresh strings sep ending) (shownStrings strings sep ending)
      ((shownStrings strings sep ending).length < usSockBufLen) := by
  refine sentOf_cut (sendToOne_length _) fun fits => ?_
  unfold sendStrings
  dsimp only
  by_cases none_ : strings = []
  · rw [none_] at fits ⊢
    exact sendToOne_whole fits
  · have shown : shownStrings strings sep ending = (cstr sep).intercalate strings ++ cstr ending := by
      rw [shownStrings, if_neg none_]
    rw [shown] at fits ⊢
    rw [List.length_append, usSockBufLen] at fits
    have collected := @collectString_short alloc strings (some (cstr sep)) fresh none_ (fun text member => (filled text member).1)
      (fun text member => (filled text member).2) sepNul (show ((cstr sep).intercalate strings).length < 511 by omega)
    have some_ : (cstr sep).intercalate strings ≠ [] := by
      obtain ⟨first, rest, rfl⟩ := List.exists_cons_of_ne_nil none_
      have longer := intercalate_length_le (cstr sep) [first] rest
      have long := List.length_pos_of_ne_nil (filled first List.mem_cons_self).1
      have one : (cstr sep).intercalate [first] = first := by simp [List.intercalate]
      rw [one, List.singleton_append] at longer
      exact List.ne_nil_of_length_pos (by omega)
    rw [collected, Option.getD_some, Option.getD_some, if_pos some_]
    exact sendToOne_whole (by rw [List.length_append, usSockBufLen]; omega)

theorem sentOf_timer {item : Timer} (filled : item.Filled) :
    SentOf (sendTimer alloc fresh now item) (timerPieces now item).flatten
      (∀ piece ∈ timerPieces now item, piece.length < usSockBufLen) := by
  have comma : 0 ∉ cstr "," := by decide
  have dot : 0 ∉ cstr ".\t" := by decide
  have head := sentOf_text
    (item.name ++ cstr "\t" ++ printInt item.etime ++ cstr "\t" ++ printG (difftime item.etime now) ++ cstr "\t")
  have types := @sentOf_strings alloc fresh _ filled.notifytypes _ comma "\t"
  have names := @sentOf_strings alloc fresh _ filled.upsnames _ comma "\t"
  have msgs := @sentOf_strings alloc fresh _ filled.notifymsgs _ dot "\n"
  have all := sentOf_append (sentOf_append (sentOf_append head types) names) msgs
  simpa only [sendTimer, timerPieces, List.flatten_cons, List.flatten_nil, List.append_nil, List.append_assoc, List.forall_mem_cons,
    List.not_mem_nil, false_implies, implies_true, and_true, and_assoc] using all

theorem listTimers_iff {thead : List Timer} (filled : ∀ item ∈ thead, item.Filled) :
    listTimers alloc fresh now thead = timersListed now thead ↔
      ∀ item ∈ thead, ∀ piece ∈ timerPieces now item, piece.length < usSockBufLen := by
  have begin_ : sendToOne (cstr "BEGIN LIST TIMERS\n") = cstr "BEGIN LIST TIMERS\n" := by decide
  have end_ : sendToOne (cstr "END LIST TIMERS\n") = cstr "END LIST TIMERS\n" := by decide
  have ok : sendToOne (cstr "OK\n") = cstr "OK\n" := by decide
  have lines := sentOf_flatMap fun item member => @sentOf_timer alloc fresh now item (filled item member)
  rw [listTimers, timersListed, begin_, end_, ok, List.append_left_inj, List.append_left_inj, List.append_right_inj]
  exact lines.whole

end Sent

theorem sockArg_isSome (arglist : List CString) :
    (sockArg arglist).isSome = true ↔ arglist ≠ [cstr "CANCEL"] ∧ arglist ≠ [cstr "CANCEL-MATCHED"] := by
  rw [sockArg_eq, Ne, Ne, <- not_or]
  by_cases bare : arglist = [cstr "CANCEL"] ∨ arglist = [cstr "CANCEL-MATCHED"] <;> simp [bare]

-- The answer to LIST-TIMERS is whole exactly if each of the four parts of each line fits the buffer of `send_to_one`, and
-- `sock_arg` reads what it has been given, except for a CANCEL of which nothing is given.
theorem list_timers (alloc : Nat -> Bool) (fresh : Nat -> UInt8) (now : Int) {thead : List Timer}
    (filled : ∀ item ∈ thead, item.Filled) : (listTimers alloc fresh now thead = timersListed now thead ↔
        ∀ item ∈ thead, ∀ piece ∈ timerPieces now item, piece.length < usSockBufLen) ∧
      ∀ arglist, (sockArg arglist).isSome = true ↔ arglist ≠ [cstr "CANCEL"] ∧ arglist ≠ [cstr "CANCEL-MATCHED"] :=
  ⟨listTimers_iff filled, sockArg_isSome⟩

theorem list_timers_sample :
    (listTimers (fun _ => true) (fun _ => 0) 100 [sampleTimer] = timersListed 100 [sampleTimer] ↔
        ∀ item ∈ [sampleTimer], ∀ piece ∈ timerPieces 100 item, piece.length < usSockBufLen) ∧
      ∀ arglist, (sockArg arglist).isSome = true ↔ arglist ≠ [cstr "CANCEL"] ∧ arglist ≠ [cstr "CANCEL-MATCHED"] :=
  list_timers _ _ _ fun item member => by
    obtain rfl := List.mem_singleton.mp member
    exact ⟨by decide, by decide, by decide⟩

def longMessage : CString :=
  List.replicate 255 97

def longTimer : Timer :=
  { sampleTimer with notifymsgs := [longMessage] }

-- The end of the line is lost, and a CANCEL without a name is read all the same.
theorem list_timers_cut : listTimers (fun _ => true) (fun _ => 0) 100 [longTimer] ≠ timersListed 100 [longTimer] ∧
      sockArg [cstr "CANCEL"] = none := by
  have length : longMessage.length = 255 := List.length_replicate
  have filled : ∀ item ∈ [longTimer], item.Filled := fun item member => by
    obtain rfl := List.mem_singleton.mp member
    refine ⟨by decide, by decide, fun text inside => ?_⟩
    obtain rfl := List.mem_singleton.mp inside
    exact ⟨List.ne_nil_of_length_pos (by omega), fun nul => absurd (List.eq_of_mem_replicate nul) (by decide)⟩
  refine ⟨fun whole => ?_, by decide⟩
  have last : shownStrings [longMessage] ".\t" "\n" ∈ timerPieces 100 longTimer :=
    List.mem_cons_of_mem _ (List.mem_cons_of_mem _ (List.mem_cons_of_mem _ List.mem_cons_self))
  have short := (listTimers_iff filled).mp whole _ List.mem_cons_self _ last
  rw [shownStrings, if_neg (List.cons_ne_nil _ _), List.intercalate_singleton, List.length_append, length] at short
  revert short
  decide

end Nut
