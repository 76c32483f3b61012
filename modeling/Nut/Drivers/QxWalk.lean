import Nut.Drivers.QxAnswers
import Nut.Drivers.Status
import Nut.Library.Runs

set_option autoImplicit false

namespace Nut.Qx

inductive WalkMode where
  | init
  | quickUpdate
  | fullUpdate
  deriving DecidableEq

-- QX_FLAG_STATIC and so on
def qxFlagStatic : BitVec 64 := 2
def qxFlagSemiStatic : BitVec 64 := 4
def qxFlagAbsent : BitVec 64 := 8
def qxFlagQuickPoll : BitVec 64 := 16
def qxFlagCmd : BitVec 64 := 32
def qxFlagSetvar : BitVec 64 := 64
def qxFlagTrim : BitVec 64 := 128
def qxFlagNonut : BitVec 64 := 1024
def qxFlagSkip : BitVec 64 := 2048
def qxFlagMappingHandled : BitVec 64 := 4096

-- What a walk and the functions of the subdriver can change, with the `qxflags` of each item of the table;
-- `rest` is what the subdriver keeps.
structure World (σ : Type) where
  own : Status
  -- the time as dstate.c takes it
  clock : Int
  upsStatus : BitVec 32
  dataHasChanged : Bool
  -- `batt.runt.act` and `batt.chrg.act`
  runtAct : Int
  chrgAct : Int
  onePackConsidered : Bool
  flags : Nat -> BitVec 64
  rest : σ

-- An element of `qx2nut`. Its functions read the state of the driver, and `preprocess`, which sees the value
-- and the array of the answer, may change it, the flags of other items included.
structure TableItem (σ : Type) where
  infoType : CString
  command : CString
  answer : AnswerArray
  answerLen : Nat
  leading : UInt8
  value : CString
  from_ : Nat
  to_ : Nat
  dfl : CString
  preprocessCommand : Option (World σ -> CString -> Option CString)
  preprocessAnswer : Option (World σ -> AnswerArray -> Nat -> Option (AnswerArray × Nat))
  preprocess : Option (CString -> (Nat -> UInt8) -> World σ -> Option CString × World σ)

structure Calls (σ : Type) where
  setvar : CString -> World σ -> World σ
  qxSetVar : Nat -> TableItem σ -> World σ -> World σ
  printNumber : CString -> CString -> CString
  guessBattery : World σ -> World σ

structure Previous where
  command : CString
  answer : CString

structure Walk (σ : Type) where
  world : World σ
  previous : Previous
  done : List (TableItem σ)
  failed : Bool

def AnswerArray.byte (answer : AnswerArray) (i : Nat) : UInt8 :=
  answer.val.getD i 0

def AnswerArray.print (old : AnswerArray) (text : CString) : AnswerArray :=
  ⟨(snprintf smallbuf text ++ 0 :: old.val.drop ((snprintf smallbuf text).length + 1)).take (smallbuf - 1), by
    rw [List.length_take]
    exact Nat.lt_of_le_of_lt (Nat.min_le_left _ _) (by decide)⟩

variable {σ : Type}

namespace World

def call (w : World σ) (op : StatusOp) : World σ :=
  { w with own := w.own.perform op }

def dstate (w : World σ) (op : DstateOp) : World σ :=
  w.call (.dstate w.clock op)

def has (w : World σ) (i : Nat) (flag : BitVec 64) : Bool :=
  w.flags i &&& flag ≠ 0

def raise (w : World σ) (i : Nat) (flag : BitVec 64) : World σ :=
  { w with flags := fun j => if j = i then w.flags j ||| flag else w.flags j }

def knows (w : World σ) (var : CString) : Bool :=
  (stateGetinfo w.own.dstate.dtreeRoot var).isSome

def statusInfo : List (CString × BitVec 32) :=
  [(cstr "OL", 1), (cstr "LB", 2), (cstr "RB", 4), (cstr "CHRG", 8), (cstr "DISCHRG", 16), (cstr "BYPASS", 32),
    (cstr "CAL", 64), (cstr "OFF", 128), (cstr "OVER", 256), (cstr "TRIM", 512), (cstr "BOOST", 1024), (cstr "FSD", 2048)]

def updateStatus (w : World σ) (value : CString) : World σ :=
  let clear := value.head? = some 33
  let value := if clear then value.tail else value
  match statusInfo.find? fun entry => strcasecmp entry.1 value = .eq with
  | some (_, mask) => { w with upsStatus := if clear then w.upsStatus &&& ~~~mask else w.upsStatus ||| mask }
  | none => w

end World

namespace TableItem

def query (item : TableItem σ) (w : World σ) : Item :=
  { command := item.command, answer := item.answer, answerLen := item.answerLen, leading := item.leading
    value := item.value, from_ := item.from_, to_ := item.to_
    preprocessCommand := item.preprocessCommand.map (· w), preprocessAnswer := item.preprocessAnswer.map (· w) }

def holding (item : TableItem σ) (answer : AnswerArray) (value : CString) : TableItem σ :=
  { item with answer, value }

def cleared (item : TableItem σ) : TableItem σ :=
  item.holding .cleared []

def isNamed (item : TableItem σ) (lead : String) : Bool :=
  (cstr lead).isPrefixOf item.infoType

end TableItem

def strTrimM (characters string : CString) : CString :=
  ((string.dropWhile (characters.contains ·)).reverse.dropWhile (characters.contains ·)).reverse

def World.publish (w : World σ) (var value : CString) : World σ :=
  let w := w.dstate (.setinfo var value)
  if isCommand var "battery.charge" then { w with chrgAct := (strtol value).toInt }
  else if isCommand var "battery.runtime" then { w with runtAct := (strtol value).toInt }
  else w

def publishValue (i : Nat) (item : TableItem σ) (value : CString) (w : World σ) : Int × World σ :=
  if w.has i qxFlagNonut then (1, w)
  else if value = [] then (-1, w)
  else (1, (w.raise i qxFlagMappingHandled).publish item.infoType value)

def upsInfovalSet (calls : Calls σ) (i : Nat) (item : TableItem σ) (w : World σ) : Int × World σ :=
  match item.preprocess with
  | some preprocess =>
    match preprocess item.value item.answer.byte w with
    | (none, w) => (-1, w)
    | (some value, w) =>
      if item.isNamed "ups.status" then (0, if value ≠ [] then w.updateStatus value else w)
      else if item.isNamed "ups.alarm" then (0, if value ≠ [] then w.call (.alarmSet value) else w)
      else publishValue i item value w
  | none =>
    let value := if w.has i qxFlagTrim then strTrimM (cstr "# ") item.value else item.value
    if isCommand item.dfl "%s" then publishValue i item value w
    else if value.all fun b => (cstr "0123456789 .").contains b then publishValue i item (calls.printNumber item.dfl value) w
    else (-1, w)

inductive Choice where
  | pass
  -- the default is published
  | absent
  | go
  deriving DecidableEq

def choose (mode : WalkMode) (i : Nat) (item : TableItem σ) (w : World σ) : Choice :=
  if w.has i qxFlagSkip then .pass
  else match mode with
  | .init =>
    if w.has i qxFlagAbsent then if w.knows item.infoType then .pass else .absent
    else if item.isNamed "ups.alarm" || item.isNamed "ups.status" then .go
    else if w.knows item.infoType then .pass else .go
  | .quickUpdate => if w.has i qxFlagQuickPoll then .go else .pass
  | .fullUpdate =>
    if w.has i (qxFlagAbsent ||| qxFlagCmd ||| qxFlagSetvar ||| qxFlagStatic) then .pass
    else if w.has i qxFlagSemiStatic && !w.dataHasChanged then .pass
    else .go

def Previous.serves (previous : Previous) (item : Item) : Bool :=
  decide (previous.command ≠ []) && decide (previous.answer ≠ []) && decide (strcasecmp previous.command item.command = .eq)

def answered (rejected : Option CString) (device : Device) (reuses : Bool) (previous : Previous) (item : Item) : Int × Item :=
  if reuses && previous.serves item then
    let answer := item.answer.print previous.answer
    processAnswer rejected { item with answer := answer } (answer.text 0).length
  else process rejected device item none

def record (item : Item) : Previous :=
  { command := snprintf smallbuf item.command, answer := snprintf smallbuf (item.answer.text 0) }

def finishItem (calls : Calls σ) (mode : WalkMode) (i : Nat) (retcode : Int) (item : TableItem σ) (w : World σ) :
    World σ × Bool :=
  if retcode ≠ 0 then
    if w.has i qxFlagQuickPoll then (w, true)
    else (if mode = .init then w.raise i qxFlagSkip else w, false)
  else match upsInfovalSet calls i item w with
  | (retcode, w) =>
    if retcode = -1 then (w, w.has i qxFlagQuickPoll)
    else (if retcode ≠ 0 ∧ mode = .init then calls.qxSetVar i item.cleared w else w, false)

variable (calls : Calls σ) (rejected : Option CString) (device : Device) (mode : WalkMode)

def step (reuses : Bool) (s : Walk σ) (item : TableItem σ) : Walk σ :=
  let i := s.done.length
  if s.failed then { s with done := s.done ++ [item] }
  else match choose mode i item s.world with
  | .pass => { s with done := s.done ++ [item] }
  | .absent =>
    let w := s.world.dstate (.setinfo item.infoType item.dfl)
    { s with world := calls.qxSetVar i item w, done := s.done ++ [item] }
  | .go =>
    if s.world.has i qxFlagCmd then { s with world := s.world.dstate (.addcmd item.infoType), done := s.done ++ [item] }
    else if s.world.has i qxFlagSetvar then
      if s.world.has i qxFlagNonut then
        { s with world := (calls.setvar item.infoType s.world).raise i qxFlagSkip, done := s.done ++ [item] }
      else { s with done := s.done ++ [item] }
    else match answered rejected device reuses s.previous (item.query s.world) with
    | (retcode, processed) =>
      match finishItem calls mode i retcode (item.holding processed.answer processed.value) s.world with
      | (w, failed) => { world := w, previous := record processed, done := s.done ++ [item.cleared], failed }

def begin_ (w : World σ) : Walk σ :=
  { world := if mode = .fullUpdate then { w with runtAct := -1, chrgAct := -1, onePackConsidered := false } else w
    previous := ⟨[], []⟩, done := [], failed := false }

def qxUpsWalk (reuses : Bool) (table : List (TableItem σ)) (w : World σ) : Bool × List (TableItem σ) × World σ :=
  let s := table.foldl (step calls rejected device mode reuses) (begin_ mode w)
  if s.failed then (false, s.done, s.world)
  else if mode = .fullUpdate ∧ (s.world.runtAct = -1 ∨ s.world.chrgAct = -1) then (true, s.done, calls.guessBattery s.world)
  else (true, s.done, s.world)

section Conditions

def Uniform (table : List (TableItem σ)) : Prop :=
  ∀ item ∈ table, ∀ other ∈ table, item.command = other.command ->
    item.preprocessCommand = other.preprocessCommand ∧ item.preprocessAnswer = other.preprocessAnswer ∧
      item.answerLen = other.answerLen

def Refused (item : Item) (answer : AnswerArray) : Prop :=
  (rejected.any fun rejected => strcasecmp (answer.text 0) rejected = .eq) = true ∨
    (item.leading ≠ 0 ∧ answer.val.getD 0 0 ≠ item.leading) ∨ (item.to_ ≠ 0 ∧ item.to_ < item.from_)

def Short (item : Item) (len : Nat) : Prop :=
  item.answerLen ≠ 0 ∧ len < item.answerLen

def CutAlike (item : Item) (reads : Bool) (answer : AnswerArray) (len : Nat) : Prop :=
  Refused rejected item answer ∨
    (Short item len ↔ Short item (answer.text 0).length) ∧
      (Short item len ∨
        (item.from_ ≤ (answer.text 0).length ∨
          (item.answer.print (answer.text 0)).text item.from_ = answer.text item.from_) ∧
        (reads = false ∨ (item.answer.print (answer.text 0)).byte = answer.byte))

def Asked (s : Walk σ) (item : TableItem σ) : Prop :=
  s.failed = false ∧ choose mode s.done.length item s.world = .go ∧ s.world.has s.done.length qxFlagCmd = false ∧
    s.world.has s.done.length qxFlagSetvar = false

-- The recorded answer is the text of the reply that the item would get now, and the item reads both alike;
-- where it would get none, it refuses the recorded answer.
def ServedAlike (s : Walk σ) (item : TableItem σ) : Prop :=
  match receive device (item.query s.world) none with
  | .error _ =>
    Refused rejected (item.query s.world) (item.answer.print s.previous.answer) ∨
      Short (item.query s.world) ((item.answer.print s.previous.answer).text 0).length
  | .ok (answer, len) =>
    answer.text 0 = s.previous.answer ∧ CutAlike rejected (item.query s.world) item.preprocess.isSome answer len

def RegularItem (s : Walk σ) (item : TableItem σ) : Prop :=
  Asked mode s item -> s.previous.serves (item.query s.world) = true -> ServedAlike rejected device s item

end Conditions

section Cutting

variable {rejected}

theorem text_clean (answer : AnswerArray) (start : Nat) : ∀ b ∈ answer.text start, (decide (b ≠ 0)) = true :=
  fun _ member => List.mem_takeWhile_imp (p := fun b => decide (b ≠ 0)) member

theorem print_text (old answer : AnswerArray) : (old.print (answer.text 0)).text 0 = answer.text 0 := by
  have short : (answer.text 0).length ≤ smallbuf - 1 := Nat.le_sub_one_of_lt (text_length answer 0)
  show List.takeWhile _ (List.drop 0 ((snprintf smallbuf (answer.text 0) ++ 0 :: _).take (smallbuf - 1))) = _
  rw [snprintf_fits (text_length answer 0), List.drop_zero, takeWhile_take, List.takeWhile_append_of_pos (text_clean answer 0),
    List.takeWhile_cons_of_neg (by decide), List.append_nil, List.take_of_length_le short]

theorem text_head {answer : AnswerArray} (some_ : answer.text 0 ≠ []) : (answer.text 0).headD 0 = answer.val.getD 0 0 := by
  obtain ⟨bytes, size⟩ := answer
  cases bytes with
  | nil => exact absurd rfl some_
  | cons b bytes =>
    show ((b :: bytes).takeWhile (· ≠ 0)).headD 0 = b
    by_cases zero : b = 0
    · subst zero
      exact absurd rfl some_
    · rw [List.takeWhile_cons_of_pos (by simpa using zero), List.headD_cons]

theorem text_within {answer other : AnswerArray} (same : other.text 0 = answer.text 0) {start : Nat}
    (within : start ≤ (answer.text 0).length) : other.text start = answer.text start := by
  have behind (a : AnswerArray) (inside : start ≤ (a.text 0).length) : a.text start = (a.text 0).drop start := by
    rw [AnswerArray.text, List.drop_zero] at inside
    rw [AnswerArray.text, takeWhile_drop _ _ inside, AnswerArray.text, List.drop_zero]
  rw [behind other (same ▸ within), behind answer within, same]

theorem refused_congr (item : Item) {answer other : AnswerArray} (same : other.text 0 = answer.text 0)
    (some_ : answer.text 0 ≠ []) : Refused rejected item other ↔ Refused rejected item answer := by
  have first : other.val.getD 0 0 = answer.val.getD 0 0 := by
    rw [<- text_head some_, <- same, text_head (same ▸ some_)]
  unfold Refused
  rw [same, first]

theorem processAnswer_failed {item : Item} {len : Nat} (failed : Refused rejected item item.answer ∨ Short item len) :
    processAnswer rejected item len = (-1, item) := by
  unfold processAnswer
  unfold Refused Short at failed
  split_ifs
  all_goals first | rfl | (exfalso; tauto)

theorem processAnswer_taken {item : Item} {len : Nat} (taken : ¬ (Refused rejected item item.answer ∨ Short item len)) :
    processAnswer rejected item len = (0, { item with value := item.extract }) := by
  unfold processAnswer
  unfold Refused Short at taken
  split_ifs
  all_goals first | rfl | (exfalso; tauto)

theorem processAnswer_cut {item : Item} {reads : Bool} {answer other : AnswerArray} {len : Nat}
    (alike : CutAlike rejected item reads answer len) (some_ : answer.text 0 ≠ [])
    (cut : other = item.answer.print (answer.text 0)) : ∃ ret value value',
      processAnswer rejected { item with answer := other } (other.text 0).length =
        (ret, { item with answer := other, value }) ∧
      processAnswer rejected { item with answer } len = (ret, { item with answer, value := value' }) ∧
      (ret = 0 -> value = value' ∧ (reads = false ∨ other.byte = answer.byte)) := by
  have text : other.text 0 = answer.text 0 := by rw [cut, print_text]
  have refused : Refused rejected item other ↔ Refused rejected item answer := refused_congr item text some_
  have failed (fails : Refused rejected item answer ∨ Short item len ∧ Short item (answer.text 0).length) :
      processAnswer rejected { item with answer := other } (other.text 0).length =
          (-1, { item with answer := other, value := item.value }) ∧
        processAnswer rejected { item with answer } len = (-1, { item with answer, value := item.value }) := by
    constructor
    · exact processAnswer_failed (fails.imp refused.mpr fun both => text ▸ both.2)
    · exact processAnswer_failed (fails.imp id And.left)
  rcases alike with refuses | ⟨shorts, same⟩
  · exact ⟨-1, _, _, (failed (.inl refuses)).1, (failed (.inl refuses)).2, fun zero => by cases zero⟩
  rcases same with short | ⟨fields, hooks⟩
  · have both := failed (.inr ⟨short, shorts.mp short⟩)
    exact ⟨-1, _, _, both.1, both.2, fun zero => by cases zero⟩
  by_cases fails : Refused rejected item answer ∨ Short item len
  · have both := failed (fails.imp id fun short => ⟨short, shorts.mp short⟩)
    exact ⟨-1, _, _, both.1, both.2, fun zero => by cases zero⟩
  · have there : ¬ (Refused rejected item other ∨ Short item (other.text 0).length) := by
      rwa [refused, text, <- shorts]
    refine ⟨0, _, _, processAnswer_taken there, processAnswer_taken fails, fun _ => ⟨?_, cut ▸ hooks⟩⟩
    have field : other.text item.from_ = answer.text item.from_ := fields.elim (text_within text) fun same => cut ▸ same
    simp only [Item.extract, text, field]

end Cutting

section Walking

variable {calls rejected device mode}

theorem finishItem_failed (i : Nat) {retcode : Int} (failed : retcode ≠ 0) (item other : TableItem σ) (w : World σ) :
    finishItem calls mode i retcode item w = finishItem calls mode i retcode other w := by
  rw [finishItem, finishItem, if_pos failed, if_pos failed]

theorem finishItem_answer {item : TableItem σ} {a b : AnswerArray} {v v' : CString} {retcode : Int}
    (same : retcode = 0 -> v = v' ∧ (item.preprocess.isSome = false ∨ a.byte = b.byte)) (i : Nat) (w : World σ) :
    finishItem calls mode i retcode (item.holding a v) w = finishItem calls mode i retcode (item.holding b v') w := by
  by_cases failed : retcode ≠ 0
  · exact finishItem_failed i failed _ _ w
  · obtain ⟨rfl, hooks⟩ := same (not_not.mp failed)
    have alike : upsInfovalSet calls i (item.holding a v) w = upsInfovalSet calls i (item.holding b v) w := by
      unfold upsInfovalSet
      cases hook : item.preprocess with
      | none => simp only [TableItem.holding, hook]; rfl
      | some preprocess =>
        have bytes : a.byte = b.byte := hooks.resolve_left (by simp [hook])
        simp only [TableItem.holding, hook, bytes]
        rfl
    rw [finishItem, finishItem, if_neg failed, if_neg failed, alike]
    rfl

-- An item to which the recorded answer is given ends as it does when its command is sent.
theorem answered_serves {s : Walk σ} {item : TableItem σ} (serves : s.previous.serves (item.query s.world) = true)
    (alike : ServedAlike rejected device s item) (i : Nat) :
    ∃ ret taken sent, answered rejected device true s.previous (item.query s.world) = (ret, taken) ∧
      process rejected device (item.query s.world) none = (ret, sent) ∧
      finishItem calls mode i ret (item.holding taken.answer taken.value) s.world =
        finishItem calls mode i ret (item.holding sent.answer sent.value) s.world := by
  have recorded : answered rejected device true s.previous (item.query s.world) =
      processAnswer rejected { item.query s.world with answer := item.answer.print s.previous.answer }
        ((item.answer.print s.previous.answer).text 0).length := by
    rw [answered, serves, Bool.and_true, if_pos rfl]
    rfl
  unfold ServedAlike at alike
  cases received : receive device (item.query s.world) none with
  | error left =>
    rw [received] at alike
    have sent : process rejected device (item.query s.world) none = (-1, left) := by rw [process, received]
    exact ⟨-1, _, left, recorded.trans (processAnswer_failed alike), sent, finishItem_failed i (by decide) _ _ _⟩
  | ok result =>
    obtain ⟨answer, len⟩ := result
    rw [received] at alike
    obtain ⟨text, cut⟩ := alike
    have some_ : answer.text 0 ≠ [] := by
      simp only [Previous.serves, Bool.and_eq_true, decide_eq_true_eq] at serves
      exact text ▸ serves.1.2
    rw [<- text] at recorded
    obtain ⟨ret, value, value', taken, sent, same⟩ := processAnswer_cut cut some_ rfl
    have asked : process rejected device (item.query s.world) none =
        processAnswer rejected { item.query s.world with answer } len := by rw [process, received]
    exact ⟨ret, _, _, recorded.trans taken, asked.trans sent, finishItem_answer same i s.world⟩

structure Beside (s r : Walk σ) : Prop where
  world : r.world = s.world
  done : r.done = s.done
  failed : r.failed = s.failed

theorem step_beside {s r : Walk σ} {item : TableItem σ} (beside : Beside s r)
    (regular : RegularItem rejected device mode s item) :
    Beside (step calls rejected device mode true s item) (step calls rejected device mode false r item) := by
  obtain ⟨_, previous, _, _⟩ := s
  obtain ⟨w, other, done, failed⟩ := r
  obtain ⟨rfl, rfl, rfl⟩ := beside
  unfold step
  dsimp only
  cases failed with
  | true => exact ⟨rfl, rfl, rfl⟩
  | false =>
    rw [if_neg Bool.false_ne_true, if_neg Bool.false_ne_true]
    cases chosen : choose mode done.length item w with
    | pass => exact ⟨rfl, rfl, rfl⟩
    | absent => exact ⟨rfl, rfl, rfl⟩
    | go =>
      dsimp only
      by_cases command : w.has done.length qxFlagCmd = true
      · rw [if_pos command, if_pos command]
        exact ⟨rfl, rfl, rfl⟩
      rw [if_neg command, if_neg command]
      by_cases setting : w.has done.length qxFlagSetvar = true
      · rw [if_pos setting, if_pos setting]
        split <;> exact ⟨rfl, rfl, rfl⟩
      rw [if_neg setting, if_neg setting]
      have asked : Asked mode ⟨w, previous, done, false⟩ item :=
        ⟨rfl, chosen, Bool.not_eq_true _ ▸ command, Bool.not_eq_true _ ▸ setting⟩
      have sending : answered rejected device false other (item.query w) = process rejected device (item.query w) none := by
        rw [answered, Bool.false_and, if_neg Bool.false_ne_true]
      rw [sending]
      by_cases serves : previous.serves (item.query w) = true
      · obtain ⟨ret, taken, sent, gives, sends, finished⟩ :=
          @answered_serves σ calls rejected device mode ⟨w, previous, done, false⟩ item serves (regular asked serves)
            done.length
        dsimp only at gives sends finished
        rw [gives, sends]
        dsimp only
        rw [finished]
        exact ⟨rfl, rfl, rfl⟩
      · have fresh : answered rejected device true previous (item.query w) = process rejected device (item.query w) none := by
          rw [answered, Bool.true_and, if_neg serves]
        rw [fresh]
        exact ⟨rfl, rfl, rfl⟩

end Walking

-- A walk that takes answers over comes to the same as one that sends each command again.
theorem reusing_walks (table : List (TableItem σ)) (w : World σ)
    (regular : Always (step calls rejected device mode true) (EachAction (RegularItem rejected device mode)) (begin_ mode w)
      table) :
    qxUpsWalk calls rejected device mode true table w = qxUpsWalk calls rejected device mode false table w := by
  have start : Beside (begin_ mode w) (begin_ mode w) := ⟨rfl, rfl, rfl⟩
  have stepped : ∀ s r item, item ∈ table -> Beside s r -> RegularItem rejected device mode s item ->
      Beside (step calls rejected device mode true s item) (step calls rejected device mode false r item) :=
    fun _ _ _ _ beside regular => step_beside beside regular
  have beside := foldl_beside stepped start (fun _ member => member) regular
  unfold qxUpsWalk
  dsimp only
  rw [beside.world, beside.done, beside.failed]

section Example

def textItem (infoType command : String) (from_ to_ : Nat) : TableItem Unit :=
  { infoType := cstr infoType, command := cstr command, answer := .cleared, answerLen := 0, leading := 40, value := []
    from_, to_, dfl := cstr "%s", preprocessCommand := none, preprocessAnswer := none, preprocess := none }

def inputItems : List (TableItem Unit) :=
  [textItem "input.voltage" "Q1" 1 5, textItem "input.frequency" "Q1" 7 10]

def noCalls : Calls Unit :=
  { setvar := fun _ w => w, qxSetVar := fun _ _ w => w, printNumber := fun _ value => value, guessBattery := fun w => w }

def freshWorld : World Unit :=
  { own := .start, clock := 0, upsStatus := 0, dataHasChanged := false, runtAct := -1, chrgAct := -1
    onePackConsidered := false, flags := fun _ => 0, rest := () }

def inputAnswer : Device :=
  answering (cstr "(230.0 49.9") (by decide)

theorem reusing_walks_inputs :
    (qxUpsWalk noCalls none inputAnswer .init true inputItems freshWorld).2.2.knows (cstr "input.frequency") = true ∧
      qxUpsWalk noCalls none inputAnswer .init true inputItems freshWorld =
        qxUpsWalk noCalls none inputAnswer .init false inputItems freshWorld := by
  refine ⟨by decide, reusing_walks _ _ _ _ inputItems freshWorld ⟨?_, ?_, trivial⟩⟩
  · intro _ serves
    exact absurd serves (by decide)
  · intro _ _
    exact ⟨rfl, .inr ⟨⟨fun short => absurd rfl short.1, fun short => absurd rfl short.1⟩, .inr ⟨.inl (by decide), .inl rfl⟩⟩⟩

def nulAnswer : Device :=
  answering (cstr "(230.0" ++ 0 :: cstr "49.9") (by decide)

def caseItems : List (TableItem Unit) :=
  [textItem "input.voltage" "QS" 1 5, textItem "input.frequency" "qs" 1 4]

def caseAnswers : Device := fun command =>
  if command = cstr "QS" then some ⟨cstr "(230.0", by decide⟩ else some ⟨cstr "(49.9", by decide⟩

def addDate (w : World Unit) (command : CString) : Option CString :=
  some (if w.knows (cstr "device.date") then command ++ cstr "D" else command)

def dateItems : List (TableItem Unit) :=
  [{ textItem "device.date" "QS" 1 4 with preprocessCommand := some addDate },
    { textItem "input.frequency" "QS" 1 4 with preprocessCommand := some addDate }]

theorem uniform_pair {item other : TableItem σ} (same : item.preprocessCommand = other.preprocessCommand ∧
    item.preprocessAnswer = other.preprocessAnswer ∧ item.answerLen = other.answerLen) : Uniform [item, other] := by
  intro a member b member' _
  simp only [List.mem_cons, List.not_mem_nil, or_false] at member member'
  rcases member with rfl | rfl <;> rcases member' with rfl | rfl
  · exact ⟨rfl, rfl, rfl⟩
  · exact same
  · exact ⟨same.1.symm, same.2.1.symm, same.2.2.symm⟩
  · exact ⟨rfl, rfl, rfl⟩

-- The walks differ for a reply with a NUL in it, for commands that differ in their case, and where what the
-- first item publishes goes into the command of the second.
theorem walks_differ : (Uniform inputItems ∧ qxUpsWalk noCalls none nulAnswer .init true inputItems freshWorld ≠
        qxUpsWalk noCalls none nulAnswer .init false inputItems freshWorld) ∧
      (Uniform caseItems ∧ qxUpsWalk noCalls none caseAnswers .init true caseItems freshWorld ≠
        qxUpsWalk noCalls none caseAnswers .init false caseItems freshWorld) ∧
      Uniform dateItems ∧ qxUpsWalk noCalls none caseAnswers .init true dateItems freshWorld ≠
        qxUpsWalk noCalls none caseAnswers .init false dateItems freshWorld := by
  refine ⟨⟨uniform_pair ⟨rfl, rfl, rfl⟩, fun same => ?_⟩, ⟨uniform_pair ⟨rfl, rfl, rfl⟩, fun same => ?_⟩,
    uniform_pair ⟨rfl, rfl, rfl⟩, fun same => ?_⟩
  · exact absurd (congrArg (fun result => result.2.2.knows (cstr "input.frequency")) same) (by decide)
  · exact absurd (congrArg (fun result => stateGetinfo result.2.2.own.dstate.dtreeRoot (cstr "input.frequency")) same) (by decide)
  · exact absurd (congrArg (fun result => stateGetinfo result.2.2.own.dstate.dtreeRoot (cstr "input.frequency")) same) (by decide)

end Example

end Nut.Qx
