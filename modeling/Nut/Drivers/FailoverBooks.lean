import Nut.Drivers.FailoverTime

set_option autoImplicit false

namespace Nut

-- What happens between the driver and one of its upstream drivers.
inductive LinkEvent where
  | contact (i : Nat) (contact : Contact)
  | line (i : Nat) (arg : List CString)
  | disconnect (i : Nat)

namespace UpsDevice

def told (ups : UpsDevice) (key : CString) : Option CString :=
  (ups.getVar key).map UpsVar.value

def runtimeOf (value : CString) : Int :=
  (strToInt value).1.getD (-1)

structure RuntimesTold (ups : UpsDevice) : Prop where
  runtime : ups.runtime = ((ups.told (cstr "battery.runtime")).map runtimeOf).getD (-1)
  runtimeLow : ups.runtimeLow = ((ups.told (cstr "battery.runtime.low")).map runtimeOf).getD (-1)

def OnlineTold (ups : UpsDevice) : Prop :=
  ups.online = true -> ups.alive = true ∧
    ∃ status, ups.told (cstr "ups.status") = some status ∧ strContainsToken status (cstr "OL") = true

instance (ups : UpsDevice) : Decidable ups.OnlineTold :=
  decidable_of_iff (ups.online = true -> ups.alive = true ∧
      (ups.told (cstr "ups.status")).any (fun status => strContainsToken status (cstr "OL")) = true)
    (by simp [OnlineTold, Option.any_eq_true])

-- As `parse_port_argument` leaves it.
structure Fresh (ups : UpsDevice) : Prop where
  alive : ups.alive = false
  online : ups.online = false
  varList : ups.varList = []
  runtime : ups.runtime = 0
  runtimeLow : ups.runtimeLow = 0

end UpsDevice

namespace Failover

def follow (w : Failover) : LinkEvent -> Failover
  | .contact i contact => if w.has i fun ups => !ups.alive then (w.upsConnect i contact).1 else w
  | .line i arg => if w.has i UpsDevice.alive then (w.upsParseProtocol i arg).1 else w
  | .disconnect i => w.upsDisconnect i

def books (w : Failover) : List UpsDevice × Nat × Nat :=
  (w.upsList, w.upsAliveCount, w.upsOnlineCount)

structure Counted (w : Failover) : Prop where
  alive : w.upsAliveCount = w.upsList.countP UpsDevice.alive
  online : w.upsOnlineCount = w.upsList.countP UpsDevice.online

-- No variable is deleted of which something else is kept.
def Tidy (w : Failover) : LinkEvent -> Prop
  | .line i arg => ∀ name, UpsLine.of arg = some (.delinfo name) -> ∀ ups, w.upsList[i]? = some ups -> ups.alive = true ->
      (name = cstr "ups.status" -> ups.online = false) ∧ (name = cstr "battery.runtime" -> ups.runtime = -1) ∧
        (name = cstr "battery.runtime.low" -> ups.runtimeLow = -1)
  | .contact _ _ => True
  | .disconnect _ => True

-- At the start of the driver.
structure Begins (w : Failover) : Prop where
  aliveCount : w.upsAliveCount = 0
  onlineCount : w.upsOnlineCount = 0
  fresh : ∀ ups ∈ w.upsList, ups.Fresh

def Reached (w : Failover) (i : Nat) (events : List LinkEvent) : Prop :=
  ∃ before contact after, events = before ++ .contact i contact :: after ∧
    ((before.foldl follow w).has i fun ups => !ups.alive) = true ∧ ((before.foldl follow w).upsConnect i contact).2 = true

end Failover

namespace UpsDevice

def noted (name value : CString) (ups : UpsDevice) : UpsDevice :=
  let ups := if name = cstr "ups.status" then
      { ups with status := some value, online := strContainsToken value (cstr "OL") } else ups
  let ups := if name = cstr "battery.runtime" then { ups with runtime := runtimeOf value } else ups
  if name = cstr "battery.runtime.low" then { ups with runtimeLow := runtimeOf value } else ups

def dropped (ups : UpsDevice) : UpsDevice :=
  { ups with
    alive := false, dumped := false, dataOk := false, online := false, primary := false
    connected := false }

def reached (heardTime : Int) (ups : UpsDevice) : UpsDevice :=
  { ups.freeState with
    parseCtx := pconfInit, connected := true, forceDstateExport := true, runtime := -1, runtimeLow := -1, alive := true
    lastHeardTime := heardTime, failureCount := 0, lastFailureTime := 0 }

def hear : UpsLine -> UpsDevice -> UpsDevice
  | .pong, ups => ups
  | .dumpdone, ups => { ups with dumped := true }
  | .datastale, ups => { ups with dataOk := false }
  | .dataok, ups => { ups with dataOk := true }
  | .delcmd cmdname, ups => ups.delCmd (upstreamCmd cmdname)
  | .addcmd cmdname, ups => ups.addCmd (upstreamCmd cmdname)
  | .delinfo name, ups => ups.delVar (rewriteDriverPrefix name)
  | .setflags name flags, ups => ups.setVarFlags (rewriteDriverPrefix name) flags
  | .setaux name aux, ups => ups.setVarAux (rewriteDriverPrefix name) aux
  | .delenum name value, ups => ups.delEnum (rewriteDriverPrefix name) value
  | .addenum name value, ups => ups.addEnum (rewriteDriverPrefix name) value
  | .setinfo name value, ups => (ups.noted name value).setVar (rewriteDriverPrefix name) value
  | .delrange name min max, ups => ups.delRange (rewriteDriverPrefix name) min max
  | .addrange name min max, ups => ups.addRange (rewriteDriverPrefix name) min max
  | .nonNumeric, ups => ups

end UpsDevice

namespace Failover

section Records

variable (w : Failover) (i : Nat)

theorem modify_same {α : Type} {change : α -> α} {l : List α} {i : Nat} (same : ∀ a, l[i]? = some a -> change a = a) :
    l.modify i change = l := by
  apply List.ext_getElem?
  intro j
  rw [List.getElem?_modify]
  by_cases here : i = j
  · subst here
    cases place : l[i]? with
    | none => rfl
    | some a => simp [same a place]
  · simp [here]

theorem upsList_modifyUps (change : UpsDevice -> UpsDevice) : (w.modifyUps i change).upsList = w.upsList.modify i change := rfl

theorem alive_same {ups : UpsDevice} (alive : ups.alive = true) : { ups with alive := true } = ups := by
  rw [<- alive]

theorem online_same {ups : UpsDevice} {online : Bool} (same : ups.online = online) : { ups with online := online } = ups := by
  rw [<- same]

theorem has_iff (flag : UpsDevice -> Bool) : w.has i flag = true ↔ ∃ ups, w.upsList[i]? = some ups ∧ flag ups = true := by
  unfold has
  cases w.upsList[i]? <;> simp

theorem upsList_isAlive : (w.upsIsAlive i).upsList = w.upsList.modify i fun ups => { ups with alive := true } := by
  unfold upsIsAlive
  split
  · next flagged =>
    obtain ⟨ups, place, alive⟩ := (w.has_iff i _).mp flagged
    refine (modify_same fun other there => ?_).symm
    obtain rfl := Option.some.inj (place.symm.trans there)
    exact alive_same alive
  · rfl

theorem upsList_isDead : (w.upsIsDead i).upsList = w.upsList := by
  unfold upsIsDead
  dsimp only
  split <;> split <;> rfl

theorem upsList_disconnect : (w.upsDisconnect i).upsList = w.upsList.modify i UpsDevice.dropped := by
  unfold upsDisconnect
  rw [upsList_modifyUps, upsList_isDead]
  rfl

theorem modify_twice {α : Type} (f g : α -> α) (l : List α) : (l.modify i f).modify i g = l.modify i fun a => g (f a) :=
  List.modify_modify_eq f g i l

theorem upsList_isOnline : (w.upsIsOnline i).upsList = w.upsList.modify i fun ups => { ups with online := true } := by
  unfold upsIsOnline
  split
  · next flagged =>
    obtain ⟨ups, place, online⟩ := (w.has_iff i _).mp flagged
    refine (modify_same fun other there => ?_).symm
    obtain rfl := Option.some.inj (place.symm.trans there)
    exact online_same online
  · rfl

theorem upsList_isOffline : (w.upsIsOffline i).upsList = w.upsList.modify i fun ups => { ups with online := false } := by
  unfold upsIsOffline
  split
  · rfl
  · next flagged =>
    refine (modify_same fun ups there => online_same ?_).symm
    rw [has, there, Option.any_some] at flagged
    exact Bool.not_eq_true _ ▸ flagged

theorem upsList_noteVar (name value : CString) :
    (w.noteVar i name value).upsList = w.upsList.modify i (UpsDevice.noted name value) := by
  have runtime (w : Failover) (l : List UpsDevice) (change : UpsDevice -> UpsDevice) (same : w.upsList = l.modify i change)
      (number : Int) (c : Prop) [Decidable c] (set : UpsDevice -> UpsDevice) :
      (if c then w.modifyUps i set else w).upsList = l.modify i fun ups => if c then set (change ups) else change ups := by
    split_ifs
    · rw [upsList_modifyUps, same, modify_twice]
    · exact same
  unfold noteVar UpsDevice.noted
  refine runtime _ _ _ (runtime _ _ _ ?_ 0 _ _) 0 _ _
  by_cases status : name = cstr "ups.status"
  · simp only [status, if_true]
    cases strContainsToken value (cstr "OL") with
    | false =>
      simp only [Bool.false_eq_true, if_false]
      rw [upsList_isOffline, upsList_modifyUps, modify_twice]
    | true =>
      simp only [if_true]
      rw [upsList_isOnline, upsList_modifyUps, modify_twice]
  · simp only [status, if_false]
    exact (List.modify_id i w.upsList).symm

theorem modifyVar_same {key : CString} {change : UpsVar -> UpsVar} {l : List UpsVar}
    (same : ∀ var, (l.find? fun var => var.key = key) = some var -> change var = var) :
    UpsDevice.modifyVar key change l = l := by
  induction l with
  | nil => rfl
  | cons var rest ih =>
    unfold UpsDevice.modifyVar
    by_cases here : var.key = key
    · rw [if_pos here, same var (by simp [here])]
    · rw [if_neg here, ih fun other found => same other (by simpa [here] using found)]

theorem updateVar_same {ups : UpsDevice} {key : CString} {change : UpsVar -> UpsVar}
    (same : ∀ var, ups.getVar key = some var -> change var = var) : ups.updateVar key change = ups := by
  unfold UpsDevice.updateVar
  rw [modifyVar_same same]

@[simp] theorem books_call (op : StatusOp) : (w.call op).books = w.books := rfl

@[simp] theorem books_dstate (op : DstateOp) : (w.dstate op).books = w.books := rfl

@[simp] theorem books_statusCommit : w.statusCommit.books = w.books := rfl

@[simp] theorem books_alarmCommit : w.alarmCommit.books = w.books := rfl

theorem books_clearVar (key : CString) : (w.clearVar key).books = w.books := by
  unfold clearVar
  dsimp only
  split_ifs <;> simp

theorem books_modifyUps {w w' : Failover} (same : w'.books = w.books) (change : UpsDevice -> UpsDevice) :
    (w'.modifyUps i change).books = (w.modifyUps i change).books := by
  simp only [books, modifyUps, Prod.mk.injEq] at same ⊢
  exact ⟨by rw [same.1], same.2⟩

theorem books_primary {publish : Failover -> Failover} (kept : ∀ w : Failover, (publish w).books = w.books)
    (change : UpsDevice -> UpsDevice) :
    ((w.ifPrimary i publish).modifyUps i change).books = (w.modifyUps i change).books := by
  refine books_modifyUps i ?_ change
  unfold ifPrimary
  split
  · exact kept w
  · rfl

theorem books_same {change : UpsDevice -> UpsDevice} (same : ∀ ups, w.upsList[i]? = some ups -> change ups = ups) :
    w.books = (w.modifyUps i change).books := by
  unfold books modifyUps
  rw [modify_same same]

theorem books_upsDelCmd (val : CString) : (w.upsDelCmd i val).books = (w.modifyUps i (UpsDevice.delCmd val)).books := by
  unfold upsDelCmd
  cases place : w.upsList[i]? with
  | none => exact w.books_same i fun ups there => by simp [place] at there
  | some ups =>
    dsimp only
    split_ifs with present
    · exact w.books_primary i (fun w => books_dstate w _) _
    · refine w.books_same i fun other there => ?_
      obtain rfl := Option.some.inj (place.symm.trans there)
      unfold UpsDevice.hasCmd at present
      rw [UpsDevice.delCmd, List.eraseP_of_forall_not]
      simpa using present

theorem books_upsDelVar (key : CString) : (w.upsDelVar i key).books = (w.modifyUps i (UpsDevice.delVar key)).books := by
  unfold upsDelVar
  cases place : w.upsList[i]? with
  | none => exact w.books_same i fun ups there => by simp [place] at there
  | some ups =>
    dsimp only
    cases found : ups.getVar key with
    | some var => exact w.books_primary i (fun w => books_clearVar w _) _
    | none =>
      refine w.books_same i fun other there => ?_
      obtain rfl := Option.some.inj (place.symm.trans there)
      rw [UpsDevice.delVar, List.eraseP_of_forall_not]
      simpa [UpsDevice.getVar] using found

theorem books_delPart {key : CString} {change : UpsVar -> UpsVar} {present : UpsVar -> Prop}
    (absent : ∀ var, (w.upsList[i]?.bind fun ups => ups.getVar key) = some var -> ¬ present var)
    (same : ∀ var, ¬ present var -> change var = var) :
    w.books = (w.modifyUps i fun ups => ups.updateVar key change).books := by
  refine w.books_same i fun ups there => updateVar_same fun var found => same var (absent var ?_)
  rw [there, Option.bind_some, found]

theorem books_upsDelEnum (key val : CString) :
    (w.upsDelEnum i key val).books = (w.modifyUps i (UpsDevice.delEnum key val)).books := by
  have same (var : UpsVar) (absent : ¬ val ∈ var.enumList) : { var with enumList := var.enumList.erase val } = var := by
    rw [List.erase_of_not_mem absent]
  unfold upsDelEnum
  cases found : w.upsList[i]?.bind fun ups => ups.getVar key with
  | none => exact w.books_delPart i (fun var there => by simp [found] at there) same
  | some var =>
    dsimp only
    split_ifs with present
    · exact w.books_primary i (fun w => books_dstate w _) _
    · refine w.books_delPart i (fun other there => ?_) same
      rwa [<- Option.some.inj (found.symm.trans there)]

theorem books_upsDelRange (key : CString) (min max : Int32) :
    (w.upsDelRange i key min max).books = (w.modifyUps i (UpsDevice.delRange key min max)).books := by
  have same (var : UpsVar) (absent : ¬ (min, max) ∈ var.rangeList) :
      { var with rangeList := var.rangeList.erase (min, max) } = var := by
    rw [List.erase_of_not_mem absent]
  unfold upsDelRange
  cases found : w.upsList[i]?.bind fun ups => ups.getVar key with
  | none => exact w.books_delPart i (fun var there => by simp [found] at there) same
  | some var =>
    dsimp only
    split_ifs with present
    · exact w.books_primary i (fun w => books_dstate w _) _
    · refine w.books_delPart i (fun other there => ?_) same
      rwa [<- Option.some.inj (found.symm.trans there)]

theorem books_followLine (line : UpsLine) (other : ∀ name value, line ≠ .setinfo name value) :
    (w.followLine i line).books = (w.modifyUps i (UpsDevice.hear line)).books := by
  cases line with
  | pong => exact w.books_same i fun _ _ => rfl
  | nonNumeric => exact w.books_same i fun _ _ => rfl
  | delcmd cmdname => exact books_upsDelCmd ..
  | delinfo name => exact books_upsDelVar ..
  | delenum name value => exact books_upsDelEnum ..
  | delrange name min max => exact books_upsDelRange ..
  | setinfo name value => exact absurd rfl (other name value)
  | dumpdone => rfl
  | datastale => rfl
  | dataok => rfl
  | addcmd cmdname => rfl
  | setflags name flags => rfl
  | setaux name aux => rfl
  | addenum name value => rfl
  | addrange name min max => rfl

theorem upsList_followLine (line : UpsLine) : (w.followLine i line).upsList = w.upsList.modify i (UpsDevice.hear line) := by
  by_cases set : ∃ name value, line = .setinfo name value
  · obtain ⟨name, value, rfl⟩ := set
    unfold followLine
    rw [upsList_modifyUps, upsList_noteVar, modify_twice]
    rfl
  · have books := w.books_followLine i line fun name value same => set ⟨name, value, same⟩
    exact congrArg Prod.fst books

end Records

section Counts

variable {w : Failover} {i : Nat}

theorem countP_modify {α : Type} {p : α -> Bool} {f : α -> α} {l : List α} {i : Nat} {a : α} (place : l[i]? = some a) :
    (l.modify i f).countP p + (if p a then 1 else 0) = l.countP p + if p (f a) then 1 else 0 := by
  obtain ⟨inside, rfl⟩ := List.getElem?_eq_some_iff.mp place
  have positive : (if p l[i] then 1 else 0) ≤ l.countP p := List.boole_getElem_le_countP inside
  have set : l.modify i f = l.set i (f l[i]) := by
    rw [List.modify_eq_set_getElem?, place]
    rfl
  rw [set, List.countP_set inside]
  omega

theorem counted_congr {w w' : Failover} (same : w'.books = w.books) (counted : w.Counted) : w'.Counted := by
  simp only [books, Prod.mk.injEq] at same
  obtain ⟨list, aliveCount, onlineCount⟩ := same
  exact ⟨by rw [aliveCount, list, counted.alive], by rw [onlineCount, list, counted.online]⟩

theorem counted_modifyUps {change : UpsDevice -> UpsDevice} (counted : w.Counted)
    (kept : ∀ ups, w.upsList[i]? = some ups -> (change ups).alive = ups.alive ∧ (change ups).online = ups.online) :
    (w.modifyUps i change).Counted := by
  cases place : w.upsList[i]? with
  | none => exact counted_congr (w.books_same i fun ups there => by simp [place] at there).symm counted
  | some ups =>
    obtain ⟨alive, online⟩ := kept ups place
    have aliveCount := @countP_modify _ UpsDevice.alive change _ _ _ place
    have onlineCount := @countP_modify _ UpsDevice.online change _ _ _ place
    rw [alive] at aliveCount
    rw [online] at onlineCount
    refine ⟨?_, ?_⟩
    · rw [upsList_modifyUps, Nat.add_right_cancel aliveCount]
      exact counted.alive
    · rw [upsList_modifyUps, Nat.add_right_cancel onlineCount]
      exact counted.online

theorem counted_isAlive (inside : i < w.upsList.length) (counted : w.Counted) : (w.upsIsAlive i).Counted := by
  unfold upsIsAlive
  split
  · exact counted
  · next dead =>
    obtain ⟨ups, place⟩ : ∃ ups, w.upsList[i]? = some ups := ⟨_, List.getElem?_eq_getElem inside⟩
    rw [has, place, Option.any_some, Bool.not_eq_true] at dead
    have aliveCount := @countP_modify _ UpsDevice.alive (fun ups => { ups with alive := true }) _ _ _ place
    have onlineCount := @countP_modify _ UpsDevice.online (fun ups => { ups with alive := true }) _ _ _ place
    simp only [dead, Bool.false_eq_true, if_false, if_true, Nat.add_zero] at aliveCount
    refine ⟨?_, ?_⟩
    · rw [counted.alive]
      exact aliveCount.symm
    · exact counted.online.trans (Nat.add_right_cancel onlineCount).symm

theorem counted_isOnline (inside : i < w.upsList.length) (counted : w.Counted) : (w.upsIsOnline i).Counted := by
  unfold upsIsOnline
  split
  · exact counted
  · next offline =>
    obtain ⟨ups, place⟩ : ∃ ups, w.upsList[i]? = some ups := ⟨_, List.getElem?_eq_getElem inside⟩
    rw [has, place, Option.any_some, Bool.not_eq_true] at offline
    have aliveCount := @countP_modify _ UpsDevice.alive (fun ups => { ups with online := true }) _ _ _ place
    have onlineCount := @countP_modify _ UpsDevice.online (fun ups => { ups with online := true }) _ _ _ place
    simp only [offline, Bool.false_eq_true, if_false, if_true, Nat.add_zero] at onlineCount
    refine ⟨?_, ?_⟩
    · exact counted.alive.trans (Nat.add_right_cancel aliveCount).symm
    · rw [counted.online]
      exact onlineCount.symm

theorem counted_isOffline (counted : w.Counted) : (w.upsIsOffline i).Counted := by
  unfold upsIsOffline
  split
  · next flagged =>
    obtain ⟨ups, place, online⟩ := (w.has_iff i _).mp flagged
    have aliveCount := @countP_modify _ UpsDevice.alive (fun ups => { ups with online := false }) _ _ _ place
    have onlineCount := @countP_modify _ UpsDevice.online (fun ups => { ups with online := false }) _ _ _ place
    simp only [online, Bool.false_eq_true, if_false, if_true, Nat.add_zero] at onlineCount
    refine ⟨?_, ?_⟩
    · exact counted.alive.trans (Nat.add_right_cancel aliveCount).symm
    · rw [counted.online, <- onlineCount]
      rfl
  · exact counted

theorem counted_disconnect (counted : w.Counted) : (w.upsDisconnect i).Counted := by
  cases place : w.upsList[i]? with
  | none =>
    have dead : w.upsIsDead i = w := by
      unfold upsIsDead
      simp [has, place]
    unfold upsDisconnect
    rw [dead]
    exact counted_congr (w.books_same i fun ups there => by simp [place] at there).symm counted
  | some ups =>
    have aliveCount := @countP_modify _ UpsDevice.alive UpsDevice.dropped _ _ _ place
    have onlineCount := @countP_modify _ UpsDevice.online UpsDevice.dropped _ _ _ place
    have both : (w.upsIsDead i).upsAliveCount = w.upsAliveCount - (if ups.alive then 1 else 0) ∧
        (w.upsIsDead i).upsOnlineCount = w.upsOnlineCount - if ups.online then 1 else 0 := by
      unfold upsIsDead
      simp only [has, place, Option.any_some]
      cases alive : ups.alive <;> cases online : ups.online <;> simp [place, online]
    have flags : ups.dropped.alive = false ∧ ups.dropped.online = false := ⟨rfl, rfl⟩
    simp only [flags, Bool.false_eq_true, if_false, Nat.add_zero] at aliveCount onlineCount
    refine ⟨?_, ?_⟩
    · rw [upsList_disconnect, <- Nat.sub_eq_of_eq_add aliveCount.symm, <- counted.alive]
      exact both.1
    · rw [upsList_disconnect, <- Nat.sub_eq_of_eq_add onlineCount.symm, <- counted.online]
      exact both.2

theorem counted_noteVar (name value : CString) (inside : i < w.upsList.length) (counted : w.Counted) :
    (w.noteVar i name value).Counted := by
  have noted (w : Failover) (counted : w.Counted) (c : Prop) [Decidable c] (set : UpsDevice -> UpsDevice)
      (kept : ∀ ups, (set ups).alive = ups.alive ∧ (set ups).online = ups.online) :
      (if c then w.modifyUps i set else w).Counted := by
    split_ifs
    · exact counted_modifyUps counted fun ups _ => kept ups
    · exact counted
  unfold noteVar
  dsimp only
  refine noted _ (noted _ ?_ (name = cstr "battery.runtime") _ ?_) (name = cstr "battery.runtime.low") _ ?_
  case refine_2 => exact fun _ => ⟨rfl, rfl⟩
  case refine_3 => exact fun _ => ⟨rfl, rfl⟩
  have told : (w.modifyUps i fun ups => { ups with status := some value }).Counted :=
    counted_modifyUps counted fun _ _ => ⟨rfl, rfl⟩
  split_ifs with status online
  · exact counted_isOnline (by rwa [upsList_modifyUps, List.length_modify]) told
  · exact counted_isOffline told
  · exact counted

end Counts

section Devices

variable {ups : UpsDevice} {key name value : CString}

theorem hear_flags (line : UpsLine) (other : ∀ name value, line ≠ .setinfo name value) :
    (ups.hear line).alive = ups.alive ∧ (ups.hear line).online = ups.online ∧ (ups.hear line).runtime = ups.runtime ∧
      (ups.hear line).runtimeLow = ups.runtimeLow := by
  cases line with
  | setinfo name value => exact absurd rfl (other name value)
  | addcmd cmdname =>
    rw [UpsDevice.hear, UpsDevice.addCmd]
    split_ifs <;> exact ⟨rfl, rfl, rfl, rfl⟩
  | _ => exact ⟨rfl, rfl, rfl, rfl⟩

theorem getVar_updateVar {change : UpsVar -> UpsVar} (kept : ∀ var, (change var).key = var.key) (ups : UpsDevice)
    (other : CString) :
    (ups.updateVar other change).getVar key = if other = key then (ups.getVar key).map change else ups.getVar key := by
  unfold UpsDevice.getVar UpsDevice.updateVar
  dsimp only
  induction ups.varList with
  | nil => simp [UpsDevice.modifyVar]
  | cons var rest ih =>
    unfold UpsDevice.modifyVar
    by_cases here : var.key = other
    · subst here
      rw [if_pos rfl]
      by_cases same : var.key = key
      · simp [kept, same]
      · simp [kept, same]
    · rw [if_neg here]
      by_cases same : var.key = key
      · have apart : other ≠ key := fun found => here (same.trans found.symm)
        simp [same, apart]
      · simpa [same] using ih

theorem told_updateVar {change : UpsVar -> UpsVar}
    (kept : ∀ var, (change var).key = var.key ∧ (change var).value = var.value) (ups : UpsDevice) (other : CString) :
    (ups.updateVar other change).told key = ups.told key := by
  rw [UpsDevice.told, getVar_updateVar fun var => (kept var).1]
  split_ifs
  · rw [Option.map_map, UpsDevice.told]
    congr 1
    funext var
    exact (kept var).2
  · rfl

theorem keys_updateVar {change : UpsVar -> UpsVar} (kept : ∀ var, (change var).key = var.key) (ups : UpsDevice)
    (other : CString) : (ups.updateVar other change).varList.map UpsVar.key = ups.varList.map UpsVar.key := by
  unfold UpsDevice.updateVar
  dsimp only
  induction ups.varList with
  | nil => rfl
  | cons var rest ih =>
    unfold UpsDevice.modifyVar
    split_ifs
    · rw [List.map_cons, List.map_cons, kept]
    · rw [List.map_cons, List.map_cons, ih]

theorem told_setVar (ups : UpsDevice) (other value : CString) :
    (ups.setVar other value).told key = if other = key then some value else ups.told key := by
  unfold UpsDevice.setVar
  cases found : ups.getVar other with
  | none =>
    unfold UpsDevice.told UpsDevice.getVar at *
    dsimp only
    rw [List.find?_append]
    by_cases same : other = key
    · subst same
      simp [found]
    · simp [same]
  | some var =>
    dsimp only
    by_cases unchanged : var.value = value
    · rw [if_pos unchanged]
      split_ifs with same
      · rw [UpsDevice.told, <- same, found, <- unchanged]
        rfl
      · rfl
    · rw [if_neg unchanged, UpsDevice.told, getVar_updateVar (by simp)]
      split_ifs with same
      · rw [<- same, found]
        rfl
      · rfl

theorem told_delVar (unique : (ups.varList.map UpsVar.key).Nodup) (other : CString) :
    (ups.delVar other).told key = if other = key then none else ups.told key := by
  unfold UpsDevice.told UpsDevice.getVar UpsDevice.delVar
  dsimp only
  generalize ups.varList = vars at unique
  induction vars with
  | nil => simp
  | cons var rest ih =>
    rw [List.map_cons, List.nodup_cons] at unique
    by_cases here : var.key = other
    · subst here
      rw [List.eraseP_cons_of_pos (by simp)]
      by_cases same : var.key = key
      · subst same
        have none_ : (rest.find? fun other => other.key = var.key) = none := by
          rw [List.find?_eq_none]
          intro other member found
          exact unique.1 (List.mem_map.mpr ⟨other, member, by simpa using found⟩)
        simp [none_]
      · simp [same]
    · rw [List.eraseP_cons_of_neg (by simpa using here)]
      by_cases same : var.key = key
      · have apart : other ≠ key := fun found => here (same.trans found.symm)
        simp [same, apart]
      · simpa [same] using ih unique.2

theorem unique_setVar (unique : (ups.varList.map UpsVar.key).Nodup) (other value : CString) :
    ((ups.setVar other value).varList.map UpsVar.key).Nodup := by
  unfold UpsDevice.setVar
  cases found : ups.getVar other with
  | none =>
    simp only [List.map_append, List.map_cons, List.map_nil]
    refine List.nodup_append.mpr ⟨unique, List.nodup_singleton _, fun k member k' last same => ?_⟩
    obtain ⟨var, inside, rfl⟩ := List.mem_map.mp member
    rw [List.mem_singleton.mp last] at same
    have absent := List.find?_eq_none.mp found var inside
    simp [same] at absent
  | some var =>
    dsimp only
    split_ifs
    · exact unique
    · rwa [keys_updateVar (by simp)]

theorem unique_delVar (unique : (ups.varList.map UpsVar.key).Nodup) (other : CString) :
    ((ups.delVar other).varList.map UpsVar.key).Nodup := unique.sublist (List.eraseP_sublist.map _)

theorem rewriteDriverPrefix_iff (driver : ¬ cstr "driver." <+: key) (upstream : ¬ cstr "upstream." <+: key) :
    rewriteDriverPrefix name = key ↔ name = key := by
  unfold rewriteDriverPrefix
  split_ifs with driven
  · have front : cstr "upstream." <+: snprintf smallbuf (cstr "upstream." ++ name) := by
      have split : snprintf smallbuf (cstr "upstream." ++ name) = cstr "upstream." ++ name.take (smallbuf - 1 - 9) :=
        List.take_append
      rw [split]
      exact List.prefix_append _ _
    constructor
    · intro same
      exact absurd (same ▸ front) upstream
    · intro same
      exact absurd (same ▸ List.isPrefixOf_iff_prefix.mp driven) driver
  · rfl

theorem told_hear (line : UpsLine) (other : ∀ name value, line ≠ .setinfo name value) (kept : ∀ name, line ≠ .delinfo name) :
    (ups.hear line).told key = ups.told key ∧
      ((ups.hear line).varList.map UpsVar.key) = ups.varList.map UpsVar.key := by
  have parts {change : UpsVar -> UpsVar} (same : ∀ var, (change var).key = var.key ∧ (change var).value = var.value)
      (other : CString) : (ups.updateVar other change).told key = ups.told key ∧
        (ups.updateVar other change).varList.map UpsVar.key = ups.varList.map UpsVar.key :=
    ⟨told_updateVar same ups other, keys_updateVar (fun var => (same var).1) ups other⟩
  cases line with
  | setinfo name value => exact absurd rfl (other name value)
  | delinfo name => exact absurd rfl (kept name)
  | addcmd cmdname =>
    rw [UpsDevice.hear, UpsDevice.addCmd]
    split_ifs <;> exact ⟨rfl, rfl⟩
  | setflags name flags => exact parts (fun var => by split_ifs <;> exact ⟨rfl, rfl⟩) _
  | setaux name aux => exact parts (fun var => by split_ifs <;> exact ⟨rfl, rfl⟩) _
  | addenum name value => exact parts (fun var => by split_ifs <;> exact ⟨rfl, rfl⟩) _
  | addrange name min max => exact parts (fun var => by split_ifs <;> exact ⟨rfl, rfl⟩) _
  | delenum name value => exact parts (fun var => by exact ⟨rfl, rfl⟩) _
  | delrange name min max => exact parts (fun var => by exact ⟨rfl, rfl⟩) _
  | _ => exact ⟨rfl, rfl⟩

-- What holds of a record in a run, with whether its driver was reached before.
structure Sound (reached : Prop) (ups : UpsDevice) : Prop where
  unique : (ups.varList.map UpsVar.key).Nodup
  online : ups.OnlineTold
  runtimes : reached -> ups.RuntimesTold
  fresh : ¬ reached -> ups.Fresh

theorem noted_fields (name value : CString) (ups : UpsDevice) :
    (ups.noted name value).alive = ups.alive ∧ (ups.noted name value).varList = ups.varList ∧
      (ups.noted name value).online =
        (if name = cstr "ups.status" then strContainsToken value (cstr "OL") else ups.online) ∧
      (ups.noted name value).runtime =
        (if name = cstr "battery.runtime" then UpsDevice.runtimeOf value else ups.runtime) ∧
      (ups.noted name value).runtimeLow =
        if name = cstr "battery.runtime.low" then UpsDevice.runtimeOf value else ups.runtimeLow := by
  unfold UpsDevice.noted
  dsimp only
  split_ifs <;> exact ⟨rfl, rfl, rfl, rfl, rfl⟩

theorem setVar_fields (other value : CString) (ups : UpsDevice) :
    (ups.setVar other value).alive = ups.alive ∧ (ups.setVar other value).online = ups.online ∧
      (ups.setVar other value).runtime = ups.runtime ∧ (ups.setVar other value).runtimeLow = ups.runtimeLow := by
  unfold UpsDevice.setVar
  split
  · split_ifs <;> exact ⟨rfl, rfl, rfl, rfl⟩
  · exact ⟨rfl, rfl, rfl, rfl⟩

def keptOf (key : CString) : Prop :=
  key = cstr "ups.status" ∨ key = cstr "battery.runtime" ∨ key = cstr "battery.runtime.low"

theorem rewrite_kept (kept : keptOf key) (name : CString) : rewriteDriverPrefix name = key ↔ name = key := by
  rcases kept with rfl | rfl | rfl <;> exact rewriteDriverPrefix_iff (by decide) (by decide)

theorem told_setinfo (kept : keptOf key) (name value : CString) :
    (ups.hear (.setinfo name value)).told key = if name = key then some value else ups.told key := by
  have told : (ups.noted name value).told key = ups.told key := by
    unfold UpsDevice.told UpsDevice.getVar
    rw [(noted_fields name value ups).2.1]
  rw [UpsDevice.hear, told_setVar, told]
  simp only [rewrite_kept kept]

theorem told_delinfo (unique : (ups.varList.map UpsVar.key).Nodup) (kept : keptOf key) (name : CString) :
    (ups.hear (.delinfo name)).told key = if name = key then none else ups.told key := by
  rw [UpsDevice.hear, told_delVar unique]
  simp only [rewrite_kept kept]

theorem sound_hear {reached : Prop} (sound : Sound reached ups) (alive : ups.alive = true) (line : UpsLine)
    (tidy : ∀ name, line = .delinfo name ->
      (name = cstr "ups.status" -> ups.online = false) ∧ (name = cstr "battery.runtime" -> ups.runtime = -1) ∧
        (name = cstr "battery.runtime.low" -> ups.runtimeLow = -1)) : Sound reached (ups.hear line) := by
  have was : reached := by
    by_contra never
    rw [(sound.fresh never).alive] at alive
    cases alive
  have runtimes := sound.runtimes was
  by_cases set : ∃ name value, line = .setinfo name value
  · obtain ⟨name, value, rfl⟩ := set
    obtain ⟨alive', vars, online, runtime, runtimeLow⟩ := noted_fields name value ups
    have fields := setVar_fields (rewriteDriverPrefix name) value (ups.noted name value)
    refine ⟨unique_setVar (by rw [vars]; exact sound.unique) _ _, fun flagged => ⟨?_, ?_⟩, fun _ => ⟨?_, ?_⟩,
      fun never => absurd was never⟩
    · exact fields.1.trans (alive'.trans alive)
    · rw [told_setinfo (.inl rfl)]
      rw [UpsDevice.hear, fields.2.1, online] at flagged
      split_ifs at flagged ⊢ with status
      · exact ⟨value, rfl, flagged⟩
      · exact (sound.online flagged).2
    · rw [told_setinfo (.inr (.inl rfl)), UpsDevice.hear, fields.2.2.1, runtime]
      split_ifs
      · rfl
      · exact runtimes.runtime
    · rw [told_setinfo (.inr (.inr rfl)), UpsDevice.hear, fields.2.2.2, runtimeLow]
      split_ifs
      · rfl
      · exact runtimes.runtimeLow
  · have other (name value : CString) : line ≠ .setinfo name value := fun same => set ⟨name, value, same⟩
    obtain ⟨alive', online, runtime, runtimeLow⟩ := @hear_flags ups line other
    by_cases deleted : ∃ name, line = .delinfo name
    · obtain ⟨name, rfl⟩ := deleted
      obtain ⟨status, charge, low⟩ := tidy name rfl
      refine ⟨unique_delVar sound.unique _, fun flagged => ⟨alive'.trans alive, ?_⟩, fun _ => ⟨?_, ?_⟩,
        fun never => absurd was never⟩
      · rw [online] at flagged
        rw [told_delinfo sound.unique (.inl rfl), if_neg fun here => by rw [status here] at flagged; cases flagged]
        exact (sound.online flagged).2
      · rw [told_delinfo sound.unique (.inr (.inl rfl)), runtime]
        split_ifs with here
        · exact charge here
        · exact runtimes.runtime
      · rw [told_delinfo sound.unique (.inr (.inr rfl)), runtimeLow]
        split_ifs with here
        · exact low here
        · exact runtimes.runtimeLow
    · have told {key : CString} := @told_hear ups key line other fun name same => deleted ⟨name, same⟩
      refine ⟨?_, fun flagged => ⟨alive'.trans alive, ?_⟩, fun _ => ⟨?_, ?_⟩, fun never => absurd was never⟩
      · rw [(@told []).2]
        exact sound.unique
      · rw [told.1]
        exact (sound.online (online ▸ flagged)).2
      · rw [told.1, runtime]
        exact runtimes.runtime
      · rw [told.1, runtimeLow]
        exact runtimes.runtimeLow

theorem sound_dropped {reached : Prop} (sound : Sound reached ups) : Sound reached ups.dropped := by
  refine ⟨sound.unique, fun flagged => ?_, fun was => ⟨?_, ?_⟩, fun never => ?_⟩
  · cases flagged
  · exact (sound.runtimes was).runtime
  · exact (sound.runtimes was).runtimeLow
  · have fresh := sound.fresh never
    exact { fresh with alive := rfl, online := rfl }

theorem sound_congr {reached : Prop} {ups' : UpsDevice} (sound : Sound reached ups)
    (same : ups'.alive = ups.alive ∧ ups'.online = ups.online ∧ ups'.varList = ups.varList ∧ ups'.runtime = ups.runtime ∧
      ups'.runtimeLow = ups.runtimeLow) : Sound reached ups' := by
  obtain ⟨alive, online, vars, runtime, runtimeLow⟩ := same
  have told (key : CString) : ups'.told key = ups.told key := by
    unfold UpsDevice.told UpsDevice.getVar
    rw [vars]
  refine ⟨by rw [vars]; exact sound.unique, fun flagged => ?_, fun was => ⟨?_, ?_⟩, fun never => ?_⟩
  · rw [online] at flagged
    rw [alive, told]
    exact sound.online flagged
  · rw [runtime, told]
    exact (sound.runtimes was).runtime
  · rw [runtimeLow, told]
    exact (sound.runtimes was).runtimeLow
  · have fresh := sound.fresh never
    exact ⟨alive.trans fresh.alive, online.trans fresh.online, vars.trans fresh.varList, runtime.trans fresh.runtime,
      runtimeLow.trans fresh.runtimeLow⟩

theorem sound_reached {reached : Prop} (sound : Sound reached ups) (dead : ups.alive = false) (heardTime : Int) :
    Sound True (ups.reached heardTime) := by
  have offline : ups.online = false := by
    by_contra flagged
    rw [(sound.online (Bool.not_eq_false _ ▸ flagged)).1] at dead
    cases dead
  refine ⟨List.nodup_nil, fun flagged => ?_, fun _ => ⟨rfl, rfl⟩, fun never => absurd trivial never⟩
  rw [show (ups.reached heardTime).online = ups.online from rfl, offline] at flagged
  cases flagged

end Devices

section Counts

variable {w : Failover} {i : Nat}

theorem counted_followLine (line : UpsLine) (inside : i < w.upsList.length) (counted : w.Counted) :
    (w.followLine i line).Counted := by
  by_cases set : ∃ name value, line = .setinfo name value
  · obtain ⟨name, value, rfl⟩ := set
    refine counted_modifyUps (counted_noteVar name value inside counted) fun ups _ => ?_
    unfold UpsDevice.setVar
    split
    · split_ifs <;> exact ⟨rfl, rfl⟩
    · exact ⟨rfl, rfl⟩
  · have other (name value : CString) : line ≠ .setinfo name value := fun same => set ⟨name, value, same⟩
    refine counted_congr (w.books_followLine i line other) (counted_modifyUps counted fun ups _ => ?_)
    exact ⟨(hear_flags line other).1, (hear_flags line other).2.1⟩

theorem counted_upsConnect (contact : Contact) (inside : i < w.upsList.length) (counted : w.Counted) :
    (w.upsConnect i contact).1.Counted := by
  have kept {change : UpsDevice -> UpsDevice} {w : Failover} (counted : w.Counted)
      (same : ∀ ups, (change ups).alive = ups.alive ∧ (change ups).online = ups.online) : (w.modifyUps i change).Counted :=
    counted_modifyUps counted fun ups _ => same ups
  unfold upsConnect
  split_ifs
  · exact counted
  · refine kept (counted_isAlive ?_ (kept (kept counted fun _ => ⟨rfl, rfl⟩) fun _ => ⟨rfl, rfl⟩)) fun _ => ⟨rfl, rfl⟩
    rwa [upsList_modifyUps, List.length_modify, upsList_modifyUps, List.length_modify]
  · exact kept (counted_disconnect (kept counted fun _ => ⟨rfl, rfl⟩)) fun _ => ⟨rfl, rfl⟩
  · exact kept counted fun _ => ⟨rfl, rfl⟩

end Counts

section Runs

variable {w : Failover} {i j : Nat} {events : List LinkEvent}

theorem modify_place {change : UpsDevice -> UpsDevice} {ups : UpsDevice} {l : List UpsDevice}
    (place : (l.modify i change)[j]? = some ups) :
    (i = j ∧ ∃ before, l[j]? = some before ∧ ups = change before) ∨ (i ≠ j ∧ l[j]? = some ups) := by
  rw [List.getElem?_modify, Option.map_eq_map, Option.map_eq_some_iff] at place
  obtain ⟨before, there, changed⟩ := place
  by_cases here : i = j
  · rw [if_pos here] at changed
    exact .inl ⟨here, before, there, changed.symm⟩
  · rw [if_neg here] at changed
    exact .inr ⟨here, changed ▸ there⟩

theorem upsConnect_cases (w : Failover) (i : Nat) (contact : Contact) : ((w.upsConnect i contact).2 = true ∧
      (w.upsConnect i contact).1.upsList = w.upsList.modify i (UpsDevice.reached contact.heardTime)) ∨
    ((w.upsConnect i contact).2 = false ∧ ∃ change : UpsDevice -> UpsDevice,
      (w.upsConnect i contact).1.upsList = w.upsList.modify i change ∧
        ∀ reached ups, Sound reached ups -> Sound reached (change ups)) := by
  unfold upsConnect
  split_ifs
  · exact .inr ⟨rfl, id, (List.modify_id i w.upsList).symm, fun _ _ sound => sound⟩
  · refine .inl ⟨rfl, ?_⟩
    rw [upsList_modifyUps, upsList_isAlive, upsList_modifyUps, upsList_modifyUps, modify_twice, modify_twice, modify_twice]
    rfl
  · refine .inr ⟨rfl, fun ups => noteFailure contact.connectTime
      (UpsDevice.dropped { ups with parseCtx := pconfInit, connected := true }), ?_, fun reached ups sound => ?_⟩
    · rw [upsList_modifyUps, upsList_disconnect, upsList_modifyUps, modify_twice, modify_twice]
    · have noted : Sound reached { ups with parseCtx := pconfInit, connected := true } :=
        sound_congr sound ⟨rfl, rfl, rfl, rfl, rfl⟩
      exact sound_congr (sound_dropped noted) ⟨rfl, rfl, rfl, rfl, rfl⟩
  · exact .inr ⟨rfl, noteFailure contact.connectTime, rfl, fun _ _ sound => sound_congr sound ⟨rfl, rfl, rfl, rfl, rfl⟩⟩

def Reaches (w : Failover) (i : Nat) (event : LinkEvent) : Prop :=
  ∃ contact, event = .contact i contact ∧ (w.has i fun ups => !ups.alive) = true ∧ (w.upsConnect i contact).2 = true

theorem reached_append (event : LinkEvent) :
    w.Reached i (events ++ [event]) ↔ w.Reached i events ∨ (events.foldl follow w).Reaches i event := by
  constructor
  · rintro ⟨before, contact, after, split, dead, connected⟩
    rcases List.eq_nil_or_concat after with rfl | ⟨after, last, rfl⟩
    · obtain ⟨rfl, same⟩ := List.append_inj' split rfl
      exact .inr ⟨contact, (List.cons.inj same).1, dead, connected⟩
    · rw [List.concat_eq_append, <- List.cons_append, <- List.append_assoc] at split
      exact .inl ⟨before, contact, after, (List.append_inj' split rfl).1, dead, connected⟩
  · rintro (⟨before, contact, after, rfl, dead, connected⟩ | ⟨contact, rfl, dead, connected⟩)
    · exact ⟨before, contact, after ++ [event], by simp, dead, connected⟩
    · exact ⟨events, contact, [], rfl, dead, connected⟩

theorem inside_of_has {flag : UpsDevice -> Bool} (flagged : w.has i flag = true) : i < w.upsList.length := by
  obtain ⟨ups, place, -⟩ := (w.has_iff i flag).mp flagged
  exact (List.getElem?_eq_some_iff.mp place).1

theorem counted_follow (event : LinkEvent) (counted : w.Counted) : (w.follow event).Counted := by
  cases event with
  | contact i contact =>
    unfold follow
    dsimp only
    split_ifs with dead
    · exact counted_upsConnect contact (inside_of_has dead) counted
    · exact counted
  | line i arg =>
    unfold follow upsParseProtocol
    dsimp only
    split_ifs with alive
    · cases UpsLine.of arg with
      | none => exact counted
      | some line => exact counted_followLine line (inside_of_has alive) counted
    · exact counted
  | disconnect i => exact counted_disconnect counted

theorem sound_follow {reached : Nat -> Prop} (event : LinkEvent) (tidy : w.Tidy event)
    (sound : ∀ j ups, w.upsList[j]? = some ups -> Sound (reached j) ups) :
    ∀ j ups, (w.follow event).upsList[j]? = some ups -> Sound (reached j ∨ w.Reaches j event) ups := by
  -- What does not connect a driver leaves `reached` as it is.
  have still {j : Nat} {ups : UpsDevice} (kept : Sound (reached j) ups) (not : ¬ w.Reaches j event) :
      Sound (reached j ∨ w.Reaches j event) ups := by
    rwa [or_iff_left not]
  intro j ups place
  cases event with
  | contact i contact =>
    unfold follow at place
    dsimp only at place
    split_ifs at place with dead
    · rcases upsConnect_cases w i contact with ⟨connected, list⟩ | ⟨failed, change, list, kept⟩
      · rw [list] at place
        rcases modify_place place with ⟨rfl, before, there, rfl⟩ | ⟨other, there⟩
        · have flag : before.alive = false := by
            rw [has, there, Option.any_some] at dead
            simpa using dead
          have made : reached i ∨ w.Reaches i (.contact i contact) := .inr ⟨contact, rfl, dead, connected⟩
          rw [eq_true made]
          exact sound_reached (sound i before there) flag contact.heardTime
        · refine still (sound j ups there) ?_
          rintro ⟨_, same, -⟩
          cases same
          exact other rfl
      · rw [list] at place
        have not : ¬ w.Reaches j (.contact i contact) := by
          rintro ⟨_, same, -, connected⟩
          cases same
          rw [failed] at connected
          cases connected
        rcases modify_place place with ⟨rfl, before, there, rfl⟩ | ⟨other, there⟩
        · exact still (kept _ _ (sound i before there)) not
        · exact still (sound j ups there) not
    · refine still (sound j ups place) ?_
      rintro ⟨_, same, flagged, -⟩
      cases same
      exact dead flagged
  | line i arg =>
    have not : ¬ w.Reaches j (.line i arg) := by
      rintro ⟨_, same, -⟩
      cases same
    refine still ?_ not
    unfold follow upsParseProtocol at place
    dsimp only at place
    split_ifs at place with alive
    · cases found : UpsLine.of arg with
      | none =>
        rw [found] at place
        exact sound j ups place
      | some line =>
        rw [found] at place
        simp only [upsList_followLine] at place
        rcases modify_place place with ⟨rfl, before, there, rfl⟩ | ⟨other, there⟩
        · have flag : before.alive = true := by rwa [has, there, Option.any_some] at alive
          refine sound_hear (sound i before there) flag line fun name same => ?_
          exact tidy name (by rw [found, same]) before there flag
        · exact sound j ups there
    · exact sound j ups place
  | disconnect i =>
    have not : ¬ w.Reaches j (.disconnect i) := by
      rintro ⟨_, same, -⟩
      cases same
    refine still ?_ not
    unfold follow at place
    rw [upsList_disconnect] at place
    rcases modify_place place with ⟨rfl, before, there, rfl⟩ | ⟨other, there⟩
    · exact sound_dropped (sound i before there)
    · exact sound j ups there

theorem fresh_sound {ups : UpsDevice} (fresh : ups.Fresh) : Sound False ups := by
  refine ⟨by rw [fresh.varList]; exact List.nodup_nil, fun flagged => ?_, False.elim, fun _ => fresh⟩
  rw [fresh.online] at flagged
  cases flagged

theorem sound_run (begins : w.Begins)
    (tidy : ∀ before event after, events = before ++ event :: after -> (before.foldl follow w).Tidy event) :
    (events.foldl follow w).Counted ∧
      ∀ j ups, (events.foldl follow w).upsList[j]? = some ups -> Sound (w.Reached j events) ups := by
  induction events using List.reverseRecOn with
  | nil =>
    have none_ (flag : UpsDevice -> Bool) (unset : ∀ ups, ups.Fresh -> flag ups = false) : w.upsList.countP flag = 0 :=
      List.countP_eq_zero.mpr fun ups member flagged => by
        rw [unset ups (begins.fresh ups member)] at flagged
        cases flagged
    refine ⟨⟨?_, ?_⟩, fun j ups place => ?_⟩
    · exact begins.aliveCount.trans (none_ _ fun _ fresh => fresh.alive).symm
    · exact begins.onlineCount.trans (none_ _ fun _ fresh => fresh.online).symm
    · have never : ¬ w.Reached j [] := by
        rintro ⟨before, contact, after, split, -⟩
        simp at split
      rw [eq_false never]
      exact fresh_sound (begins.fresh ups (List.mem_of_getElem? place))
  | append_singleton events event ih =>
    obtain ⟨counted, sound⟩ := ih fun before other after split => tidy before other (after ++ [event]) (by simp [split])
    rw [List.foldl_append]
    refine ⟨counted_follow event counted, fun j ups place => ?_⟩
    rw [reached_append]
    exact sound_follow event (tidy events event [] rfl) sound j ups place

end Runs

section Claims

variable {w : Failover} {events : List LinkEvent}

theorem books_kept (begins : w.Begins)
    (tidy : ∀ before event after, events = before ++ event :: after -> (before.foldl follow w).Tidy event) :
    (events.foldl follow w).Counted ∧ ∀ i ups, (events.foldl follow w).upsList[i]? = some ups ->
      ups.OnlineTold ∧ (ups.RuntimesTold ↔ w.Reached i events) := by
  obtain ⟨counted, sound⟩ := sound_run begins tidy
  refine ⟨counted, fun i ups place => ⟨(sound i ups place).online, fun told => ?_, (sound i ups place).runtimes⟩⟩
  by_contra never
  have fresh := (sound i ups place).fresh never
  have none_ : ups.told (cstr "battery.runtime") = none := by
    unfold UpsDevice.told UpsDevice.getVar
    rw [fresh.varList]
    rfl
  have runtime := told.runtime
  rw [none_, fresh.runtime] at runtime
  exact absurd runtime (by decide)

def sampleContact : LinkEvent :=
  .contact 0 ((sampleRound 1001 .timedOut).contacts 0)

def sampleLine (words : List String) : LinkEvent :=
  .line 0 (words.map cstr)

def sampleOnline : List LinkEvent :=
  [sampleContact, sampleLine ["SETINFO", "ups.status", "OL"], sampleLine ["SETINFO", "battery.runtime", "600"]]

theorem sample_begins : sampleStart.Begins := by
  refine ⟨rfl, rfl, fun ups member => ?_⟩
  rw [List.mem_singleton.mp member]
  exact ⟨rfl, rfl, rfl, rfl, rfl⟩

theorem books_kept_online : (sampleOnline.foldl follow sampleStart).Counted ∧
    ∀ i ups, (sampleOnline.foldl follow sampleStart).upsList[i]? = some ups ->
      ups.OnlineTold ∧ (ups.RuntimesTold ↔ sampleStart.Reached i sampleOnline) := by
  refine books_kept sample_begins fun before event after split => ?_
  have member : event ∈ sampleOnline := by simp [split]
  have told (words : List String) (key value : CString) (set : UpsLine.of (words.map cstr) = some (.setinfo key value))
      (w : Failover) : w.Tidy (sampleLine words) := fun name same => by
    rw [set] at same
    cases same
  simp only [sampleOnline, List.mem_cons, List.not_mem_nil, or_false] at member
  rcases member with rfl | rfl | rfl
  · trivial
  · exact told _ (cstr "ups.status") (cstr "OL") (by decide) _
  · exact told _ (cstr "battery.runtime") (cstr "600") (by decide) _

-- The status is deleted, and the driver is still taken for online.
theorem online_untold : ¬ ∀ (w : Failover) (events : List LinkEvent), w.Begins ->
    ∀ ups ∈ (events.foldl follow w).upsList, ups.OnlineTold := by
  intro all
  exact absurd (all sampleStart (sampleOnline ++ [sampleLine ["DELINFO", "ups.status"]]) sample_begins)
    (by decide +kernel)

end Claims

end Failover

end Nut
