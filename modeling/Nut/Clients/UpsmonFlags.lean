import Mathlib.Data.List.Chain
import Nut.Clients.Upsmon
import Nut.Library.Runs

set_option autoImplicit false

namespace Nut

structure Tracked where
  flag : StFlag
  word : String
  enter : NotifyType
  leave : Option NotifyType
  deriving DecidableEq

def tracked : List Tracked :=
  [⟨.lowbatt, "LB", .lowbatt, none⟩, ⟨.fsd, "FSD", .fsd, none⟩, ⟨.cal, "CAL", .cal, some .notcal⟩,
    ⟨.off, "OFF", .off, some .notoff⟩, ⟨.bypass, "BYPASS", .bypass, some .notbypass⟩,
    ⟨.alarm, "ALARM", .alarm, some .notalarm⟩, ⟨.overload, "OVER", .overload, some .notoverload⟩,
    ⟨.trim, "TRIM", .trim, some .nottrim⟩, ⟨.boost, "BOOST", .boost, some .notboost⟩]

def hasStatword (status : CString) (word : String) : Bool :=
  (status.splitOn 32).any fun statword => UpsPoll.isStatword statword word

section Status

open UpsPoll

variable (conf : UpsmonConf) (clock : Nat -> Int) (p : UpsPoll)

@[simp] theorem setflag_status (flag : StFlag) :
    (p.setflag flag).ups.status = Function.update p.ups.status flag true := rfl

@[simp] theorem clearflag_status (flag : StFlag) :
    (p.clearflag flag).ups.status = Function.update p.ups.status flag false := rfl

@[simp] theorem doNotify_ups (type : NotifyType) (extra : Option CString) : (p.doNotify type extra).ups = p.ups := rfl

@[simp] theorem tryRestorePollfreq_ups : (p.tryRestorePollfreq conf).ups = p.ups := by
  unfold tryRestorePollfreq
  split <;> rfl

theorem update_same {status : StFlag -> Bool} {flag : StFlag} {value : Bool} (same : status flag = value) :
    status = Function.update status flag value := by
  rw [<- same, Function.update_eq_self]

theorem enterState_status (flag : StFlag) (type : NotifyType) (extra : Option CString) {before : UpsPoll -> UpsPoll}
    (keeps : (before p).ups.status = p.ups.status) :
    (p.enterState flag type extra before).ups.status = Function.update p.ups.status flag true := by
  unfold enterState
  split
  next known => exact update_same known
  next => rw [setflag_status, doNotify_ups, keeps]

theorem leaveState_status (flag : StFlag) (type : NotifyType) :
    (p.leaveState conf flag type).ups.status = Function.update p.ups.status flag false := by
  unfold leaveState
  split
  next => simp
  next unknown => exact update_same (Bool.eq_false_iff.mpr unknown)

theorem upsIsAlive_status : (p.upsIsAlive clock).ups.status = p.ups.status := by
  unfold upsIsAlive
  dsimp only
  split_ifs <;> rfl

theorem leaveUnless_status (status : CString) (word : String) {leave : UpsPoll -> UpsPoll} {flag : StFlag}
    (leaves : ∀ p, (leave p).ups.status = Function.update p.ups.status flag false) :
    (p.leaveUnless status word leave).ups.status =
      Function.update p.ups.status flag (p.ups.status flag && strstr status (cstr word)) := by
  unfold leaveUnless
  by_cases found : strstr status (cstr word) = true
  · simp [found]
  · simp [found, leaves]

theorem upsIsNotcal_status : (p.upsIsNotcal conf).ups.status = Function.update p.ups.status .cal false :=
  leaveState_status conf p .cal .notcal

theorem upsIsNotoff_status : (p.upsIsNotoff conf).ups.status = Function.update p.ups.status .off false :=
  leaveState_status conf { p with ups.offsince := 0, ups.offstate := 0 } .off .notoff

theorem upsIsNotbypass_status : (p.upsIsNotbypass conf).ups.status = Function.update p.ups.status .bypass false :=
  leaveState_status conf { p with ups.bypassstate := 0 } .bypass .notbypass

theorem upsIsNotalarm_status : (p.upsIsNotalarm conf).ups.status = Function.update p.ups.status .alarm false :=
  leaveState_status conf { p with ups.alarmstate := 0 } .alarm .notalarm

theorem upsIsNotover_status : (p.upsIsNotover conf).ups.status = Function.update p.ups.status .overload false :=
  leaveState_status conf { p with ups.oversince := 0, ups.overstate := 0 } .overload .notoverload

theorem upsIsNottrim_status : (p.upsIsNottrim conf).ups.status = Function.update p.ups.status .trim false :=
  leaveState_status conf p .trim .nottrim

theorem upsIsNotboost_status : (p.upsIsNotboost conf).ups.status = Function.update p.ups.status .boost false :=
  leaveState_status conf p .boost .notboost

theorem leaveStates_status (status : CString) (flag : StFlag) : (p.leaveStates conf status).ups.status flag =
      (p.ups.status flag && tracked.all fun entry => entry.flag ≠ flag || strstr status (cstr entry.word)) := by
  unfold leaveStates
  rw [leaveUnless_status _ _ _ (upsIsNotboost_status conf), leaveUnless_status _ _ _ (upsIsNottrim_status conf),
    leaveUnless_status _ _ _ (upsIsNotover_status conf), leaveUnless_status _ _ _ (upsIsNotalarm_status conf),
    leaveUnless_status _ _ _ (upsIsNotbypass_status conf), leaveUnless_status _ _ _ (upsIsNotoff_status conf),
    leaveUnless_status _ _ _ (upsIsNotcal_status conf), @leaveUnless_status _ _ _ _ .fsd fun _ => rfl,
    leaveUnless_status _ _ _ fun p => clearflag_status p .lowbatt]
  cases flag <;> simp [tracked, Function.update]

theorem ecoMode_status (report : Report) {flag : StFlag} (other : flag ≠ .eco) :
    (p.ecoMode conf report).ups.status flag = p.ups.status flag := by
  have left : (p.upsIsNoteco conf).ups.status = _ := leaveState_status conf { p with ups.ecostate := 0 } .eco .noteco
  have entered : p.upsIsEco.ups.status = _ :=
    enterState_status p .eco .eco none (show ({ p with ups.ecostate := 1 } : UpsPoll).ups.status = _ from rfl)
  unfold ecoMode
  dsimp only
  split_ifs <;> simp [left, entered, Function.update_of_ne other]

theorem upsIsOff_status : (p.upsIsOff conf clock).ups.status = Function.update p.ups.status .off true := by
  unfold upsIsOff
  dsimp only
  split
  next known =>
    have same := update_same (show p.ups.status .off = true from known)
    split_ifs <;> exact same
  next => exact enterState_status _ _ _ _ rfl

theorem upsIsOver_status : (p.upsIsOver conf clock).ups.status = Function.update p.ups.status .overload true := by
  unfold upsIsOver
  dsimp only
  split
  next known =>
    have same := update_same (show p.ups.status .overload = true from known)
    split_ifs <;> exact same
  next =>
    refine enterState_status _ _ _ _ ?_
    split_ifs <;> rfl

theorem upsIsAlarm_status (alarms : Option CString) :
    (p.upsIsAlarm conf alarms).ups.status = Function.update p.ups.status .alarm true := by
  unfold upsIsAlarm
  split
  next known =>
    have same := update_same (show p.ups.status .alarm = true from known)
    cases alarms with
    | none => exact same
    | some alarms =>
      dsimp only
      split_ifs <;> exact same
  next => exact enterState_status p .alarm .alarm _ rfl

theorem upsFsd_status : (p.upsFsd clock).ups.status = Function.update p.ups.status .fsd true := by
  unfold upsFsd
  split
  next known => exact update_same known
  next =>
    dsimp only
    split_ifs <;> rfl

theorem upsreplbatt_status : (p.upsreplbatt conf clock).ups.status = p.ups.status := by
  unfold upsreplbatt
  dsimp only
  split_ifs <;> rfl

theorem updateCrittimer_status : (p.updateCrittimer clock).ups.status = p.ups.status := by
  unfold updateCrittimer
  split_ifs <;> rfl

theorem upsOnBatt_status : (p.upsOnBatt conf).ups.status =
      if p.ups.status .onbatt then p.ups.status
      else Function.update (Function.update p.ups.status .onbatt true) .online false := by
  unfold upsOnBatt isset
  split_ifs with known
  · rfl
  · rw [clearflag_status, enterState_status p .onbatt .onbatt none rfl]

theorem upsOnLine_status : (p.upsOnLine conf).ups.status =
      if p.ups.status .online then p.ups.status
      else Function.update (Function.update p.ups.status .online true) .onbatt false := by
  unfold upsOnLine isset
  dsimp only
  rw [tryRestorePollfreq_ups]
  split_ifs <;> simp

theorem statword_same {statword : CString} {word : String} (same : isStatword statword word = true) (other : String) :
    isStatword statword other = (foldCase (cstr word) == foldCase (cstr other)) := by
  simp only [isStatword, beq_iff_eq, strcasecmp_eq_iff] at same
  have iff := strcasecmp_eq_iff statword (cstr other)
  rw [same] at iff
  rw [isStatword, Bool.eq_iff_iff, beq_iff_eq, beq_iff_eq, iff]

theorem upsOnLine_tracked {entry : Tracked} (member : entry ∈ tracked) :
    (p.upsOnLine conf).ups.status entry.flag = p.ups.status entry.flag := by
  have apart : ∀ entry ∈ tracked, entry.flag ≠ .online ∧ entry.flag ≠ .onbatt := by decide
  rw [upsOnLine_status]
  split_ifs <;> simp [apart entry member]

theorem upsOnBatt_tracked {entry : Tracked} (member : entry ∈ tracked) :
    (p.upsOnBatt conf).ups.status entry.flag = p.ups.status entry.flag := by
  have apart : ∀ entry ∈ tracked, entry.flag ≠ .online ∧ entry.flag ≠ .onbatt := by decide
  rw [upsOnBatt_status]
  split_ifs <;> simp [apart entry member]

theorem upsIsEco_status : p.upsIsEco.ups.status = Function.update p.ups.status .eco true :=
  enterState_status p .eco .eco none (show ({ p with ups.ecostate := 1 } : UpsPoll).ups.status = _ from rfl)

theorem upsIsBypass_status : (p.upsIsBypass conf).ups.status = Function.update p.ups.status .bypass true :=
  enterState_status p .bypass .bypass none
    (show ({ p.alert conf with ups.bypassstate := 1 } : UpsPoll).ups.status = _ from rfl)

theorem leaveUnless_cases {P : UpsPoll -> Prop} {p : UpsPoll} {status : CString} {word : String} {leave : UpsPoll -> UpsPoll}
    (kept : P p) (left : strstr status (cstr word) = false -> P (leave p)) : P (p.leaveUnless status word leave) := by
  unfold leaveUnless
  split
  next => exact kept
  next missing => exact left (Bool.eq_false_iff.mpr missing)

theorem leaveStates_cases {P : UpsPoll -> Prop} {status : CString} {p : UpsPoll} (start : P p)
    (lowbatt : strstr status (cstr "LB") = false -> ∀ q, P q -> P (q.clearflag .lowbatt))
    (fsd : strstr status (cstr "FSD") = false -> ∀ q, P q -> P ({ q.clearflag .fsd with ups.lastfsdnotify := 0 }))
    (cal : strstr status (cstr "CAL") = false -> ∀ q, P q -> P (q.upsIsNotcal conf))
    (off : strstr status (cstr "OFF") = false -> ∀ q, P q -> P (q.upsIsNotoff conf))
    (bypass : strstr status (cstr "BYPASS") = false -> ∀ q, P q -> P (q.upsIsNotbypass conf))
    (alarm : strstr status (cstr "ALARM") = false -> ∀ q, P q -> P (q.upsIsNotalarm conf))
    (overload : strstr status (cstr "OVER") = false -> ∀ q, P q -> P (q.upsIsNotover conf))
    (trim : strstr status (cstr "TRIM") = false -> ∀ q, P q -> P (q.upsIsNottrim conf))
    (boost : strstr status (cstr "BOOST") = false -> ∀ q, P q -> P (q.upsIsNotboost conf)) :
    P (p.leaveStates conf status) := by
  unfold leaveStates
  have afterLowbatt := leaveUnless_cases start fun missing => lowbatt missing _ start
  have afterFsd := @leaveUnless_cases P _ status "FSD" (fun q => { q.clearflag .fsd with ups.lastfsdnotify := 0 })
    afterLowbatt fun missing => fsd missing _ afterLowbatt
  have afterCal := leaveUnless_cases afterFsd fun missing => cal missing _ afterFsd
  have afterOff := leaveUnless_cases afterCal fun missing => off missing _ afterCal
  have afterBypass := leaveUnless_cases afterOff fun missing => bypass missing _ afterOff
  have afterAlarm := leaveUnless_cases afterBypass fun missing => alarm missing _ afterBypass
  have afterOverload := leaveUnless_cases afterAlarm fun missing => overload missing _ afterAlarm
  have afterTrim := leaveUnless_cases afterOverload fun missing => trim missing _ afterOverload
  have afterBoost := leaveUnless_cases afterTrim fun missing => boost missing _ afterTrim
  exact afterBoost

theorem parseStatword_cases {P : UpsPoll -> Prop} {alarms : Option CString} {statword : CString} {p : UpsPoll}
    (online : isStatword statword "OL" = true -> P (p.upsOnLine conf))
    (onbatt : isStatword statword "OB" = true -> P (p.upsOnBatt conf))
    (lowbatt : isStatword statword "LB" = true -> P p.upsLowBatt)
    (replbatt : isStatword statword "RB" = true -> P (p.upsreplbatt conf clock))
    (cal : isStatword statword "CAL" = true -> P p.upsIsCal)
    (off : isStatword statword "OFF" = true -> P (p.upsIsOff conf clock))
    (bypass : isStatword statword "BYPASS" = true -> P (p.upsIsBypass conf))
    (eco : isStatword statword "ECO" = true -> P p.upsIsEco)
    (alarm : isStatword statword "ALARM" = true -> P (p.upsIsAlarm conf alarms))
    (overload : isStatword statword "OVER" = true -> P (p.upsIsOver conf clock))
    (trim : isStatword statword "TRIM" = true -> P p.upsIsTrim)
    (boost : isStatword statword "BOOST" = true -> P p.upsIsBoost)
    (fsd : isStatword statword "FSD" = true -> P (p.upsFsd clock))
    (other : (∀ word ∈ ["OL", "OB", "LB", "RB", "CAL", "OFF", "BYPASS", "ECO", "ALARM", "OVER", "TRIM", "BOOST", "FSD"],
      isStatword statword word = false) -> P p) : P (p.parseStatword conf clock alarms statword) := by
  unfold parseStatword
  by_cases isOl : isStatword statword "OL" = true
  · rw [if_pos isOl]
    exact online isOl
  rw [if_neg isOl]
  by_cases isOb : isStatword statword "OB" = true
  · rw [if_pos isOb]
    exact onbatt isOb
  rw [if_neg isOb]
  by_cases isLb : isStatword statword "LB" = true
  · rw [if_pos isLb]
    exact lowbatt isLb
  rw [if_neg isLb]
  by_cases isRb : isStatword statword "RB" = true
  · rw [if_pos isRb]
    exact replbatt isRb
  rw [if_neg isRb]
  by_cases isCal : isStatword statword "CAL" = true
  · rw [if_pos isCal]
    exact cal isCal
  rw [if_neg isCal]
  by_cases isOff : isStatword statword "OFF" = true
  · rw [if_pos isOff]
    exact off isOff
  rw [if_neg isOff]
  by_cases isBypass : isStatword statword "BYPASS" = true
  · rw [if_pos isBypass]
    exact bypass isBypass
  rw [if_neg isBypass]
  by_cases isEco : isStatword statword "ECO" = true
  · rw [if_pos isEco]
    exact eco isEco
  rw [if_neg isEco]
  by_cases isAlarm : isStatword statword "ALARM" = true
  · rw [if_pos isAlarm]
    exact alarm isAlarm
  rw [if_neg isAlarm]
  by_cases isOver : isStatword statword "OVER" = true
  · rw [if_pos isOver]
    exact overload isOver
  rw [if_neg isOver]
  by_cases isTrim : isStatword statword "TRIM" = true
  · rw [if_pos isTrim]
    exact trim isTrim
  rw [if_neg isTrim]
  by_cases isBoost : isStatword statword "BOOST" = true
  · rw [if_pos isBoost]
    exact boost isBoost
  rw [if_neg isBoost]
  by_cases isFsd : isStatword statword "FSD" = true
  · rw [if_pos isFsd]
    exact fsd isFsd
  rw [if_neg isFsd]
  refine other fun word member => ?_
  simp only [List.mem_cons, List.not_mem_nil, or_false] at member
  rcases member with rfl | rfl | rfl | rfl | rfl | rfl | rfl | rfl | rfl | rfl | rfl | rfl | rfl <;>
    simp_all only [Bool.not_eq_true]

theorem parseStatword_flag (alarms : Option CString) (statword : CString) {entry : Tracked} (member : entry ∈ tracked) :
    (p.parseStatword conf clock alarms statword).ups.status entry.flag =
      (p.ups.status entry.flag || isStatword statword entry.word) := by
  have entered {word : String} {flag : StFlag}
      (table : ∀ entry ∈ tracked, (entry.flag == flag) = (foldCase (cstr word) == foldCase (cstr entry.word)))
      (same : isStatword statword word = true) :
      Function.update p.ups.status flag true entry.flag = (p.ups.status entry.flag || isStatword statword entry.word) := by
    rw [statword_same same, <- table entry member]
    by_cases own : entry.flag = flag
    · simp [own]
    · simp [own]
  have untracked {word : String}
      (table : ∀ entry ∈ tracked, (foldCase (cstr word) == foldCase (cstr entry.word)) = false)
      (same : isStatword statword word = true) :
      p.ups.status entry.flag = (p.ups.status entry.flag || isStatword statword entry.word) := by
    rw [statword_same same, table entry member, Bool.or_false]
  apply parseStatword_cases conf clock
    (P := fun q => q.ups.status entry.flag = (p.ups.status entry.flag || isStatword statword entry.word))
  case online =>
    rw [upsOnLine_tracked _ _ member]
    exact untracked (by decide)
  case onbatt =>
    rw [upsOnBatt_tracked _ _ member]
    exact untracked (by decide)
  case lowbatt =>
    rw [upsLowBatt, enterState_status _ _ _ _ rfl]
    exact entered (by decide)
  case replbatt =>
    rw [upsreplbatt_status]
    exact untracked (by decide)
  case cal =>
    rw [upsIsCal, enterState_status _ _ _ _ rfl]
    exact entered (by decide)
  case off =>
    rw [upsIsOff_status]
    exact entered (by decide)
  case bypass =>
    rw [upsIsBypass_status]
    exact entered (by decide)
  case eco =>
    have apart : ∀ entry ∈ tracked, entry.flag ≠ .eco := by decide
    rw [upsIsEco_status, Function.update_of_ne (apart entry member)]
    exact untracked (by decide)
  case alarm =>
    rw [upsIsAlarm_status]
    exact entered (by decide)
  case overload =>
    rw [upsIsOver_status]
    exact entered (by decide)
  case trim =>
    rw [upsIsTrim, enterState_status _ _ _ _ rfl]
    exact entered (by decide)
  case boost =>
    rw [upsIsBoost, enterState_status _ _ _ _ rfl]
    exact entered (by decide)
  case fsd =>
    rw [upsFsd_status]
    exact entered (by decide)
  case other =>
    intro none_
    have known : ∀ entry ∈ tracked, entry.word ∈
        ["OL", "OB", "LB", "RB", "CAL", "OFF", "BYPASS", "ECO", "ALARM", "OVER", "TRIM", "BOOST", "FSD"] := by decide
    rw [none_ entry.word (known entry member), Bool.or_false]

theorem parseStatwords_flag (alarm : Nat -> Option CString) (i : Nat) (statwords : List CString) {entry : Tracked}
    (member : entry ∈ tracked) : (p.parseStatwords conf clock alarm i statwords).ups.status entry.flag =
      (p.ups.status entry.flag || statwords.any fun statword => isStatword statword entry.word) := by
  induction statwords generalizing i p with
  | nil => simp [parseStatwords]
  | cons statword rest ih =>
    rw [parseStatwords, ih, updateCrittimer_status, parseStatword_flag _ _ _ _ _ member, List.any_cons, Bool.or_assoc]

theorem parseStatus_flag {report : Report} (nonempty : report.status ≠ []) {entry : Tracked} (member : entry ∈ tracked) :
    (p.parseStatus conf clock report).ups.status entry.flag =
      (p.ups.status entry.flag && strstr report.status (cstr entry.word) || hasStatword report.status entry.word) := by
  have notEco : ∀ entry ∈ tracked, entry.flag ≠ .eco := by decide
  unfold parseStatus
  rw [if_neg nonempty, parseStatwords_flag _ _ _ _ _ _ member, ecoMode_status _ _ _ (notEco entry member),
    leaveStates_status, upsIsAlive_status]
  have own : tracked.all (fun other => other.flag ≠ entry.flag || strstr report.status (cstr other.word)) =
      strstr report.status (cstr entry.word) := by
    simp only [tracked, List.mem_cons, List.not_mem_nil, or_false] at member
    rcases member with rfl | rfl | rfl | rfl | rfl | rfl | rfl | rfl | rfl <;> simp [tracked]
  rw [own]
  rfl

end Status

def reminders : List NotifyType :=
  [.commok, .online, .replbatt, .alarm, .fsd]

-- These are also set or cleared without a word.
def unannounced : List StFlag :=
  [.online, .onbatt, .lowbatt, .fsd]

def statesEntered : List (StFlag × NotifyType) :=
  [(.onbatt, .onbatt), (.lowbatt, .lowbatt), (.cal, .cal), (.off, .off), (.bypass, .bypass), (.alarm, .alarm),
    (.overload, .overload), (.trim, .trim), (.boost, .boost)]

def statesLeft : List (StFlag × NotifyType) :=
  [(.cal, .notcal), (.off, .notoff), (.bypass, .notbypass), (.alarm, .notalarm), (.overload, .notoverload),
    (.trim, .nottrim), (.boost, .notboost)]

structure Lasting (conf : UpsmonConf) (P : UpsPoll -> Prop) : Prop where
  quiet {p q : UpsPoll} : P p -> q.ups.status = p.ups.status -> q.notices = p.notices -> P q
  notice {p : UpsPoll} {type : NotifyType} (extra : Option CString) : P p -> type ∈ reminders -> P (p.doNotify type extra)
  mark {p q : UpsPoll} {flag : StFlag} {value : Bool} : P p -> flag ∈ unannounced ->
    q.ups.status = Function.update p.ups.status flag value -> q.notices = p.notices -> P q
  enter {p : UpsPoll} {flag : StFlag} {type : NotifyType} {extra : Option CString} {before : UpsPoll -> UpsPoll} :
    P p -> (flag, type) ∈ statesEntered -> (before p).ups.status = p.ups.status -> (before p).notices = p.notices ->
      P (p.enterState flag type extra before)
  leave {p : UpsPoll} {flag : StFlag} {type : NotifyType} : P p -> (flag, type) ∈ statesLeft -> P (p.leaveState conf flag type)

section Lasting

open UpsPoll

variable {conf : UpsmonConf} {clock : Nat -> Int} {P : UpsPoll -> Prop} {p : UpsPoll}

theorem Lasting.tick (lasting : Lasting conf P) (holds : P p) : P p.tick := lasting.quiet holds rfl rfl

theorem Lasting.upsIsAlive (lasting : Lasting conf P) (holds : P p) : P (p.upsIsAlive clock) := by
  have polled : P { p.tick with ups.lastpoll := clock p.ticks } := lasting.quiet holds rfl rfl
  unfold UpsPoll.upsIsAlive
  dsimp only
  split_ifs
  · exact polled
  · have said : P ({ p.tick with ups.lastpoll := clock p.ticks }.doNotify .commok none) :=
      lasting.notice none polled (by decide)
    exact lasting.quiet said rfl rfl
  · exact lasting.quiet polled rfl rfl

theorem Lasting.updateCrittimer (lasting : Lasting conf P) (holds : P p) : P (p.updateCrittimer clock) := by
  unfold UpsPoll.updateCrittimer
  split
  · exact lasting.quiet holds rfl rfl
  · exact holds

theorem Lasting.upsOnLine (lasting : Lasting conf P) (holds : P p) : P (p.upsOnLine conf) := by
  have online {q : UpsPoll} (holds : P q) : P ((setflag .online { q with ups.linestate := 1 }).clearflag .onbatt) := by
    have set_ : P (setflag .online { q with ups.linestate := 1 }) :=
      lasting.mark holds (by decide) (setflag_status { q with ups.linestate := 1 } .online) rfl
    exact lasting.mark set_ (by decide) (clearflag_status _ .onbatt) rfl
  have restored : P (p.tryRestorePollfreq conf) := by
    refine lasting.quiet holds (by rw [tryRestorePollfreq_ups]) ?_
    unfold tryRestorePollfreq
    split <;> rfl
  unfold UpsPoll.upsOnLine
  dsimp only
  split_ifs
  · exact restored
  · exact online (lasting.notice none restored (by decide))
  · exact online restored

theorem Lasting.upsOnBatt (lasting : Lasting conf P) (holds : P p) : P (p.upsOnBatt conf) := by
  unfold UpsPoll.upsOnBatt
  split
  · exact holds
  · have batt : P (p.enterState .onbatt .onbatt none fun p => { p.alert conf with ups.linestate := 0 }) :=
      lasting.enter holds (by decide) rfl rfl
    exact lasting.mark batt (by decide) (clearflag_status _ .online) rfl

theorem Lasting.upsreplbatt (lasting : Lasting conf P) (holds : P p) : P (p.upsreplbatt conf clock) := by
  have ticked := lasting.tick holds
  unfold UpsPoll.upsreplbatt
  dsimp only
  split_ifs
  · have said : P (p.tick.doNotify .replbatt none) := lasting.notice none ticked (by decide)
    exact lasting.quiet said rfl rfl
  · exact ticked

theorem Lasting.upsIsOff (lasting : Lasting conf P) (holds : P p) : P (p.upsIsOff conf clock) := by
  have ticked := lasting.tick holds
  unfold UpsPoll.upsIsOff
  dsimp only
  split_ifs
  all_goals first
    | exact ticked
    | exact lasting.quiet ticked rfl rfl
    | exact lasting.enter ticked (by decide) rfl rfl

theorem Lasting.upsIsAlarm (lasting : Lasting conf P) (alarms : Option CString) (holds : P p) :
    P (p.upsIsAlarm conf alarms) := by
  unfold UpsPoll.upsIsAlarm
  split
  next =>
    cases alarms with
    | none => exact holds
    | some alarms =>
      dsimp only
      split_ifs
      · exact holds
      · have before : P { p with alarmsPrev := alarms } := lasting.quiet holds rfl rfl
        exact lasting.notice _ before (by decide)
  next =>
    have known : P (p.enterState .alarm .alarm (alarms.getD (cstr "n/a"))
        fun p => { p.alert conf with ups.alarmstate := 1 }) := lasting.enter holds (by decide) rfl rfl
    exact lasting.quiet known rfl rfl

theorem Lasting.upsIsOver (lasting : Lasting conf P) (holds : P p) : P (p.upsIsOver conf clock) := by
  have ticked := lasting.tick holds
  unfold UpsPoll.upsIsOver
  dsimp only
  split_ifs
  all_goals first
    | exact ticked
    | exact lasting.quiet ticked rfl rfl
    | exact lasting.enter ticked (by decide) rfl rfl

theorem Lasting.upsFsd (lasting : Lasting conf P) (holds : P p) : P (p.upsFsd clock) := by
  have asked : P { p.tick with ups.lastfsdnotify := clock p.ticks } := lasting.quiet holds rfl rfl
  unfold UpsPoll.upsFsd
  dsimp only
  split_ifs
  · exact holds
  · have said : P ({ p.tick with ups.lastfsdnotify := clock p.ticks }.doNotify .fsd none) :=
      lasting.notice none asked (by decide)
    exact lasting.mark said (by decide) (setflag_status _ .fsd) rfl
  · exact lasting.mark holds (by decide) (setflag_status _ .fsd) rfl

theorem Lasting.leaveStates (lasting : Lasting conf P) (status : CString) (holds : P p) :
    P (p.leaveStates conf status) := by
  apply leaveStates_cases conf holds
  case lowbatt => exact fun _ q holds => lasting.mark holds (by decide) (clearflag_status q .lowbatt) rfl
  case fsd => exact fun _ q holds => lasting.mark holds (by decide) (clearflag_status q .fsd) rfl
  case cal => exact fun _ q holds => lasting.leave holds (by decide)
  case off =>
    intro _ q holds
    have before : P { q with ups.offsince := 0, ups.offstate := 0 } := lasting.quiet holds rfl rfl
    exact lasting.leave before (by decide)
  case bypass =>
    intro _ q holds
    have before : P { q with ups.bypassstate := 0 } := lasting.quiet holds rfl rfl
    exact lasting.leave before (by decide)
  case alarm =>
    intro _ q holds
    have before : P { q with ups.alarmstate := 0 } := lasting.quiet holds rfl rfl
    exact lasting.leave before (by decide)
  case overload =>
    intro _ q holds
    have before : P { q with ups.oversince := 0, ups.overstate := 0 } := lasting.quiet holds rfl rfl
    exact lasting.leave before (by decide)
  case trim => exact fun _ q holds => lasting.leave holds (by decide)
  case boost => exact fun _ q holds => lasting.leave holds (by decide)

theorem Lasting.parseStatword (lasting : Lasting conf P) (alarms : Option CString) {statword : CString} (holds : P p)
    (eco : isStatword statword "ECO" = true -> P p.upsIsEco) : P (p.parseStatword conf clock alarms statword) := by
  apply parseStatword_cases conf clock (P := P)
  case online => exact fun _ => lasting.upsOnLine holds
  case onbatt => exact fun _ => lasting.upsOnBatt holds
  case lowbatt => exact fun _ => lasting.enter holds (by decide) rfl rfl
  case replbatt => exact fun _ => lasting.upsreplbatt holds
  case cal => exact fun _ => lasting.enter holds (by decide) rfl rfl
  case off => exact fun _ => lasting.upsIsOff holds
  case bypass => exact fun _ => lasting.enter holds (by decide) rfl rfl
  case eco => exact eco
  case alarm => exact fun _ => lasting.upsIsAlarm alarms holds
  case overload => exact fun _ => lasting.upsIsOver holds
  case trim => exact fun _ => lasting.enter holds (by decide) rfl rfl
  case boost => exact fun _ => lasting.enter holds (by decide) rfl rfl
  case fsd => exact fun _ => lasting.upsFsd holds
  case other => exact fun _ => holds

end Lasting

def announced (entry : Tracked) (p : UpsPoll) : List NotifyType :=
  (p.notices.map Notice.type).filter fun type => type = entry.enter ∨ some type = entry.leave

def Alternates (entry : Tracked) (types : List NotifyType) : Prop :=
  types.IsChain (· ≠ ·) ∧ types.head? ≠ entry.leave

-- ALARM is announced again when ups.alarm changes.
def announcedBothWays : List Tracked :=
  tracked.filter fun entry => entry.leave.isSome && entry.flag ≠ .alarm

structure InTurns (entry : Tracked) (p : UpsPoll) : Prop where
  alternates : Alternates entry (announced entry p)
  last : p.ups.status entry.flag = true ↔ (announced entry p).getLast? = some entry.enter

section Announcements

open UpsPoll

variable {conf : UpsmonConf} {clock : Nat -> Int} {p q : UpsPoll} {entry : Tracked}

theorem inTurns_quiet (turns : InTurns entry p) (flag : q.ups.status entry.flag = p.ups.status entry.flag)
    (quiet : announced entry q = announced entry p) : InTurns entry q :=
  ⟨quiet ▸ turns.alternates, by rw [flag, quiet, turns.last]⟩

theorem announced_doNotify (type : NotifyType) (extra : Option CString) : announced entry (p.doNotify type extra) =
      announced entry p ++ if type = entry.enter ∨ some type = entry.leave then [type] else [] := by
  simp only [announced, doNotify, List.map_append, List.map_cons, List.map_nil, List.filter_append]
  by_cases heard : type = entry.enter ∨ some type = entry.leave <;> simp [heard]

theorem inTurns_entered (turns : InTurns entry p) (differs : entry.leave ≠ some entry.enter)
    (unknown : p.ups.status entry.flag = false) (known : q.ups.status entry.flag = true)
    (announces : announced entry q = announced entry p ++ [entry.enter]) : InTurns entry q := by
  have notLast : (announced entry p).getLast? ≠ some entry.enter := by
    rw [Ne, <- turns.last, unknown]
    decide
  refine ⟨⟨?_, ?_⟩, by simp [known, announces]⟩
  · rw [announces]
    refine List.isChain_append.mpr ⟨turns.alternates.1, List.isChain_singleton _, fun last isLast type isType => ?_⟩
    obtain rfl : entry.enter = type := by simpa using isType
    rintro rfl
    exact notLast isLast
  · rw [announces]
    cases before : announced entry p with
    | nil => exact differs.symm
    | cons first rest =>
      have start := turns.alternates.2
      rw [before] at start
      exact start

theorem inTurns_left (turns : InTurns entry p) {type : NotifyType} (leave : entry.leave = some type)
    (differs : entry.leave ≠ some entry.enter) (known : p.ups.status entry.flag = true)
    (unknown : q.ups.status entry.flag = false) (announces : announced entry q = announced entry p ++ [type]) :
    InTurns entry q := by
  have isLast := turns.last.mp known
  have apart : entry.enter ≠ type := fun same => differs (by rw [leave, same])
  refine ⟨⟨?_, ?_⟩, by simp [unknown, announces, apart.symm]⟩
  · rw [announces]
    refine List.isChain_append.mpr ⟨turns.alternates.1, List.isChain_singleton _, fun last lastIs next nextIs => ?_⟩
    rw [Option.mem_def, isLast] at lastIs
    obtain rfl := Option.some.inj lastIs
    obtain rfl : type = next := by simpa using nextIs
    exact apart
  · rw [announces]
    have start := turns.alternates.2
    cases before : announced entry p with
    | nil => simp [before] at isLast
    | cons first rest =>
      rw [before] at start
      exact start

theorem inTurns_enterState (turns : InTurns entry p) (differs : entry.leave ≠ some entry.enter) {flag : StFlag}
    {type : NotifyType} {extra : Option CString} {before : UpsPoll -> UpsPoll}
    (fits : flag = entry.flag ∧ type = entry.enter ∨ flag ≠ entry.flag ∧ type ≠ entry.enter ∧ some type ≠ entry.leave)
    (status : (before p).ups.status = p.ups.status) (notices : (before p).notices = p.notices) :
    InTurns entry (p.enterState flag type extra before) := by
  have same : announced entry (before p) = announced entry p := by simp only [announced, notices]
  unfold enterState
  split
  next => exact turns
  next unknown =>
    have announces : announced entry (((before p).doNotify type extra).setflag flag) =
        announced entry p ++ if type = entry.enter ∨ some type = entry.leave then [type] else [] :=
      (announced_doNotify type extra).trans (by rw [same])
    rcases fits with ⟨rfl, rfl⟩ | ⟨otherFlag, otherEnter, otherLeave⟩
    · refine inTurns_entered turns differs (by simpa [isset] using unknown) (by simp) ?_
      simpa using announces
    · refine inTurns_quiet turns ?_ (by simpa [otherEnter, otherLeave] using announces)
      simp [status, Function.update_of_ne otherFlag.symm]

theorem inTurns_leaveState (turns : InTurns entry p) (differs : entry.leave ≠ some entry.enter) {flag : StFlag}
    {type : NotifyType} (fits : flag = entry.flag ∧ some type = entry.leave ∨
      flag ≠ entry.flag ∧ type ≠ entry.enter ∧ some type ≠ entry.leave) :
    InTurns entry (p.leaveState conf flag type) := by
  have restored (q : UpsPoll) : announced entry (q.tryRestorePollfreq conf) = announced entry q := by
    unfold tryRestorePollfreq
    split <;> rfl
  unfold leaveState
  split
  next known =>
    have announces : announced entry (((p.doNotify type none).clearflag flag).tryRestorePollfreq conf) =
        announced entry p ++ if type = entry.enter ∨ some type = entry.leave then [type] else [] :=
      (restored _).trans (announced_doNotify type none)
    rcases fits with ⟨rfl, leave⟩ | ⟨otherFlag, otherEnter, otherLeave⟩
    · refine inTurns_left turns leave.symm differs known (by simp) ?_
      simpa [leave] using announces
    · refine inTurns_quiet turns ?_ (by simpa [otherEnter, otherLeave] using announces)
      simp [Function.update_of_ne otherFlag.symm]
  next => exact turns

theorem inTurns_notice (turns : InTurns entry p) {type : NotifyType} {extra : Option CString}
    (other : type ≠ entry.enter ∧ some type ≠ entry.leave) : InTurns entry (p.doNotify type extra) :=
  inTurns_quiet turns rfl (by simp [announced_doNotify, other])

theorem announced_differs (member : entry ∈ announcedBothWays) : entry.leave ≠ some entry.enter := by
  revert entry
  decide

theorem inTurns_lasting (member : entry ∈ announcedBothWays) : Lasting conf (InTurns entry) := by
  have differs := announced_differs member
  have others : ∀ entry ∈ announcedBothWays, (∀ type ∈ reminders, type ≠ entry.enter ∧ some type ≠ entry.leave) ∧
      ∀ flag ∈ unannounced, entry.flag ≠ flag := by decide
  have states : ∀ entry ∈ announcedBothWays, (∀ state ∈ statesEntered, state.1 = entry.flag ∧ state.2 = entry.enter ∨
        state.1 ≠ entry.flag ∧ state.2 ≠ entry.enter ∧ some state.2 ≠ entry.leave) ∧
      ∀ state ∈ statesLeft, state.1 = entry.flag ∧ some state.2 = entry.leave ∨
        state.1 ≠ entry.flag ∧ state.2 ≠ entry.enter ∧ some state.2 ≠ entry.leave := by decide
  constructor
  case quiet =>
    intro p q turns status notices
    exact inTurns_quiet turns (by rw [status]) (by simp only [announced, notices])
  case notice => exact fun _ turns repeated => inTurns_notice turns ((others entry member).1 _ repeated)
  case mark =>
    intro p q flag value turns marked status notices
    refine inTurns_quiet turns ?_ (by simp only [announced, notices])
    rw [status, Function.update_of_ne ((others entry member).2 flag marked)]
  case enter => exact fun turns state status notices =>
    inTurns_enterState turns differs ((states entry member).1 _ state) status notices
  case leave => exact fun turns state => inTurns_leaveState turns differs ((states entry member).2 _ state)

theorem inTurns_ecoMode (member : entry ∈ announcedBothWays) (report : Report) (turns : InTurns entry p) :
    InTurns entry (p.ecoMode conf report) := by
  have differs := announced_differs member
  have other : ∀ entry ∈ announcedBothWays, StFlag.eco ≠ entry.flag ∧
      (NotifyType.eco ≠ entry.enter ∧ some NotifyType.eco ≠ entry.leave) ∧
      (NotifyType.noteco ≠ entry.enter ∧ some NotifyType.noteco ≠ entry.leave) := by decide
  obtain ⟨flag, entered, left⟩ := other entry member
  unfold ecoMode
  dsimp only
  split_ifs
  · have before : InTurns entry { p with ups.ecostate := 0 } := inTurns_quiet turns rfl rfl
    exact inTurns_leaveState before differs (Or.inr ⟨flag, left⟩)
  · exact inTurns_enterState turns differs (Or.inr ⟨flag, entered⟩) rfl rfl
  · exact turns

theorem inTurns_parseStatword (member : entry ∈ announcedBothWays) (alarms : Option CString) (statword : CString)
    (turns : InTurns entry p) : InTurns entry (p.parseStatword conf clock alarms statword) := by
  refine (inTurns_lasting member).parseStatword alarms turns fun _ => ?_
  have other : ∀ entry ∈ announcedBothWays, StFlag.eco ≠ entry.flag ∧ NotifyType.eco ≠ entry.enter ∧
      some NotifyType.eco ≠ entry.leave := by decide
  exact inTurns_enterState turns (announced_differs member) (Or.inr (other entry member)) rfl rfl

theorem inTurns_parseStatwords (member : entry ∈ announcedBothWays) (alarm : Nat -> Option CString) (i : Nat)
    (statwords : List CString) (turns : InTurns entry p) :
    InTurns entry (p.parseStatwords conf clock alarm i statwords) := by
  induction statwords generalizing i p with
  | nil => exact turns
  | cons statword rest ih =>
    have word : InTurns entry (p.parseStatword conf clock (alarm i) statword) :=
      inTurns_parseStatword member (alarm i) statword turns
    exact ih (i + 1) (Lasting.updateCrittimer (@inTurns_lasting conf entry member) word)

theorem inTurns_parseStatus (member : entry ∈ announcedBothWays) {report : Report} (nonempty : report.status ≠ [])
    (turns : InTurns entry p) : InTurns entry (p.parseStatus conf clock report) := by
  have lasting : Lasting conf (InTurns entry) := inTurns_lasting member
  have alive : InTurns entry (p.upsIsAlive clock) := lasting.upsIsAlive turns
  have left : InTurns entry ((p.upsIsAlive clock).leaveStates conf report.status) :=
    lasting.leaveStates report.status alive
  have eco : InTurns entry (((p.upsIsAlive clock).leaveStates conf report.status).ecoMode conf report) :=
    inTurns_ecoMode member report left
  rw [parseStatus, if_neg nonempty]
  exact inTurns_parseStatwords member report.alarm 0 (report.status.splitOn 32) eco

end Announcements

def FlagsShow (status : CString) (p : UpsPoll) : Prop :=
  ∀ entry ∈ tracked, p.isset entry.flag = hasStatword status entry.word

def Follows (last next : CString) : Prop :=
  ∀ entry ∈ tracked, hasStatword last entry.word = true -> strstr next (cstr entry.word) = true ->
    hasStatword next entry.word = true

section Shown

open UpsPoll

variable (conf : UpsmonConf) (clock : Nat -> Int) {p : UpsPoll}

theorem flagsShow_iff {last : CString} (mirrors : FlagsShow last p) {report : Report} (nonempty : report.status ≠ []) :
    FlagsShow report.status (p.parseStatus conf clock report) ↔ Follows last report.status := by
  have flag {entry : Tracked} (member : entry ∈ tracked) := parseStatus_flag conf clock p nonempty member
  unfold FlagsShow Follows isset at *
  constructor
  · intro mirrored entry member before inText
    have kept := flag member
    rw [mirrors entry member, before, inText] at kept
    rw [<- mirrored entry member, kept]
    rfl
  · intro follows entry member
    rw [flag member, mirrors entry member]
    by_cases before : hasStatword last entry.word = true
    · by_cases inText : strstr report.status (cstr entry.word) = true
      · rw [before, inText, follows entry member before inText]
        rfl
      · simp [inText]
    · simp [before]

def freshPoll (shared : UpsmonShared) (sys : CString) (pv : UInt32) (un pw : CString) (isPrimary : Bool) : UpsPoll :=
  { shared with notices := [], ups := Utype.added sys pv un pw isPrimary }

theorem added_shown (shared : UpsmonShared) (sys : CString) (pv : UInt32) (un pw : CString) (isPrimary : Bool) :
    FlagsShow [] (freshPoll shared sys pv un pw isPrimary) := by
  have table : ∀ entry ∈ tracked, entry.flag ≠ .primary ∧ hasStatword [] entry.word = false := by decide
  intro entry member
  obtain ⟨other, missing⟩ := table entry member
  simp [missing, isset, freshPoll, Utype.added, other]

theorem follows_nothing (next : CString) : Follows [] next := by
  have none_ : ∀ entry ∈ tracked, hasStatword [] entry.word = false := by decide
  intro entry member before
  rw [none_ entry member] at before
  cases before

end Shown

def UpsPoll.Report.plain (status : CString) : UpsPoll.Report :=
  { status, buzzword := [], buzzwordX := [], alarm := fun _ => none }

def UpsmonConf.defaults : UpsmonConf :=
  { minsupplies := 1, pollfreq := 5, pollfreqalert := 5, deadtime := 15, offdurationtime := 30, oblbdurationtime := 0
    hostsync := 15, rbwarntime := 43200, nocommwarntime := 300, alarmcritical := 1, overdurationtime := -1 }

def UpsmonShared.start : UpsmonShared :=
  { sleepval := 5, alarmsPrev := [], ticks := 0, notices := [] }

end Nut
