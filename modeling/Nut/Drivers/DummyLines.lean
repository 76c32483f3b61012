import Nut.Drivers.DummyUps
import Nut.Library.Runs

set_option autoImplicit false

namespace Nut.Dummy

def joined : List CString -> CString
  | [] => []
  | word :: words => word ++ words.flatMap fun word => 32 :: word

def Pass.tree (p : Pass) : StTree :=
  p.own.dstate.dtreeRoot

def timerName (name : CString) : Bool :=
  varName name = cstr "TIMER"

def alarmName (name : CString) : Bool :=
  varName name = cstr "ALARM"

def setsVariable (name : CString) : Bool :=
  !timerName name && !alarmName name && decide (varName name ≠ cstr "ups.status") && !hasLead "driver." (varName name)

section Lines

variable (nutData : List DummyInfo) (call : DummyCall)

structure LineMeans (p : Pass) (name : CString) (words : List CString) : Prop where
  sets : setsVariable name = true ->
    held (parseLine nutData call p (name :: words)).tree (varName name) =
      if words = [] then none else some ((joined words).take (maxStringSize - 1))
  alarms : alarmName name = true ->
    (parseLine nutData call p (name :: words)).own =
      p.own.perform (if words = [] then .alarmInit else .alarmSet (joinWords [] words))
  alone : (parseLine nutData call p (name :: words)).own =
    (parseLine nutData call { p with varValue := [] } (name :: words)).own
  within : (parseLine nutData call p (name :: words)).outside = p.outside

structure LineRegular (p : Pass) (name : CString) (words : List CString) : Prop where
  named : setsVariable name = true ->
    hasLead "TIMER" name = false ∧ hasLead "ALARM" name = false ∧ hasLead "ups.status" (varName name) = false
  empty : setsVariable name = true -> words = [] -> p.varValue = [] ∧ ¬ Fixed p.tree (varName name)
  room : setsVariable name = true -> words ≠ [] -> joined words ≠ [] ∧
    ((joined words).length < maxStringSize - 1 ∨ maxStringSize - 1 ≤ (words.headD []).length) ∧
      (Fixed p.tree (varName name) -> held p.tree (varName name) = some ((joined words).take (maxStringSize - 1)))
  alarm : alarmName name = true -> words ≠ [] -> joined words ≠ []
  timer : hasLead "TIMER" name = true -> words ≠ [] ∧ call.timerNow + (atoi (words.headD [])).toInt ≠ -1

end Lines

section Words

theorem joinWords_take {J : CString} {n : Nat} (limit : n = maxStringSize - 2 ∨ n = maxStringSize - 1 ∧ n ≤ J.length)
    (words : List CString) : words.foldl (fun value word => snprintfcat value maxStringSize (32 :: word)) (J.take n) =
      (J ++ words.flatMap fun word => 32 :: word).take n := by
  induction words generalizing J with
  | nil => simp
  | cons word words ih =>
    have step : snprintfcat (J.take n) maxStringSize (32 :: word) = (J ++ 32 :: word).take n := by
      have short : ¬ (J.take n).length > maxStringSize - 1 := by
        rw [List.length_take]
        unfold maxStringSize at limit ⊢
        omega
      rw [snprintfcat, if_neg short, List.take_append, List.length_take]
      congr 2
      unfold maxStringSize at limit ⊢
      omega
    rw [List.foldl_cons, step, ih (limit.imp id fun both => ⟨both.1, by rw [List.length_append]; omega⟩), List.flatMap_cons,
      List.append_assoc]

theorem joinWords_eq {words : List CString} (some_ : words ≠ []) (varValue : CString) :
    joinWords varValue words = (joined words).take
      (if maxStringSize - 1 ≤ (words.headD []).length then maxStringSize - 1 else maxStringSize - 2) := by
  cases words with
  | nil => exact absurd rfl some_
  | cons word words =>
    rw [joinWords, joined, snprintf, List.headD_cons]
    split
    case isTrue long => exact joinWords_take (.inr ⟨rfl, long⟩) words
    case isFalse short =>
      have first : word.take (maxStringSize - 1) = word.take (maxStringSize - 2) := by
        rw [List.take_of_length_le (by omega), List.take_of_length_le (by unfold maxStringSize at short ⊢; omega)]
      rw [first, joinWords_take (.inl rfl)]

theorem joinWords_room {words : List CString} (some_ : words ≠ [])
    (room : (joined words).length < maxStringSize - 1 ∨ maxStringSize - 1 ≤ (words.headD []).length) (varValue : CString) :
    joinWords varValue words = (joined words).take (maxStringSize - 1) := by
  rw [joinWords_eq some_]
  split
  case isTrue => rfl
  case isFalse short =>
    have whole := room.resolve_right short
    rw [List.take_of_length_le (by unfold maxStringSize at whole ⊢; omega), List.take_of_length_le (by omega)]

theorem joinWords_nonempty {words : List CString} (some_ : joined words ≠ []) (varValue : CString) :
    joinWords varValue words ≠ [] := by
  have words_ : words ≠ [] := fun none_ => some_ (by rw [none_, joined])
  rw [joinWords_eq words_, ne_eq, List.take_eq_nil_iff]
  rintro (none_ | none_)
  · split at none_ <;> cases none_
  · exact some_ none_

theorem joinWords_alone {words : List CString} (some_ : words ≠ []) (first second : CString) :
    joinWords first words = joinWords second words := by
  cases words with
  | nil => exact absurd rfl some_
  | cons word words => rfl

end Words

section Orders

theorem ordered_call {p : Pass} (ordered : Ordered p.tree) (op : StatusOp) : Ordered (p.call op).tree :=
  ordered_perform ordered op

theorem ordered_commit {p : Pass} (ordered : Ordered p.tree) (clock : Int) : Ordered (p.statusCommit clock).tree :=
  ordered_perform ordered (.statusCommit clock (p.trends.headD .unknown))

theorem ordered_setvar (nutData : List DummyInfo) (clock : Int) (var val : CString) {p : Pass} (ordered : Ordered p.tree) :
    Ordered (setvar nutData clock var val p).tree := by
  unfold setvar
  split
  · exact ordered_commit (ordered_call (ordered_call ordered _) _) clock
  split
  · exact ordered_call ordered _
  dsimp only
  have set := ordered_call ordered (.dstate clock (.setinfo var val))
  cases findInfo nutData var with
  | none => exact ordered_call (ordered_call set _) _
  | some item =>
    dsimp only
    split
    · exact ordered_call (ordered_call set _) _
    · exact ordered_call set _

theorem ordered_line (nutData : List DummyInfo) (call : DummyCall) {p : Pass} (ordered : Ordered p.tree)
    (line : List CString) : Ordered (parseLine nutData call p line).tree := by
  cases line with
  | nil => exact ordered
  | cons name words =>
    rw [parseLine]
    split
    · exact ordered
    split
    · split
      · dsimp only
        split
        · exact ordered_call (p := { p with varValue := joinWords p.varValue words }) ordered _
        · exact ordered_call (p := { p with varValue := joinWords p.varValue words }) ordered _
      · exact ordered_call ordered _
    split
    · exact ordered
    split
    · refine ordered_commit ?_ call.clock
      have started : Ordered (p.call .statusInit).tree := ordered_call ordered _
      have word (p : Pass) (word : CString) (here : Ordered p.tree) : Ordered (p.call (.statusSet word)).tree := ordered_call here _
      exact invariant_foldl word started words
    · exact ordered_setvar nutData call.clock _ _ (p := { p with varValue := joinWords p.varValue words }) ordered

end Orders

section Setting

variable {nutData : List DummyInfo} {call : DummyCall} {p : Pass}

theorem setvar_value (clock : Int) {var val : CString} (ordered : Ordered p.tree) (status : hasLead "ups.status" var = false)
    (some_ : val ≠ []) :
    held (setvar nutData clock var val p).tree var = held (p.call (.dstate clock (.setinfo var val))).tree var := by
  have set : Ordered (p.call (.dstate clock (.setinfo var val))).tree := ordered_call ordered _
  unfold setvar
  rw [if_neg (ne_true_of_eq_false status), if_neg some_]
  dsimp only
  cases findInfo nutData var with
  | none =>
    have flags : Besides var _ _ := besides_setflags set (stFlagString ||| stFlagRw)
    have aux : Besides var _ _ := besides_setaux flags.ordered 32
    exact (aux.held var).trans (flags.held var)
  | some item =>
    have flags : Besides item.infoType _ _ := besides_setflags set item.infoFlags
    have aux : Besides item.infoType _ _ := besides_setaux flags.ordered item.infoLen
    dsimp only
    split
    · exact (aux.held var).trans (flags.held var)
    · exact flags.held var

theorem setvar_scratch (clock : Int) (var val varValue : CString) :
    setvar nutData clock var val { p with varValue } = { setvar nutData clock var val p with varValue } := by
  unfold setvar
  split
  · rfl
  split
  · rfl
  cases findInfo nutData var with
  | none => rfl
  | some item =>
    dsimp only
    split <;> rfl

theorem words_scratch (words : List CString) (varValue : CString) :
    words.foldl (fun p word => Pass.call p (.statusSet word)) { p with varValue } =
      { words.foldl (fun p word => Pass.call p (.statusSet word)) p with varValue } := by
  induction words generalizing p with
  | nil => rfl
  | cons word words ih => exact @ih (p.call (.statusSet word))

theorem setvar_kept (clock : Int) (var val : CString) :
    (setvar nutData clock var val p).outside = p.outside ∧ (setvar nutData clock var val p).nextUpdate = p.nextUpdate := by
  unfold setvar
  split
  · exact ⟨rfl, rfl⟩
  split
  · exact ⟨rfl, rfl⟩
  cases findInfo nutData var with
  | none => exact ⟨rfl, rfl⟩
  | some item =>
    dsimp only
    split <;> exact ⟨rfl, rfl⟩

theorem words_kept (words : List CString) :
    (words.foldl (fun p word => Pass.call p (.statusSet word)) p).outside = p.outside ∧
      (words.foldl (fun p word => Pass.call p (.statusSet word)) p).nextUpdate = p.nextUpdate := by
  induction words generalizing p with
  | nil => exact ⟨rfl, rfl⟩
  | cons word words ih => exact @ih (p.call (.statusSet word))

end Setting

section Means

variable {nutData : List DummyInfo} {call : DummyCall} {p : Pass} {name : CString} {words : List CString}

theorem varName_lead {lead : String} (named : varName name = cstr lead) : ∃ more, name = cstr lead ++ more := by
  obtain ⟨more, whole⟩ := List.takeWhile_prefix (p := (· ≠ 58)) (l := name)
  rw [<- named]
  exact ⟨more, whole.symm⟩

theorem lead_append (lead : String) (more : CString) : hasLead lead (cstr lead ++ more) = true := by
  rw [hasLead, List.isPrefixOf_iff_prefix]
  exact List.prefix_append _ _

theorem setsVariable_rest (timer : hasLead "TIMER" name = false) (alarm : hasLead "ALARM" name = false)
    (driver : hasLead "driver." (varName name) = false) (status : hasLead "ups.status" (varName name) = false) :
    setsVariable name = true := by
  have other {lead : String} (differs : hasLead lead name = false) : varName name ≠ cstr lead := by
    intro named
    obtain ⟨more, rfl⟩ := varName_lead named
    rw [lead_append] at differs
    cases differs
  have notStatus : varName name ≠ cstr "ups.status" := by
    intro named
    rw [named] at status
    cases status
  simp [setsVariable, timerName, alarmName, other timer, other alarm, notStatus, driver]

theorem parseLine_setvar (timer : hasLead "TIMER" name = false) (alarm : hasLead "ALARM" name = false)
    (driver : hasLead "driver." (varName name) = false) (status : hasLead "ups.status" (varName name) = false) :
    parseLine nutData call p (name :: words) =
      setvar nutData call.clock (varName name) (joinWords p.varValue words) { p with varValue := joinWords p.varValue words } := by
  simp [parseLine, timer, alarm, driver, status]

theorem setsVariable_driver (sets : setsVariable name = true) : hasLead "driver." (varName name) = false := by
  simp only [setsVariable, Bool.and_eq_true, Bool.not_eq_true'] at sets
  exact sets.2

theorem line_sets (ordered : Ordered p.tree) (regular : LineRegular call p name words) (sets : setsVariable name = true) :
    held (parseLine nutData call p (name :: words)).tree (varName name) =
      if words = [] then none else some ((joined words).take (maxStringSize - 1)) := by
  obtain ⟨timer, alarm, status⟩ := regular.named sets
  rw [parseLine_setvar timer alarm (setsVariable_driver sets) status, setvar_scratch]
  by_cases none_ : words = []
  · obtain ⟨blank, free⟩ := regular.empty sets none_
    rw [if_pos none_, none_, joinWords, blank]
    have deleted : setvar nutData call.clock (varName name) [] p = p.call (.dstate call.clock (.delinfo (varName name))) := by
      rw [setvar, if_neg (ne_true_of_eq_false status), if_pos rfl]
    rw [deleted]
    exact held_delinfo_gone ordered free
  · obtain ⟨some_, room, fixed⟩ := regular.room sets none_
    have value := joinWords_room none_ room p.varValue
    have nonempty := joinWords_nonempty some_ p.varValue
    have set := @setvar_value nutData p call.clock _ _ ordered status nonempty
    have fits : snprintf stMaxValueLen (joinWords p.varValue words) = (joined words).take (maxStringSize - 1) := by
      rw [snprintf, value, List.take_take]
      rfl
    rw [if_neg none_]
    refine Eq.trans set ?_
    rcases @held_setinfo _ (varName name) ordered call.clock (snprintf stMaxValueLen (joinWords p.varValue words)) with
      changed | ⟨immutable, kept⟩
    · exact changed.trans (congrArg some fits)
    · exact kept.trans (fixed immutable)

theorem line_alarms (regular : LineRegular call p name words) (alarms : alarmName name = true) :
    (parseLine nutData call p (name :: words)).own =
      p.own.perform (if words = [] then .alarmInit else .alarmSet (joinWords [] words)) := by
  obtain ⟨more, rfl⟩ := varName_lead (of_decide_eq_true alarms)
  have timer : hasLead "TIMER" (cstr "ALARM" ++ more) = false := rfl
  rw [parseLine, if_neg (ne_true_of_eq_false timer), if_pos (lead_append "ALARM" more)]
  by_cases none_ : words = []
  · rw [if_neg (not_not_intro none_), if_pos none_]
    rfl
  · have nonempty := joinWords_nonempty (regular.alarm alarms none_) p.varValue
    rw [if_pos none_, if_neg none_]
    dsimp only
    rw [if_pos nonempty, joinWords_alone none_ [] p.varValue]
    rfl

theorem line_alone (regular : LineRegular call p name words) :
    (parseLine nutData call p (name :: words)).own = (parseLine nutData call { p with varValue := [] } (name :: words)).own := by
  rw [parseLine, parseLine]
  split
  next => rfl
  next timer =>
    split
    next alarm =>
      split
      next some_ =>
        dsimp only
        rw [joinWords_alone some_ [] p.varValue]
      next => rfl
    next alarm =>
      split
      next => rfl
      next driver =>
        split
        next =>
          have scratch := words_scratch (p := p.call .statusInit) words []
          exact (congrArg (fun p => (Pass.statusCommit p call.clock).own) scratch).symm
        next status =>
          simp only [Bool.not_eq_true] at timer alarm driver status
          have sets := setsVariable_rest timer alarm driver status
          have same : joinWords p.varValue words = joinWords [] words := by
            by_cases none_ : words = []
            · rw [(regular.empty sets none_).1]
            · exact joinWords_alone none_ p.varValue []
          dsimp only
          rw [same]

theorem line_kept (timer : hasLead "TIMER" name = false) :
    (parseLine nutData call p (name :: words)).outside = p.outside ∧
      (parseLine nutData call p (name :: words)).nextUpdate = p.nextUpdate := by
  rw [parseLine, if_neg (ne_true_of_eq_false timer)]
  split
  · split
    · dsimp only
      split <;> exact ⟨rfl, rfl⟩
    · exact ⟨rfl, rfl⟩
  split
  · exact ⟨rfl, rfl⟩
  split
  · exact words_kept words
  · exact setvar_kept call.clock _ _

theorem line_within (regular : LineRegular call p name words) :
    (parseLine nutData call p (name :: words)).outside = p.outside := by
  cases timer : hasLead "TIMER" name with
  | false => exact (line_kept timer).1
  | true =>
    rw [parseLine, if_pos timer]
    cases words with
    | nil => exact absurd rfl (regular.timer timer).1
    | cons => exact Bool.or_false _

theorem line_means (ordered : Ordered p.tree) (regular : LineRegular call p name words) :
    LineMeans nutData call p name words where
  sets := line_sets ordered regular
  alarms := line_alarms regular
  alone := line_alone regular
  within := line_within regular

end Means

end Nut.Dummy
