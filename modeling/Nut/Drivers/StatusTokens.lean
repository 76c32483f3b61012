import Nut.Drivers.Status
import Nut.Library.Runs

set_option autoImplicit false

namespace Nut

structure Alarms where
  raised : Bool
  active : Bool
  legacy : Bool

def Alarms.none : Alarms :=
  { raised := false, active := false, legacy := false }

def Alarms.after (alarms : Alarms) : StatusOp -> Alarms
  | .statusInit => { alarms with legacy := false }
  | .statusSet buf => { alarms with legacy := alarms.legacy || (strtok 32 buf).any fun word => isCommand word "ALARM" }
  | .alarmInit => { alarms with raised := false, active := false }
  | .alarmSet buf => { alarms with raised := alarms.raised || buf ≠ [] }
  | .alarmCommit _ => { alarms with active := alarms.raised }
  | _ => alarms

-- Distinct words with a space between them, `ALARM` in front where there is one.
def CleanStatus (value : CString) (alarm : Bool) : Prop :=
  ∃ words : Words, value = words.text ∧ (cstr "ALARM" ∈ words.list ↔ alarm = true) ∧
    (alarm = true -> words.list.head? = some (cstr "ALARM")) ∧ words.list.count (cstr "LB") ≤ 1

namespace Status

variable {s : Status} {alarms : Alarms} {w : Words}

def addWords (accept : CString -> Bool) (list words : List CString) : List CString :=
  words.foldl (fun list word => if accept word = true ∧ word ∉ list then list ++ [word] else list) list

def joined (list : List CString) : CString :=
  ([32] : CString).intercalate list

def withLB (s : Status) (list : List CString) : List CString :=
  if s.ignorelb && s.isLow then list ++ [cstr "LB"] else list

def withCharge (s : Status) (trend : Trend) (list : List CString) : List CString :=
  if (s.getinfo "battery.charge").isSome then
    match chargeWord trend (list.contains (cstr "DISCHRG")) (list.contains (cstr "CHRG")) with
    | some word => addWords (statusAccepts s.ignorelb) list [word]
    | none => list
  else list

def committed (s : Status) (trend : Trend) : List CString :=
  s.withCharge trend (s.withLB (strtok 32 s.statusBuf))

-- The text fits with a byte to spare, and `LB` is appended to other words only, and only once.
def Tidy (s : Status) : StatusOp -> Prop
  | .statusSet buf =>
    (joined (addWords (statusAccepts s.ignorelb) (strtok 32 s.statusBuf) (strtok 32 buf))).length ≤ 254
  | .statusCommit _ trend =>
    (s.ignorelb = true -> s.isLow = true -> s.statusBuf ≠ [] ∧ cstr "LB" ∉ strtok 32 s.statusBuf) ∧
      (joined (s.committed trend)).length ≤ 254 ∧
      ((s.alarmActive || s.alarmLegacyStatus) = true -> (joined (s.committed trend)).length + 6 ≤ 255)
  | _ => True

structure Holds (s : Status) (w : Words) (alarms : Alarms) : Prop where
  text : s.statusBuf = w.text
  noAlarm : ∀ word ∈ w.list, isCommand word "ALARM" = false
  active : s.alarmActive = alarms.active
  legacy : s.alarmLegacyStatus = alarms.legacy
  raised : s.alarmBuf ≠ [] ↔ alarms.raised = true
  unused : s.alarmStatus = false

theorem insertAll_list {accept : CString -> Bool} {words : List CString}
    (spaceless : ∀ word ∈ words, word ≠ [] ∧ 32 ∉ word) :
    (w.insertAll accept words).list = addWords accept w.list words := by
  unfold Words.insertAll addWords
  induction words generalizing w with
  | nil => rfl
  | cons word words ih =>
    obtain ⟨some_, apart⟩ := spaceless word List.mem_cons_self
    have later : ∀ word ∈ words, word ≠ [] ∧ 32 ∉ word :=
      fun word member => spaceless word (List.mem_cons_of_mem _ member)
    rw [List.foldl_cons, List.foldl_cons, ih later]
    congr 1
    by_cases accepted : accept word = true
    · by_cases present : word ∈ w.list
      · simp [accepted, present, Words.insert_present present]
      · simp [accepted, present, Words.insert_list some_ apart present]
    · simp [accepted]

theorem insertAll_noAlarm {ignorelb : Bool} (words : List CString)
    (noAlarm : ∀ word ∈ w.list, isCommand word "ALARM" = false) :
    ∀ word ∈ (w.insertAll (statusAccepts ignorelb) words).list, isCommand word "ALARM" = false := by
  unfold Words.insertAll
  induction words generalizing w with
  | nil => exact noAlarm
  | cons word words ih =>
    rw [List.foldl_cons]
    apply ih
    split
    next accepted =>
      have plain : isCommand word "ALARM" = false := by
        simp only [statusAccepts, Bool.and_eq_true, Bool.not_eq_true'] at accepted
        exact accepted.2
      unfold Words.insert
      split
      · intro other member
        rcases List.mem_append.mp member with earlier | last
        · exact noAlarm other earlier
        · rw [List.mem_singleton.mp last]
          exact plain
      · exact noAlarm
    next => exact noAlarm

theorem statusSet_holds (holds : s.Holds w alarms) {buf : CString}
    (fits : (joined (addWords (statusAccepts s.ignorelb) w.list (strtok 32 buf))).length ≤ 254) :
    (s.statusSet buf).Holds (w.insertAll (statusAccepts s.ignorelb) (strtok 32 buf)) (alarms.after (.statusSet buf)) := by
  have list := @insertAll_list w (statusAccepts s.ignorelb) _ (strtok_spaceless 32 buf)
  have room : (w.insertAll (statusAccepts s.ignorelb) (strtok 32 buf)).text.length + 1 < stMaxValueLen := by
    rw [Words.text, list]
    simp only [stMaxValueLen]
    unfold joined at fits
    omega
  exact
    { text := by
        rw [statusSet, holds.text]
        exact Words.strAddUniqueToken_text buf room
      noAlarm := insertAll_noAlarm _ holds.noAlarm
      active := holds.active
      legacy := by simp [statusSet, Alarms.after, holds.legacy]
      raised := holds.raised
      unused := holds.unused }

theorem appendLB_holds (holds : s.Holds w alarms)
    (lb : s.ignorelb = true -> s.isLow = true -> s.statusBuf ≠ [] ∧ cstr "LB" ∉ strtok 32 s.statusBuf) :
    ∃ w' : Words, w'.list = s.withLB w.list ∧ (w'.text.length ≤ 254 -> s.appendLB.Holds w' alarms) := by
  unfold appendLB withLB
  by_cases low : (s.ignorelb && s.isLow) = true
  · simp only [low, if_true]
    obtain ⟨ignored, below⟩ := Bool.and_eq_true_iff.mp low
    obtain ⟨some_, new⟩ := lb ignored below
    rw [holds.text, Words.strtok_text] at new
    rw [holds.text] at some_
    have list := @Words.insert_list w (cstr "LB") (by decide) (by decide) new
    have text := @Words.insert_text w (cstr "LB") (by decide) (by decide) new
    rw [if_neg some_] at text
    refine ⟨w.insert (cstr "LB"), list, fun fits => ?_⟩
    exact
      { text := by
          have long : (w.text ++ cstr " LB").length ≤ 254 := (congrArg List.length text).symm.trans_le fits
          rw [List.length_append] at long
          rw [text, holds.text]
          apply snprintfcat_fits
          simp only [stMaxValueLen]
          omega
        noAlarm := by
          intro word member
          rw [list] at member
          rcases List.mem_append.mp member with earlier | last
          · exact holds.noAlarm word earlier
          · rw [List.mem_singleton.mp last]
            decide
        active := holds.active
        legacy := holds.legacy
        raised := holds.raised
        unused := holds.unused }
  · simp only [low]
    exact ⟨w, rfl, fun _ => holds⟩

theorem appendLB_published (s : Status) : s.appendLB.published = s.published := by
  unfold appendLB
  split <;> rfl

theorem addCharge_published (s : Status) (trend : Trend) : (s.addCharge trend).published = s.published := by
  unfold addCharge
  split
  · split <;> rfl
  · rfl

theorem withCharge_appendLB (s : Status) (trend : Trend) (list : List CString) :
    s.appendLB.withCharge trend list = s.withCharge trend list := by
  unfold appendLB
  split <;> rfl

theorem statusGet_eq (holds : s.Holds w alarms) (word : String) (some_ : cstr word ≠ []) (spaceless : 32 ∉ cstr word) :
    s.statusGet word = w.list.contains (cstr word) := by
  rw [statusGet, holds.text, Bool.eq_iff_iff, Words.contains_text some_ spaceless, List.contains_iff_mem]

theorem chargeWord_some {trend : Trend} {dischrg chrg : Bool} {word : CString}
    (known : chargeWord trend dischrg chrg = some word) : word = cstr "CHRG" ∨ word = cstr "DISCHRG" := by
  cases trend with
  | unknown => cases known
  | rising =>
    simp only [chargeWord] at known
    split at known
    · exact Or.inl (Option.some.inj known).symm
    · cases known
  | falling =>
    simp only [chargeWord] at known
    split at known
    · exact Or.inr (Option.some.inj known).symm
    · cases known

theorem chargeWord_plain {word : CString} (charge : word = cstr "CHRG" ∨ word = cstr "DISCHRG") :
    strtok 32 word = [word] ∧ isCommand word "ALARM" = false := by
  rcases charge with same | same <;> rw [same] <;> decide +kernel

theorem addWords_longer (accept : CString -> Bool) (words : List CString)
    (spaceless : ∀ word ∈ words, word ≠ [] ∧ 32 ∉ word) :
    (joined w.list).length ≤ (joined (addWords accept w.list words)).length := by
  have longer := Words.insertAll_longer w accept words
  rw [Words.text, Words.text, insertAll_list spaceless] at longer
  exact longer

theorem chargeWord_spaceless {word : CString} (charge : word = cstr "CHRG" ∨ word = cstr "DISCHRG") :
    ∀ other ∈ [word], other ≠ [] ∧ 32 ∉ other := by
  intro other member
  rw [List.mem_singleton.mp member]
  rcases charge with same | same <;> rw [same] <;> decide +kernel

theorem withCharge_longer (s : Status) (trend : Trend) (w : Words) :
    (joined w.list).length ≤ (joined (s.withCharge trend w.list)).length := by
  unfold withCharge
  split
  · split
    next known => exact addWords_longer _ _ (chargeWord_spaceless (chargeWord_some known))
    next => exact Nat.le_refl _
  · exact Nat.le_refl _

theorem addCharge_holds (holds : s.Holds w alarms) {trend : Trend}
    (fits : (joined (s.withCharge trend w.list)).length ≤ 254) :
    ∃ w' : Words, w'.list = s.withCharge trend w.list ∧ (s.addCharge trend).Holds w' alarms := by
  unfold addCharge
  unfold withCharge at fits ⊢
  rw [statusGet_eq holds "DISCHRG" (by decide) (by decide), statusGet_eq holds "CHRG" (by decide) (by decide)]
  by_cases known : (s.getinfo "battery.charge").isSome = true
  · simp only [known, if_true] at fits ⊢
    cases charge : chargeWord trend (w.list.contains (cstr "DISCHRG")) (w.list.contains (cstr "CHRG")) with
    | none => exact ⟨w, rfl, holds⟩
    | some word =>
      simp only [charge] at fits ⊢
      obtain ⟨single, plain⟩ := chargeWord_plain (chargeWord_some charge)
      have set := statusSet_holds holds (by rw [single]; exact fits)
      have same : alarms.after (.statusSet word) = alarms := by
        simp [Alarms.after, single, plain]
      rw [same, single] at set
      exact ⟨_, insertAll_list (chargeWord_spaceless (chargeWord_some charge)), set⟩
  · simp only [known]
    exact ⟨w, rfl, holds⟩

def alarmFirst (w : Words) (noAlarm : ∀ word ∈ w.list, isCommand word "ALARM" = false) : Words :=
  { list := cstr "ALARM" :: w.list
    spaceless := by
      intro word member
      rcases List.mem_cons.mp member with first | later
      · rw [first]
        decide
      · exact w.spaceless word later
    nodup := List.nodup_cons.mpr ⟨fun member => absurd (noAlarm _ member) (by decide), w.nodup⟩ }

theorem alarmFirst_text (noAlarm : ∀ word ∈ w.list, isCommand word "ALARM" = false) :
    (alarmFirst w noAlarm).text = if w.text ≠ [] then cstr "ALARM " ++ w.text else cstr "ALARM" := by
  by_cases some_ : w.text = []
  · have empty : w.list = [] := Words.text_nil.mp some_
    simp [Words.text, alarmFirst, empty]
  · have words : w.list ≠ [] := fun empty => some_ (Words.text_nil.mpr empty)
    rw [if_pos some_, Words.text, alarmFirst, List.intercalate_cons_of_ne_nil words]
    rfl

theorem words_clean (noAlarm : ∀ word ∈ w.list, isCommand word "ALARM" = false) (alarm : Bool) :
    CleanStatus (if alarm then if w.text ≠ [] then cstr "ALARM " ++ w.text else cstr "ALARM" else w.text) alarm := by
  have absent : cstr "ALARM" ∉ w.list := fun member => absurd (noAlarm _ member) (by decide)
  cases alarm with
  | true =>
    refine ⟨alarmFirst w noAlarm, (alarmFirst_text noAlarm).symm, by simp [alarmFirst], fun _ => rfl, ?_⟩
    exact List.nodup_iff_count_le_one.mp (alarmFirst w noAlarm).nodup _
  | false =>
    refine ⟨w, rfl, by simp [absent], by simp, ?_⟩
    exact List.nodup_iff_count_le_one.mp w.nodup _

theorem statusText_eq (holds : s.Holds w alarms) : s.statusText = if alarms.active || alarms.legacy then
      if w.text ≠ [] then cstr "ALARM " ++ w.text else cstr "ALARM" else w.text := by
  rw [statusText, holds.text, holds.active, holds.legacy]

theorem statusText_fits (holds : s.Holds w alarms) (fits : w.text.length ≤ 254)
    (alarm : (alarms.active || alarms.legacy) = true -> w.text.length + 6 ≤ 255) :
    s.statusText.length < stMaxValueLen := by
  have front : (cstr "ALARM ").length = 6 := by decide
  have alone : (cstr "ALARM").length = 5 := by decide
  rw [statusText_eq holds]
  by_cases on : (alarms.active || alarms.legacy) = true
  · have room := alarm on
    simp only [on, if_true, stMaxValueLen]
    split
    · rw [List.length_append]
      omega
    · omega
  · simp only [on, stMaxValueLen]
    exact Nat.lt_of_le_of_lt fits (by decide)

theorem statusCommit_holds (holds : s.Holds w alarms) {now : Int} {trend : Trend}
    (tidy : s.Tidy (.statusCommit now trend)) : (∃ w' : Words, (s.statusCommit now trend).Holds w' alarms) ∧
      ∃ value, (s.statusCommit now trend).published = s.published ++ [value] ∧
        CleanStatus value (alarms.active || alarms.legacy) := by
  obtain ⟨lb, fits, alarm⟩ := tidy
  rw [committed, holds.text, Words.strtok_text] at fits alarm
  obtain ⟨low, lowList, appended⟩ := appendLB_holds holds lb
  rw [<- lowList] at fits alarm
  have short : low.text.length ≤ 254 := Nat.le_trans (withCharge_longer s trend low) fits
  have lowHolds := appended short
  rw [<- withCharge_appendLB] at fits alarm
  obtain ⟨all, allList, allHolds⟩ := addCharge_holds lowHolds fits
  rw [<- allList] at fits alarm
  have whole := statusText_eq allHolds
  have room : ((s.appendLB.addCharge trend).statusText).length < stMaxValueLen :=
    statusText_fits allHolds fits (by rw [<- holds.active, <- holds.legacy]; exact alarm)
  refine ⟨⟨all, ?_⟩, (s.appendLB.addCharge trend).statusText, ?_, ?_⟩
  · exact
      { text := allHolds.text
        noAlarm := allHolds.noAlarm
        active := allHolds.active
        legacy := allHolds.legacy
        raised := allHolds.raised
        unused := allHolds.unused }
  · rw [statusCommit, snprintf_fits room, addCharge_published, appendLB_published]
  · rw [whole]
    exact words_clean allHolds.noAlarm _

theorem alarmSet_eq (s : Status) (buf : CString) : ∃ text, s.alarmSet buf = { s with alarmBuf := text } := by
  unfold alarmSet
  split <;> exact ⟨_, rfl⟩

theorem alarmSet_raised (holds : s.Holds w alarms) (buf : CString) :
    (s.alarmSet buf).alarmBuf ≠ [] ↔ (alarms.after (.alarmSet buf)).raised = true := by
  have raised := holds.raised
  unfold alarmSet
  by_cases first : s.alarmBuf.length < 1
  · have empty : s.alarmBuf = [] := List.eq_nil_of_length_eq_zero (by omega)
    have quiet : alarms.raised = false := by simpa [empty] using raised
    rw [if_pos (Or.inl first)]
    cases buf <;> simp [snprintf, stMaxValueLen, Alarms.after, quiet]
  · have some_ : s.alarmBuf ≠ [] := fun empty => first (by simp [empty])
    have on : alarms.raised = true := raised.mp some_
    rw [if_neg (by simp [first, holds.unused])]
    unfold snprintfcat
    split <;> simp [Alarms.after, on, some_]

theorem perform_holds (holds : s.Holds w alarms) {op : StatusOp} (tidy : s.Tidy op) :
    (∃ w' : Words, (s.perform op).Holds w' (alarms.after op)) ∧ ((s.perform op).published = s.published ∨
        ∃ now trend value, op = .statusCommit now trend ∧ (s.perform op).published = s.published ++ [value] ∧
          CleanStatus value (alarms.active || alarms.legacy)) := by
  cases op with
  | dstate now op =>
    exact ⟨⟨w, { holds with }⟩, Or.inl rfl⟩
  | statusInit =>
    exact ⟨⟨.empty, { holds with text := rfl, noAlarm := by simp [Words.empty], legacy := rfl, unused := rfl }⟩, Or.inl rfl⟩
  | statusSet buf =>
    rw [Tidy, holds.text, Words.strtok_text] at tidy
    exact ⟨⟨_, statusSet_holds holds tidy⟩, Or.inl rfl⟩
  | statusCommit now trend =>
    obtain ⟨kept, value, published, clean⟩ := statusCommit_holds holds tidy
    exact ⟨kept, Or.inr ⟨now, trend, value, rfl, published, clean⟩⟩
  | alarmInit =>
    exact ⟨⟨w, { holds with active := rfl, raised := by simp [perform, alarmInit, Alarms.after] }⟩, Or.inl rfl⟩
  | alarmSet buf =>
    have raised := alarmSet_raised holds buf
    obtain ⟨text, set⟩ := alarmSet_eq s buf
    rw [set] at raised
    rw [perform, set]
    exact ⟨⟨w, { holds with raised := raised }⟩, Or.inl rfl⟩
  | alarmCommit now =>
    rw [perform, alarmCommit]
    by_cases some_ : s.alarmBuf.length > 0
    · have on : alarms.raised = true := holds.raised.mp (List.ne_nil_of_length_pos some_)
      rw [if_pos some_]
      exact ⟨⟨w, { holds with active := on.symm }⟩, Or.inl rfl⟩
    · have off : alarms.raised = false := by
        have empty : s.alarmBuf = [] := List.eq_nil_of_length_eq_zero (by omega)
        simpa [empty] using holds.raised
      rw [if_neg some_]
      exact ⟨⟨w, { holds with active := off.symm }⟩, Or.inl rfl⟩

theorem start_holds : start.Holds .empty .none :=
  { text := rfl, noAlarm := by simp [Words.empty], active := rfl, legacy := rfl, raised := by simp [start, Alarms.none],
    unused := rfl }

theorem run_holds {ops : List StatusOp} (tidy : Always perform (EachAction Tidy) start ops) :
    (∃ w, (ops.foldl perform start).Holds w (ops.foldl Alarms.after .none)) ∧
      ∀ value ∈ (ops.foldl perform start).published, ∃ before now trend after,
        ops = before ++ .statusCommit now trend :: after ∧
          CleanStatus value ((before.foldl Alarms.after .none).active || (before.foldl Alarms.after .none).legacy) := by
  induction ops using List.reverseRecOn with
  | nil => exact ⟨⟨.empty, start_holds⟩, by simp [start]⟩
  | append_singleton before op ih =>
    obtain ⟨⟨w, holds⟩, earlier⟩ := ih (always_upto tidy)
    obtain ⟨kept, published⟩ := perform_holds holds (always_last tidy)
    rw [List.foldl_append, List.foldl_append]
    refine ⟨kept, ?_⟩
    intro value member
    have old : value ∈ (before.foldl perform start).published -> ∃ upto now trend after,
        before ++ [op] = upto ++ .statusCommit now trend :: after ∧
          CleanStatus value ((upto.foldl Alarms.after .none).active || (upto.foldl Alarms.after .none).legacy) := by
      intro inside
      obtain ⟨upto, now, trend, after, split, clean⟩ := earlier value inside
      exact ⟨upto, now, trend, after ++ [op], by simp [split], clean⟩
    rcases published with same | ⟨now, trend, new, commit, added, clean⟩
    · exact old (same ▸ member)
    · have cases_ : value ∈ (before.foldl perform start).published ++ [new] := added ▸ member
      rcases List.mem_append.mp cases_ with inside | last
      · exact old inside
      · rw [List.mem_singleton.mp last]
        exact ⟨before, now, trend, [], by rw [commit], clean⟩

instance Tidy.decidable (s : Status) : (op : StatusOp) -> Decidable (s.Tidy op)
  | .statusSet buf =>
    inferInstanceAs (Decidable ((joined (addWords (statusAccepts s.ignorelb) (strtok 32 s.statusBuf)
      (strtok 32 buf))).length ≤ 254))
  | .statusCommit _ trend =>
    inferInstanceAs (Decidable ((s.ignorelb = true -> s.isLow = true -> s.statusBuf ≠ [] ∧
      cstr "LB" ∉ strtok 32 s.statusBuf) ∧ (joined (s.committed trend)).length ≤ 254 ∧
      ((s.alarmActive || s.alarmLegacyStatus) = true -> (joined (s.committed trend)).length + 6 ≤ 255)))
  | .dstate _ _ => isTrue trivial
  | .statusInit => isTrue trivial
  | .alarmInit => isTrue trivial
  | .alarmSet _ => isTrue trivial
  | .alarmCommit _ => isTrue trivial

instance EachAction.decidable (s : Status) : (ops : List StatusOp) -> Decidable (EachAction Tidy s ops)
  | [] => isTrue trivial
  | op :: _ => inferInstanceAs (Decidable (s.Tidy op))

end Status

open Status in
-- Every value of `ups.status` is clean, with `ALARM` as the calls before that commit have it.
theorem status_published {ops : List StatusOp} (tidy : Always perform (EachAction Status.Tidy) start ops) :
    ∀ value ∈ (ops.foldl perform start).published, ∃ before now trend after,
      ops = before ++ .statusCommit now trend :: after ∧
        CleanStatus value ((before.foldl Alarms.after .none).active || (before.foldl Alarms.after .none).legacy) :=
  (run_holds tidy).2

-- `driver.flag.ignorelb` is set and the battery is low.
def lowBattery : List StatusOp :=
  [.dstate 0 (.setinfo (cstr "driver.flag.ignorelb") (cstr "enabled")),
    .dstate 0 (.setinfo (cstr "battery.charge") (cstr "10")),
    .dstate 0 (.setinfo (cstr "battery.charge.low") (cstr "20")),
    .statusInit]

def hotBattery : List StatusOp :=
  lowBattery ++ ([.statusSet (cstr "OB DISCHRG OB"), .statusSet (cstr "LB"), .alarmInit, .alarmSet (cstr "[Hot]"),
    .alarmCommit 0, .statusCommit 0 .rising] : List StatusOp)

open Status in
theorem status_published_sample : (hotBattery.foldl perform start).published = [cstr "ALARM OB DISCHRG LB CHRG"] ∧
      ∃ before now trend after, hotBattery = before ++ .statusCommit now trend :: after ∧
        CleanStatus (cstr "ALARM OB DISCHRG LB CHRG")
          ((before.foldl Alarms.after .none).active || (before.foldl Alarms.after .none).legacy) :=
  ⟨by decide +kernel, @status_published hotBattery (by decide +kernel) _ (by decide +kernel)⟩

theorem cleanStatus_strtok {value : CString} {alarm : Bool} (clean : CleanStatus value alarm) :
    Status.joined (strtok 32 value) = value ∧ (strtok 32 value).Nodup := by
  obtain ⟨words, rfl, _⟩ := clean
  rw [Words.strtok_text]
  exact ⟨rfl, words.nodup⟩

open Status in
-- `LB` goes behind a space also where nothing is in front, and again where the buffer is committed again.
theorem lb_appended :
    ((lowBattery ++ [StatusOp.statusCommit 0 .unknown]).foldl perform start).published = [cstr " LB"] ∧
      ((lowBattery ++ [StatusOp.statusSet (cstr "OB"), .statusCommit 0 .unknown, .statusCommit 0 .unknown]).foldl
        perform start).published = [cstr "OB LB", cstr "OB LB LB"] ∧
      ∀ alarm, ¬ CleanStatus (cstr " LB") alarm ∧ ¬ CleanStatus (cstr "OB LB LB") alarm := by
  refine ⟨by decide +kernel, by decide +kernel, fun alarm => ⟨?_, ?_⟩⟩
  · intro clean
    exact absurd (cleanStatus_strtok clean).1 (by decide +kernel)
  · intro clean
    exact absurd (cleanStatus_strtok clean).2 (by decide +kernel)

end Nut
