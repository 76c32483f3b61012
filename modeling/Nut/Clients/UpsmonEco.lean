import Nut.Clients.UpsmonFlags

set_option autoImplicit false

namespace Nut

open UpsPoll

def ecoModes : List String :=
  [":ECO", ":ESS", ":HE", ":SMART"]

def namesEco (buzzword : CString) : Bool :=
  ecoModes.any fun mode => strstr buzzword (cstr mode)

def UpsPoll.Report.eco (report : Report) : Bool :=
  hasStatword report.status "ECO" || namesEco report.buzzword || namesEco report.buzzwordX

def UpsPoll.Report.ecoFound (report : Report) : Bool :=
  isEcoBuzzword report.buzzword || isEcoBuzzword report.buzzwordX

def notecos (p : UpsPoll) : Nat :=
  (p.notices.map Notice.type).count .noteco

section Untouched

variable {conf : UpsmonConf} {clock : Nat -> Int} {p q r : UpsPoll}

structure EcoKept (p q : UpsPoll) : Prop where
  flag : q.ups.status .eco = p.ups.status .eco
  notices : notecos q = notecos p

theorem ecoKept_trans (first : EcoKept p q) (second : EcoKept q r) : EcoKept p r :=
  ⟨second.flag.trans first.flag, second.notices.trans first.notices⟩

theorem notecos_doNotify (p : UpsPoll) (type : NotifyType) (extra : Option CString) :
    notecos (p.doNotify type extra) = notecos p + if type = .noteco then 1 else 0 := by
  simp [notecos, doNotify, List.count_singleton]

theorem ecoKept_doNotify {type : NotifyType} (other : type ≠ .noteco) (extra : Option CString) :
    EcoKept p (p.doNotify type extra) := ⟨rfl, by rw [notecos_doNotify, if_neg other, Nat.add_zero]⟩

theorem ecoKept_status {flag : StFlag} {value : Bool} (other : flag ≠ .eco)
    (status : q.ups.status = Function.update p.ups.status flag value) (notices : q.notices = p.notices) : EcoKept p q :=
  ⟨by rw [status, Function.update_of_ne other.symm], by rw [notecos, notices, notecos]⟩

theorem notecos_restore (p : UpsPoll) : notecos (p.tryRestorePollfreq conf) = notecos p := by
  unfold tryRestorePollfreq
  split <;> rfl

theorem ecoKept_enterState {flag : StFlag} {type : NotifyType} {extra : Option CString} {before : UpsPoll -> UpsPoll}
    (other : flag ≠ .eco) (quiet : type ≠ .noteco) (kept : EcoKept p (before p)) :
    EcoKept p (p.enterState flag type extra before) := by
  unfold enterState
  split
  · exact ⟨rfl, rfl⟩
  · exact ecoKept_trans (ecoKept_trans kept (ecoKept_doNotify quiet extra)) (ecoKept_status other rfl rfl)

theorem ecoKept_leaveState {flag : StFlag} {type : NotifyType} (other : flag ≠ .eco) (quiet : type ≠ .noteco) :
    EcoKept p (p.leaveState conf flag type) := by
  have restored (q : UpsPoll) : EcoKept q (q.tryRestorePollfreq conf) :=
    ⟨by rw [tryRestorePollfreq_ups], notecos_restore q⟩
  unfold leaveState
  split
  · have cleared : EcoKept (p.doNotify type none) ((p.doNotify type none).clearflag flag) :=
      ecoKept_status other (clearflag_status _ flag) rfl
    exact ecoKept_trans (ecoKept_trans (ecoKept_doNotify quiet none) cleared) (restored _)
  · exact ⟨rfl, rfl⟩

theorem ecoKept_lasting : Lasting conf (EcoKept p) := by
  have reminded : ∀ type ∈ reminders, type ≠ .noteco := by decide
  have unmarked : ∀ flag ∈ unannounced, flag ≠ .eco := by decide
  have entering : ∀ state ∈ statesEntered, state.1 ≠ .eco ∧ state.2 ≠ .noteco := by decide
  have leaving : ∀ state ∈ statesLeft, state.1 ≠ .eco ∧ state.2 ≠ .noteco := by decide
  constructor
  case quiet =>
    intro q r kept status notices
    exact ecoKept_trans kept ⟨by rw [status], by rw [notecos, notices, notecos]⟩
  case notice => exact fun extra kept type => ecoKept_trans kept (ecoKept_doNotify (reminded _ type) extra)
  case mark => exact fun kept flag status notices => ecoKept_trans kept (ecoKept_status (unmarked _ flag) status notices)
  case enter =>
    intro q flag type extra before kept state status notices
    have first : EcoKept q (before q) := ⟨by rw [status], by rw [notecos, notices, notecos]⟩
    exact ecoKept_trans kept (ecoKept_enterState (entering _ state).1 (entering _ state).2 first)
  case leave => exact fun kept state => ecoKept_trans kept (ecoKept_leaveState (leaving _ state).1 (leaving _ state).2)

theorem ecoKept_refl (p : UpsPoll) : EcoKept p p := ⟨rfl, rfl⟩

end Untouched

section Reported

variable {conf : UpsmonConf} {clock : Nat -> Int} {p : UpsPoll}

theorem upsIsEco_notecos (p : UpsPoll) : notecos p.upsIsEco = notecos p := by
  unfold upsIsEco enterState
  split
  · rfl
  · have before : EcoKept p { p with ups.ecostate := 1 } := ⟨rfl, rfl⟩
    exact (ecoKept_trans before (ecoKept_doNotify (by decide) none)).notices

theorem upsIsNoteco_notecos (p : UpsPoll) :
    notecos (p.upsIsNoteco conf) = notecos p + if p.isset .eco then 1 else 0 := by
  unfold upsIsNoteco leaveState
  by_cases known : p.isset .eco = true
  · have still : ({ p with ups.ecostate := 0 } : UpsPoll).isset .eco = true := known
    rw [if_pos still, if_pos known, notecos_restore]
    exact notecos_doNotify _ .noteco none
  · have still : ¬ ({ p with ups.ecostate := 0 } : UpsPoll).isset .eco = true := known
    rw [if_neg still, if_neg known]
    rfl

theorem upsIsNoteco_status (p : UpsPoll) : (p.upsIsNoteco conf).ups.status = Function.update p.ups.status .eco false :=
  leaveState_status conf { p with ups.ecostate := 0 } .eco .noteco

theorem ecoMode_eq (report : Report) (p : UpsPoll) : p.ecoMode conf report =
      if !strstr report.status (cstr "ECO") && !report.ecoFound then p.upsIsNoteco conf
      else if report.ecoFound then p.upsIsEco else p := rfl

theorem ecoMode_eco (report : Report) (p : UpsPoll) : (p.ecoMode conf report).ups.status .eco =
        (report.ecoFound || strstr report.status (cstr "ECO") && p.ups.status .eco) ∧ notecos (p.ecoMode conf report) =
        notecos p + if p.isset .eco && !strstr report.status (cstr "ECO") && !report.ecoFound then 1 else 0 := by
  have left := @upsIsNoteco_notecos conf p
  rw [ecoMode_eq]
  cases report.ecoFound with
  | true => simp [upsIsEco_status, upsIsEco_notecos]
  | false => cases strstr report.status (cstr "ECO") <;> simp [upsIsNoteco_status, left]

theorem parseStatword_eco (alarms : Option CString) (statword : CString) :
    (p.parseStatword conf clock alarms statword).ups.status .eco = (p.ups.status .eco || isStatword statword "ECO") ∧
      notecos (p.parseStatword conf clock alarms statword) = notecos p := by
  cases isEco : isStatword statword "ECO" with
  | false =>
    have kept : EcoKept p (p.parseStatword conf clock alarms statword) :=
      ecoKept_lasting.parseStatword alarms (ecoKept_refl p) fun is => absurd is (by simp [isEco])
    rw [Bool.or_false]
    exact ⟨kept.flag, kept.notices⟩
  | true =>
    have entered : p.parseStatword conf clock alarms statword = p.upsIsEco := by
      have other {word : String} (table : (foldCase (cstr "ECO") == foldCase (cstr word)) = false) :
          isStatword statword word = false := (statword_same isEco word).trans table
      simp [parseStatword, isEco, @other "OL" (by decide), @other "OB" (by decide), @other "LB" (by decide),
        @other "RB" (by decide), @other "CAL" (by decide), @other "OFF" (by decide), @other "BYPASS" (by decide)]
    rw [entered, upsIsEco_status, Bool.or_true]
    exact ⟨Function.update_self _ _ _, upsIsEco_notecos p⟩

theorem parseStatwords_eco (alarm : Nat -> Option CString) (i : Nat) (statwords : List CString) :
    (p.parseStatwords conf clock alarm i statwords).ups.status .eco =
        (p.ups.status .eco || statwords.any fun statword => isStatword statword "ECO") ∧
      notecos (p.parseStatwords conf clock alarm i statwords) = notecos p := by
  induction statwords generalizing i p with
  | nil => simp [parseStatwords]
  | cons statword rest ih =>
    have word := @parseStatword_eco conf clock p (alarm i) statword
    have lasting : Lasting conf (EcoKept (p.parseStatword conf clock (alarm i) statword)) := ecoKept_lasting
    have timer := @Lasting.updateCrittimer conf clock _ _ lasting (ecoKept_refl _)
    rw [parseStatwords, (ih (i + 1)).1, (ih (i + 1)).2, timer.flag, timer.notices, word.1, word.2, List.any_cons,
      Bool.or_assoc]
    exact ⟨rfl, rfl⟩

theorem parseStatus_eco {report : Report} (nonempty : report.status ≠ []) :
    (p.parseStatus conf clock report).isset .eco = (report.ecoFound || hasStatword report.status "ECO" ||
          strstr report.status (cstr "ECO") && p.isset .eco) ∧ notecos (p.parseStatus conf clock report) =
        notecos p + if p.isset .eco && !strstr report.status (cstr "ECO") && !report.ecoFound then 1 else 0 := by
  have lasting : Lasting conf (EcoKept p) := ecoKept_lasting
  have alive : EcoKept p (p.upsIsAlive clock) := lasting.upsIsAlive (ecoKept_refl p)
  have before := lasting.leaveStates report.status alive
  have mode := @ecoMode_eco conf report ((p.upsIsAlive clock).leaveStates conf report.status)
  rw [isset, before.flag, before.notices] at mode
  unfold parseStatus isset
  rw [if_neg nonempty, (parseStatwords_eco _ _ _).1, (parseStatwords_eco _ _ _).2, mode.1, mode.2]
  refine ⟨?_, rfl⟩
  rw [Bool.or_right_comm]
  rfl

end Reported

-- What a call should make of the mode: the flag shows it, and leaving it is announced once.
structure EcoShown (conf : UpsmonConf) (clock : Nat -> Int) (p : UpsPoll) (report : Report) : Prop where
  flag : (p.parseStatus conf clock report).isset .eco = report.eco
  left : notecos (p.parseStatus conf clock report) = notecos p + if p.isset .eco && !report.eco then 1 else 0

-- The code finds ECO where one of the modes is missing from a buzzword string. It is right if the report is of ECO then,
-- and otherwise if the word is there in capitals or is new, or the text names the mode just as the flag, `known`, has kept it.
def EcoExact (known : Bool) (report : Report) : Prop :=
  if report.ecoFound then report.eco = true
  else if hasStatword report.status "ECO" then strstr report.status (cstr "ECO") = true ∨ known = false
  else (namesEco report.buzzword || namesEco report.buzzwordX) = (strstr report.status (cstr "ECO") && known)

theorem ecoShown_iff {conf : UpsmonConf} {clock : Nat -> Int} {p : UpsPoll} {report : Report}
    (nonempty : report.status ≠ []) : EcoShown conf clock p report ↔ EcoExact (p.isset .eco) report := by
  obtain ⟨flag, left⟩ := @parseStatus_eco conf clock p report nonempty
  have parts : EcoShown conf clock p report ↔ _ ∧ _ := ⟨fun shown => ⟨shown.flag, shown.left⟩, fun ⟨f, l⟩ => ⟨f, l⟩⟩
  rw [parts, flag, left]
  unfold EcoExact Report.eco
  generalize report.ecoFound = found
  generalize hasStatword report.status "ECO" = word
  generalize strstr report.status (cstr "ECO") = inText
  generalize p.isset .eco = known
  rw [Bool.or_assoc word]
  generalize (namesEco report.buzzword || namesEco report.buzzwordX) = named
  cases found <;> cases word <;> cases inText <;> cases known <;> cases named <;> simp

-- The mode is shown and left with one notice, all along a run, exactly as long as each report is read for what it is.
theorem eco_shown (conf : UpsmonConf) (clock : Nat -> Int) (p : UpsPoll) (reports : List Report) :
    Always (fun p report => p.parseStatus conf clock report)
        (EachAction fun p report => report.status ≠ [] -> EcoShown conf clock p report) p reports ↔
      Always (fun p report => p.parseStatus conf clock report)
        (EachAction fun p report => report.status ≠ [] -> EcoExact (p.isset .eco) report) p reports := by
  have each (p : UpsPoll) (reports : List Report) :
      EachAction (fun p report => report.status ≠ [] -> EcoShown conf clock p report) p reports ↔
        EachAction (fun p report => report.status ≠ [] -> EcoExact (p.isset .eco) report) p reports := by
    cases reports with
    | nil => exact Iff.rfl
    | cons report rest => exact forall_congr' ecoShown_iff
  exact ⟨always_mono fun p reports => (each p reports).mp, always_mono fun p reports => (each p reports).mpr⟩

-- A UPS whose only mode is another one.
theorem normal_is_eco : ¬ ∀ (conf : UpsmonConf) (clock : Nat -> Int) (p : UpsPoll) (reports : List Report),
        Always (fun p report => p.parseStatus conf clock report)
          (EachAction fun p report => report.status ≠ [] -> EcoShown conf clock p report) p reports := by
  intro all
  have shown := all .defaults (fun _ => 1000) (freshPoll .start (cstr "ups@host") 1 [] [] true)
    [{ Report.plain (cstr "OL") with buzzword := cstr "vendor:mge:NORMAL" }]
  have flag := (shown.1 (by decide)).flag
  revert flag
  decide +kernel

end Nut
