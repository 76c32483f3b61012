import Nut.Clients.UpsmonRate

set_option autoImplicit false

namespace Nut

open UpsPoll

structure MonitorLine where
  sys : CString
  pvs : CString
  un : CString
  pw : CString
  managerialOption : CString
  deriving DecidableEq

namespace MonitorLine

def isOption (line : MonitorLine) (word : String) : Bool :=
  strcasecmp line.managerialOption (cstr word) == .eq

def isPrimary (line : MonitorLine) : Bool :=
  line.isOption "primary" || line.isOption "master"

def isSecondary (line : MonitorLine) : Bool :=
  line.isOption "secondary" || line.isOption "slave"

def pv (line : MonitorLine) : Option UInt32 :=
  let lpv := (strtol line.pvs).toInt
  if lpv < 0 ∨ lpv > 2 ^ 32 - 1 then none else some (UInt32.ofNat lpv.toNat)

def role (line : MonitorLine) : Option Bool :=
  if line.isPrimary then some true else if line.isSecondary then some false else none

end MonitorLine

namespace Utype

def dropConnection (ups : Utype) : Utype :=
  { ups with commstate := 0, status := Function.update (Function.update ups.status .login false) .cliconnected false }

def retryConnection (ups : Utype) : Utype :=
  if ups.status .login then ups else ups.dropConnection

def redefine (line : MonitorLine) (pv : UInt32) (ups : Utype) : Utype :=
  let ups := { ups with pv }
  let ups := if ups.un ≠ line.un then { ups with un := line.un }.retryConnection else ups
  let ups := if ups.pw ≠ line.pw then { ups with pw := line.pw }.retryConnection else ups
  if line.isPrimary && !ups.status .primary then
    { ups with status := Function.update ups.status .primary true }.dropConnection
  else if line.isSecondary && ups.status .primary then
    { ups with status := Function.update ups.status .primary false }
  else ups

def forget (now : Int) (ups : Utype) : Utype :=
  { ups with status := fun _ => false, lastpoll := now }

end Utype

structure Retained where
  ups : Utype
  retain : Bool

def addups (line : MonitorLine) (pv : UInt32) : List Retained -> List Retained
  | [] => [{ ups := Utype.added line.sys pv line.un line.pw line.isPrimary, retain := true }]
  | entry :: rest =>
    if entry.ups.sys = line.sys then { ups := entry.ups.redefine line pv, retain := true } :: rest
    else entry :: addups line pv rest

def readMonitor (read : List Retained × UInt32) (line : MonitorLine) : List Retained × UInt32 :=
  match line.pv with
  | none => read
  | some pv => (addups line pv read.1, read.2 + pv)

def reloadConf (minsupplies : UInt32) (lines : Option (List MonitorLine)) (upses : List Utype) : Option (List Utype) :=
  match lines with
  | none => some upses
  | some lines =>
    let read := lines.foldl readMonitor (upses.map fun ups => { ups, retain := false }, 0)
    if read.2 < minsupplies then none else some ((read.1.filter Retained.retain).map Retained.ups)

-- What `main` does when the system has slept; `conf` is as it is after the configuration was read again.
def Upsmon.wakeUp (conf : UpsmonConf) (clock : Nat -> Int) (lines : Option (List MonitorLine)) (w : Upsmon) : Option Upsmon :=
  (reloadConf conf.minsupplies lines (w.upsList.map (Utype.forget (clock w.ticks)))).map fun upses =>
    { w with ticks := w.ticks + 1, upsList := upses }

def roleRead (lines : List MonitorLine) (sys : CString) : Option Bool :=
  ((lines.filter fun line => line.sys = sys && line.pv.isSome).filterMap MonitorLine.role).getLast?

def Stays (lines : Option (List MonitorLine)) (ups : Utype) : Prop :=
  ∀ read ∈ lines, ∃ line ∈ read, line.sys = ups.sys ∧ line.pv.isSome = true

-- What neither a wake-up nor a reload changes.
def latches (ups : Utype) : Int × Int × Int × Int × Int × Int × Int :=
  (ups.offstate, ups.bypassstate, ups.alarmstate, ups.overstate, ups.offsince, ups.oblbsince, ups.oversince)

section Reload

variable {ups : Utype} {lines : List MonitorLine} {line : MonitorLine} {pv : UInt32} {sys : CString}

structure Redefined (role : Bool) (before after : Utype) : Prop where
  latches : latches after = latches before
  sys : after.sys = before.sys
  role : after.status .primary = role
  flags : ∀ flag, flag ≠ .primary -> after.status flag = true -> before.status flag = true

theorem redefined_retry {role : Bool} {after : Utype} (redefined : Redefined role ups after) :
    Redefined role ups after.retryConnection ∧ Redefined role ups after.dropConnection := by
  have dropped : Redefined role ups after.dropConnection := by
    refine { redefined with flags := fun flag other set => redefined.flags flag other ?_ }
    cases flag <;> simp_all [Utype.dropConnection, Function.update]
  refine ⟨?_, dropped⟩
  unfold Utype.retryConnection
  split
  · exact redefined
  · exact dropped

theorem isSecondary_other (primary : line.isPrimary = true) : line.isSecondary = false := by
  have apart : ∀ word ∈ ["primary", "master"], ∀ other ∈ ["secondary", "slave"],
      (foldCase (cstr word) == foldCase (cstr other)) = false := by decide
  have named (word : String) (is : line.isOption word = true) (other : String) :
      line.isOption other = (foldCase (cstr word) == foldCase (cstr other)) := statword_same is other
  unfold MonitorLine.isSecondary
  rcases Bool.or_eq_true_iff.mp primary with is | is
  · rw [named _ is, named _ is, apart _ (by decide) _ (by decide), apart _ (by decide) _ (by decide)]
    rfl
  · rw [named _ is, named _ is, apart _ (by decide) _ (by decide), apart _ (by decide) _ (by decide)]
    rfl

theorem redefine_redefined : Redefined (line.role.getD (ups.status .primary)) ups (ups.redefine line pv) := by
  have value : Redefined (ups.status .primary) ups { ups with pv } := ⟨rfl, rfl, rfl, fun _ _ set => set⟩
  have username (u : Utype) (redefined : Redefined (ups.status .primary) ups u) :
      Redefined (ups.status .primary) ups (if u.un ≠ line.un then { u with un := line.un }.retryConnection else u) := by
    have named : Redefined (ups.status .primary) ups { u with un := line.un } :=
      { redefined with }
    split
    · exact (redefined_retry named).1
    · exact redefined
  have password (u : Utype) (redefined : Redefined (ups.status .primary) ups u) :
      Redefined (ups.status .primary) ups (if u.pw ≠ line.pw then { u with pw := line.pw }.retryConnection else u) := by
    have named : Redefined (ups.status .primary) ups { u with pw := line.pw } :=
      { redefined with }
    split
    · exact (redefined_retry named).1
    · exact redefined
  have ruled (u : Utype) (redefined : Redefined (ups.status .primary) ups u) (role : Bool) :
      Redefined role ups { u with status := Function.update u.status .primary role } := by
    refine ⟨redefined.latches, redefined.sys, by simp, fun flag other set => redefined.flags flag other ?_⟩
    simpa [Function.update_of_ne other] using set
  have final (u : Utype) (redefined : Redefined (ups.status .primary) ups u) :
      Redefined (line.role.getD (ups.status .primary)) ups (if line.isPrimary && !u.status .primary then
          { u with status := Function.update u.status .primary true }.dropConnection
        else if line.isSecondary && u.status .primary then { u with status := Function.update u.status .primary false }
        else u) := by
    unfold MonitorLine.role
    cases primary : line.isPrimary with
    | true =>
      rw [isSecondary_other primary]
      cases was : u.status .primary with
      | true => exact { redefined with role := was }
      | false => exact (redefined_retry (ruled u redefined true)).2
    | false =>
      cases secondary : line.isSecondary with
      | false => exact redefined
      | true =>
        cases was : u.status .primary with
        | true => exact ruled u redefined false
        | false => exact { redefined with role := was }
  exact final _ (password _ (username _ value))

theorem roleRead_append (sys : CString) : roleRead (lines ++ [line]) sys =
      if line.sys = sys ∧ line.pv.isSome = true then line.role.or (roleRead lines sys) else roleRead lines sys := by
  unfold roleRead
  rw [List.filter_append, List.filterMap_append]
  by_cases here : line.sys = sys ∧ line.pv.isSome = true
  · cases role : line.role <;> simp [here, role]
  · have skipped : [line].filter (fun line => line.sys = sys && line.pv.isSome) = [] := by simpa using here
    rw [if_neg here, skipped]
    simp

def findEntry (sys : CString) (entries : List Retained) : Option Retained :=
  entries.find? fun entry => entry.ups.sys = sys

def MonitorLine.entry (line : MonitorLine) (pv : UInt32) : Option Retained -> Retained
  | none => { ups := Utype.added line.sys pv line.un line.pw line.isPrimary, retain := true }
  | some entry => { ups := entry.ups.redefine line pv, retain := true }

theorem findEntry_addups (entries : List Retained) (sys : CString) : findEntry sys (addups line pv entries) =
      if line.sys = sys then some (line.entry pv (findEntry line.sys entries)) else findEntry sys entries := by
  induction entries with
  | nil =>
    by_cases same : line.sys = sys <;> simp [addups, findEntry, MonitorLine.entry, Utype.added, same]
  | cons entry rest ih =>
    have kept : (entry.ups.redefine line pv).sys = entry.ups.sys := redefine_redefined.sys
    unfold addups
    by_cases here : entry.ups.sys = line.sys
    · rw [if_pos here]
      by_cases same : line.sys = sys
      · simp [findEntry, MonitorLine.entry, kept, here, same]
      · have other : entry.ups.sys ≠ sys := fun is => same (here.symm.trans is)
        simp [findEntry, kept, other, same]
    · rw [if_neg here]
      by_cases found : entry.ups.sys = sys
      · have apart : line.sys ≠ sys := fun is => here (found.trans is.symm)
        simp [findEntry, found, apart]
      · unfold findEntry at ih ⊢
        rw [List.find?_cons_of_neg (by simpa using found), ih, List.find?_cons_of_neg (by simpa using here),
          List.find?_cons_of_neg (by simpa using found)]

theorem mem_addups {entries : List Retained} {entry : Retained} (member : entry ∈ addups line pv entries) :
    entry ∈ entries ∨ entry = line.entry pv (findEntry line.sys entries) := by
  induction entries with
  | nil => exact .inr (List.mem_singleton.mp member)
  | cons first rest ih =>
    unfold addups at member
    by_cases here : first.ups.sys = line.sys
    · rw [if_pos here] at member
      rcases List.mem_cons.mp member with rfl | later
      · have found : findEntry line.sys (first :: rest) = some first := by simp [findEntry, here]
        rw [found]
        exact .inr rfl
      · exact .inl (List.mem_cons_of_mem _ later)
    · rw [if_neg here] at member
      have found : findEntry line.sys (first :: rest) = findEntry line.sys rest := by simp [findEntry, here]
      rw [found]
      rcases List.mem_cons.mp member with rfl | later
      · exact .inl List.mem_cons_self
      · exact (ih later).imp_left (List.mem_cons_of_mem _)

def Apart (entries : List Retained) : Prop :=
  entries.Pairwise fun a b => b.retain = true -> a.ups.sys ≠ b.ups.sys

theorem entry_sys (line : MonitorLine) (pv : UInt32) (entries : List Retained) :
    (line.entry pv (findEntry line.sys entries)).ups.sys = line.sys := by
  cases there : findEntry line.sys entries with
  | none => rfl
  | some entry =>
    have sys : entry.ups.sys = line.sys := by simpa using List.find?_some there
    exact redefine_redefined.sys.trans sys

theorem apart_addups {entries : List Retained} (apart : Apart entries) : Apart (addups line pv entries) := by
  induction entries with
  | nil => exact List.pairwise_singleton _ _
  | cons first rest ih =>
    obtain ⟨head, tail⟩ := List.pairwise_cons.mp apart
    unfold addups
    by_cases here : first.ups.sys = line.sys
    · rw [if_pos here]
      refine List.pairwise_cons.mpr ⟨fun b member retained => ?_, tail⟩
      have kept : (first.ups.redefine line pv).sys = first.ups.sys := redefine_redefined.sys
      rw [kept]
      exact head b member retained
    · rw [if_neg here]
      refine List.pairwise_cons.mpr ⟨fun b member retained => ?_, ih tail⟩
      rcases mem_addups member with old | rfl
      · exact head b old retained
      · rw [entry_sys]
        exact here

theorem findEntry_retained {entries : List Retained} (apart : Apart entries) {entry : Retained} (member : entry ∈ entries)
    (retained : entry.retain = true) : findEntry entry.ups.sys entries = some entry := by
  induction entries with
  | nil => cases member
  | cons first rest ih =>
    obtain ⟨head, tail⟩ := List.pairwise_cons.mp apart
    rcases List.mem_cons.mp member with rfl | later
    · simp [findEntry]
    · have other := head entry later retained
      unfold findEntry at ih ⊢
      rw [List.find?_cons_of_neg (by simpa using other)]
      exact ih tail later

def Unflagged (ups : Utype) : Prop :=
  ∀ flag, flag ≠ .primary -> ups.status flag = false

def unlatched : Int × Int × Int × Int × Int × Int × Int :=
  (-1, -1, -1, -1, 0, 0, 0)

def Descends (upses : List Utype) (lines : Option (List MonitorLine)) (ups : Utype) : Prop :=
  Unflagged ups ∧ Stays lines ups ∧ ((∃ before ∈ upses, latches ups = latches before ∧ ups.sys = before.sys) ∨
    latches ups = unlatched)

structure ReadUpto (upses : List Utype) (lines : List MonitorLine) (entries : List Retained) : Prop where
  found : ∀ sys entry, findEntry sys entries = some entry ->
    Unflagged entry.ups ∧ entry.ups.status .primary = (roleRead lines sys).getD false
  missing : ∀ sys, findEntry sys entries = none -> roleRead lines sys = none
  apart : Apart entries
  origin : ∀ entry ∈ entries, (∃ before ∈ upses, latches entry.ups = latches before ∧ entry.ups.sys = before.sys) ∨
    latches entry.ups = unlatched
  stays : ∀ entry ∈ entries, entry.retain = true -> ∃ line ∈ lines, line.sys = entry.ups.sys ∧ line.pv.isSome = true

theorem readUpto_line {upses : List Utype} {entries : List Retained} (upto : ReadUpto upses lines entries)
    (value : line.pv = some pv) : ReadUpto upses (lines ++ [line]) (addups line pv entries) := by
  have valid : line.pv.isSome = true := by rw [value]; rfl
  have entry : (line.entry pv (findEntry line.sys entries)).retain = true ∧
      Unflagged (line.entry pv (findEntry line.sys entries)).ups ∧
      (line.entry pv (findEntry line.sys entries)).ups.status .primary =
        (roleRead (lines ++ [line]) line.sys).getD false := by
    rw [roleRead_append, if_pos ⟨rfl, valid⟩]
    cases there : findEntry line.sys entries with
    | none =>
      rw [upto.missing _ there]
      refine ⟨rfl, fun flag other => by simp [MonitorLine.entry, Utype.added, other], ?_⟩
      cases role : line.isPrimary <;> cases other : line.isSecondary <;>
        simp [MonitorLine.entry, Utype.added, MonitorLine.role, role, other]
    | some entry =>
      obtain ⟨unflagged, role⟩ := upto.found _ _ there
      have redefined := @redefine_redefined entry.ups line pv
      refine ⟨rfl, fun flag other => Bool.eq_false_iff.mpr fun set => ?_, ?_⟩
      · have before := redefined.flags flag other set
        rw [unflagged flag other] at before
        cases before
      · change (entry.ups.redefine line pv).status .primary = _
        rw [redefined.role, role]
        cases line.role <;> rfl
  obtain ⟨retain, unflagged, role⟩ := entry
  have none_ (other : CString) (apart : line.sys ≠ other) : roleRead (lines ++ [line]) other = roleRead lines other := by
    rw [roleRead_append, if_neg fun both => apart both.1]
  constructor
  case found =>
    intro name entry there
    rw [findEntry_addups] at there
    split at there
    next same =>
      cases there
      rw [<- same]
      exact ⟨unflagged, role⟩
    next apart =>
      rw [none_ _ apart]
      exact upto.found _ _ there
  case missing =>
    intro name there
    rw [findEntry_addups] at there
    split at there
    · cases there
    next apart =>
      rw [none_ _ apart]
      exact upto.missing _ there
  case apart => exact apart_addups upto.apart
  case origin =>
    intro entry member
    rcases mem_addups member with old | rfl
    · exact upto.origin entry old
    · cases there : findEntry line.sys entries with
      | none => exact .inr rfl
      | some entry =>
        have redefined := @redefine_redefined entry.ups line pv
        refine (upto.origin entry (List.mem_of_find?_eq_some there)).imp ?_ fun fresh => redefined.latches.trans fresh
        rintro ⟨before, member, same, name⟩
        exact ⟨before, member, redefined.latches.trans same, redefined.sys.trans name⟩
  case stays =>
    intro entry member retained
    rcases mem_addups member with old | rfl
    · obtain ⟨l, there, named⟩ := upto.stays entry old retained
      exact ⟨l, List.mem_append_left _ there, named⟩
    · exact ⟨line, List.mem_append_right _ (List.mem_singleton.mpr rfl), (entry_sys line pv entries).symm, valid⟩

theorem readUpto_start (upses : List Utype) (now : Int) :
    ReadUpto upses [] (upses.map fun ups => { ups := ups.forget now, retain := false }) := by
  have forgotten (entry : Retained) (member : entry ∈ upses.map fun ups => { ups := ups.forget now, retain := false }) :
      entry.retain = false ∧ ∃ before ∈ upses, entry.ups = before.forget now := by
    obtain ⟨before, there, rfl⟩ := List.mem_map.mp member
    exact ⟨rfl, before, there, rfl⟩
  constructor
  case found =>
    intro sys entry there
    obtain ⟨-, before, -, same⟩ := forgotten entry (List.mem_of_find?_eq_some there)
    rw [same]
    exact ⟨fun _ _ => rfl, rfl⟩
  case missing => exact fun _ _ => rfl
  case apart =>
    refine List.pairwise_of_forall_mem_list fun a _ b member retained => ?_
    rw [(forgotten b member).1] at retained
    cases retained
  case origin =>
    intro entry member
    obtain ⟨-, before, there, same⟩ := forgotten entry member
    rw [same]
    exact .inl ⟨before, there, rfl, rfl⟩
  case stays =>
    intro entry member retained
    rw [(forgotten entry member).1] at retained
    cases retained

theorem readUpto_lines {upses : List Utype} {read : List Retained × UInt32} (more : List MonitorLine)
    (upto : ReadUpto upses lines read.1) : ReadUpto upses (lines ++ more) (more.foldl readMonitor read).1 := by
  induction more generalizing lines read with
  | nil => rwa [List.append_nil]
  | cons line more ih =>
    have next : ReadUpto upses (lines ++ [line]) (readMonitor read line).1 := by
      unfold readMonitor
      cases value : line.pv with
      | some pv => exact readUpto_line upto value
      | none =>
        have skipped (sys : CString) : roleRead (lines ++ [line]) sys = roleRead lines sys := by
          rw [roleRead_append, if_neg (by simp [value])]
        refine ⟨fun sys entry there => ?_, fun sys there => ?_, upto.apart, upto.origin, fun entry member retained => ?_⟩
        · rw [skipped]
          exact upto.found sys entry there
        · rw [skipped]
          exact upto.missing sys there
        · obtain ⟨l, there, named⟩ := upto.stays entry member retained
          exact ⟨l, List.mem_append_left _ there, named⟩
    have whole := ih next
    rwa [List.append_assoc] at whole

theorem reloadConf_upses {minsupplies : UInt32} {lines : Option (List MonitorLine)} {upses result : List Utype} {now : Int}
    (reloaded : reloadConf minsupplies lines (upses.map (Utype.forget now)) = some result) {ups : Utype} (member : ups ∈ result) :
    Descends upses lines ups ∧ ups.status .primary = (lines.bind fun lines => roleRead lines ups.sys).getD false := by
  cases lines with
  | none =>
    cases reloaded
    obtain ⟨before, there, rfl⟩ := List.mem_map.mp member
    exact ⟨⟨fun _ _ => rfl, fun _ none_ => (by cases none_), .inl ⟨before, there, rfl, rfl⟩⟩, rfl⟩
  | some lines =>
    have start : ReadUpto upses [] ((upses.map (Utype.forget now)).map fun ups => { ups, retain := false }) := by
      rw [List.map_map]
      exact readUpto_start upses now
    have upto := @readUpto_lines [] upses ((upses.map (Utype.forget now)).map fun ups => { ups, retain := false }, 0) lines start
    rw [List.nil_append] at upto
    unfold reloadConf at reloaded
    dsimp only at reloaded
    split_ifs at reloaded
    cases reloaded
    obtain ⟨entry, kept, rfl⟩ := List.mem_map.mp member
    obtain ⟨there, retained⟩ := List.mem_filter.mp kept
    obtain ⟨unflagged, role⟩ := upto.found _ _ (findEntry_retained upto.apart there retained)
    refine ⟨⟨unflagged, fun read is => ?_, upto.origin entry there⟩, role⟩
    cases is
    exact upto.stays entry there retained

end Reload

end Nut
