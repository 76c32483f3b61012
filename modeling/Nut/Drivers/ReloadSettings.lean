import Nut.Common.StateMap
import Nut.Drivers.Main
import Nut.Library.Checked

set_option autoImplicit false

namespace Nut.Main

inductive Kind where
  | parameter
  | chroot
  | user
  | group
  | port
  | driver
  | other
  deriving DecidableEq

def mainFlags : List CString :=
  [cstr "nolock", cstr "ignorelb", cstr "allow_killpower"]

def mainNames : List CString :=
  [cstr "sddelay", cstr "pollinterval", cstr "synchronous", cstr "sdorder", cstr "maxstartdelay", cstr "maxretry",
    cstr "retrydelay", cstr "desc", cstr "sdcommands", cstr "LIBUSB_DEBUG"]

def Call.kind (site : Site) (call : Call) : Kind :=
  match call.confupsname with
  | none =>
    if call.val = none then .other
    else if call.var = cstr "chroot" then .chroot
    else if call.var = cstr "user" then .user
    else if call.var = cstr "group" then .group
    else .other
  | some confupsname =>
    if confupsname ≠ site.upsname ∨ call.var ∈ mainFlags then .other
    else if call.val = none then .parameter
    else if call.var = cstr "port" then .port
    else if call.var = cstr "user" then .user
    else if call.var = cstr "group" then .group
    else if call.var = cstr "driver" then .driver
    else if call.var ∈ mainNames ∨ strcasecmp call.var (cstr "debug_min") = .eq then .other
    else .parameter

structure Settings where
  vartab : List Vartab
  user : Option CString
  group : Option CString
  chrootPath : Option CString
  devicePath : Option CString
  portInfo : Option CString
  prognames : List CString

def portName : CString := cstr "driver.parameter.port"

def Driver.settings (st : Driver) : Settings :=
  { vartab := st.vartab, user := st.user, group := st.group, chrootPath := st.chrootPath, devicePath := st.devicePath,
    portInfo := st.getinfo portName, prognames := st.prognames }

def shown (val : CString) : CString :=
  valEscape (snprintf stMaxValueLen val)

inductive Verdict where
  -- there already
  | same
  | apply
  | refuse
  -- refused, and a restart is asked for
  | complain
  deriving DecidableEq

section Machine

variable (reload : Bool)

def overlaps (tmp : Vartab) : Bool :=
  varValue &&& tmp.vartype ≠ 0

def Vartab.mayChange (tmp : Vartab) : Bool :=
  !reload || tmp.reloadable

def Vartab.verdict (val : Option CString) (tmp : Vartab) : Except Stop Verdict :=
  match val, tmp.val with
  | some val, .text old =>
    .ok (if overlaps tmp ∧ strcasecmp old val = .eq then .same else if tmp.mayChange reload then .apply else .complain)
  | some _, .freed =>
    if overlaps tmp then .error .freed else .ok (if tmp.mayChange reload then .apply else .complain)
  | _, _ => .ok (if tmp.mayChange reload || !tmp.found then .apply else .refuse)

def Vartab.line (val : Option CString) (tmp : Vartab) : Except Stop Vartab := do
  let verdict <- tmp.verdict reload val
  if verdict = .apply then do
    let stored <- tmp.val.replace val
    pure { tmp with val := stored, found := true }
  else pure tmp

def textLine (fromCmdline : Bool) (old : Option CString) (val : CString) : Option CString :=
  match old with
  | none => if fromCmdline then none else some val
  | some old => if strcasecmp old val = .eq ∨ reload = true ∨ fromCmdline = true then some old else some val

variable (site : Site)

def Settings.parameterLine (s : Settings) (var : CString) (val : Option CString) : Except Stop Settings :=
  match s.vartab.find? (·.named var) with
  | none => .error .exit
  | some tmp => do
    let after <- tmp.line reload val
    pure { s with vartab := editVartab var (fun _ => after) s.vartab }

def Settings.line (s : Settings) (call : Call) : Except Stop Settings :=
  match call.kind site, call.val with
  | .parameter, val => s.parameterLine reload call.var val
  | .chroot, some val => .ok { s with chrootPath := textLine reload false s.chrootPath val }
  | .user, some val => .ok { s with user := textLine reload site.userFromCmdline s.user val }
  | .group, some val => .ok { s with group := textLine reload site.groupFromCmdline s.group val }
  | .port, some val =>
    .ok (if reload && s.portInfo.isSome then s else { s with devicePath := some val, portInfo := some (shown val) })
  | _, _ => .ok s

def TextComplains (old : Option CString) (val : CString) : Prop :=
  ∃ old_ ∈ old, strcasecmp old_ val ≠ .eq

def Settings.Complains (s : Settings) (call : Call) : Prop :=
  match call.kind site, call.val with
  | .parameter, val => ∃ tmp ∈ s.vartab.find? (·.named call.var), tmp.verdict true val = .ok .complain
  | .chroot, some val => TextComplains s.chrootPath val
  | .user, some val => TextComplains s.user val
  | .group, some val => TextComplains s.group val
  | .port, some val => TextComplains s.portInfo val
  | .driver, some val => TextComplains s.prognames.head? val
  | _, _ => False

end Machine

section Steps

variable {st after : Driver}

@[simp] theorem finish_fst (verdict : Int) (st : Driver) : (st.finish verdict).1 = verdict := by
  unfold Driver.finish
  split <;> rfl

@[simp] theorem finish_settings (verdict : Int) (st : Driver) : (st.finish verdict).2.settings = st.settings := by
  unfold Driver.finish
  split <;> rfl

@[simp] theorem finish_dstate (verdict : Int) (st : Driver) : (st.finish verdict).2.dstate = st.dstate := by
  unfold Driver.finish
  split <;> rfl

@[simp] theorem finish_restart (verdict : Int) (st : Driver) :
    1 ≤ (st.finish verdict).2.reloadRequiresRestart ↔ 1 ≤ st.reloadRequiresRestart := by
  unfold Driver.finish
  split
  · next low =>
    dsimp only
    omega
  · rfl

-- The tree can be searched and written.
structure Ready (st : Driver) : Prop where
  ordered : Ordered st.dstate.dtreeRoot
  mutable : Mutable st.dstate.dtreeRoot
  installed : ∀ progname ∈ st.prognames, ¬ (cstr "lt-").isPrefixOf progname
  separate : ∀ tmp ∈ st.vartab, ¬ tmp.named (cstr "port")

theorem Ready.setinfo (ready : Ready st) (var text : CString) :
    Ready (st.setinfo var text) ∧ ∀ name, (st.setinfo var text).getinfo name =
      if strcasecmp var name = .eq then some (shown text) else st.getinfo name := by
  have applied : (st.setinfo var text).dstate.dtreeRoot =
      ((StateOp.setinfo var (snprintf stMaxValueLen text)).apply 0 st.dstate.dtreeRoot).1 := rfl
  refine ⟨⟨?_, ?_, ready.installed, ready.separate⟩, ?_⟩
  · rw [applied]
    exact StateOp.ordered_apply _ _ ready.ordered
  · rw [applied]
    exact StateOp.mutable_apply _ _ ready.ordered ready.mutable
  · intro name
    obtain ⟨others, _, node, found, _, val, _⟩ :=
      mapStep_apply (StateOp.setinfo var (snprintf stMaxValueLen text)) 0 ready.ordered ready.mutable
    unfold Driver.getinfo stateGetinfo
    rw [applied]
    split
    · next same =>
      rw [<- stateTreeFind_congr same, found, Option.map_some, val, shown]
    · next apart =>
      rw [others name apart]

theorem find_editVartab {edit : Vartab -> Vartab} (keeps : ∀ tmp, (edit tmp).var = tmp.var) (var name : CString)
    (vartab : List Vartab) : (editVartab var edit vartab).find? (·.named name) =
      if strcasecmp var name = .eq then (vartab.find? (·.named name)).map edit else vartab.find? (·.named name) := by
  have congr_ (same : strcasecmp var name = .eq) (tmp : Vartab) : tmp.named var = tmp.named name := by
    rw [strcasecmp_eq_iff] at same
    simp only [Vartab.named, strcasecmp_eq_iff, same]
  induction vartab with
  | nil => simp [editVartab]
  | cons tmp vartab ih =>
    have kept : (edit tmp).named name = tmp.named name := by rw [Vartab.named, Vartab.named, keeps]
    rw [editVartab]
    by_cases same : strcasecmp var name = .eq
    · rw [if_pos same] at ih ⊢
      rw [congr_ same]
      by_cases named : tmp.named name = true
      · rw [if_pos named, List.find?_cons_of_pos (kept.trans named), List.find?_cons_of_pos named]
        rfl
      · rw [if_neg named, List.find?_cons_of_neg named, List.find?_cons_of_neg named]
        exact ih
    · rw [if_neg same] at ih ⊢
      by_cases first : tmp.named var = true
      · have apart : ¬ tmp.named name = true := by
          intro named
          simp only [Vartab.named, decide_eq_true_eq, strcasecmp_eq_iff] at first named same
          exact same (first.symm.trans named)
        rw [if_pos first, List.find?_cons_of_neg (by rw [kept]; exact apart), List.find?_cons_of_neg apart]
      · rw [if_neg first]
        by_cases named : tmp.named name = true
        · rw [List.find?_cons_of_pos named, List.find?_cons_of_pos named]
        · rw [List.find?_cons_of_neg named, List.find?_cons_of_neg named]
          exact ih

def Verdict.result (st : Driver) : Verdict -> Int × Driver
  | .same => st.finish (-1)
  | .apply => st.finish 1
  | .refuse => st.finish 0
  | .complain => st.differs false

theorem testvarReloadable_found (reload : Bool) {var : CString} {val : Option CString} {tmp : Vartab}
    (found : st.vartab.find? (·.named var) = some tmp) :
    testvarReloadable reload var val (if val = none then varFlag else varValue) st =
      (tmp.verdict reload val).map (Verdict.result st) := by
  unfold testvarReloadable Vartab.verdict
  rw [found]
  have differs (may : Bool) : st.differs may = Verdict.result st (if may then .apply else .complain) := by
    cases may <;> rfl
  have finish (may : Bool) : st.finish (if may then 1 else 0) = Verdict.result st (if may then .apply else .refuse) := by
    cases may <;> rfl
  have order : (!reload || !tmp.found || tmp.reloadable) = (tmp.mayChange reload || !tmp.found) := by
    unfold Vartab.mayChange
    cases reload <;> cases tmp.found <;> cases tmp.reloadable <;> rfl
  dsimp only
  rw [order, finish, differs]
  unfold overlaps
  cases val with
  | none => cases tmp.val <;> rfl
  | some val =>
    rw [if_neg (Option.some_ne_none val)]
    cases tmp.val with
    | null => rfl
    | text old =>
      dsimp only
      by_cases same : varValue &&& tmp.vartype ≠ 0 ∧ strcasecmp old val = .eq
      · simp only [decide_eq_true_eq, if_pos same]
        rfl
      · simp only [decide_eq_true_eq, if_neg same]
        rfl
    | freed =>
      dsimp only
      by_cases over_ : varValue &&& tmp.vartype ≠ 0
      · simp only [decide_eq_true_eq, if_pos over_]
        rfl
      · simp only [decide_eq_true_eq, if_neg over_]
        rfl

theorem testvalReloadable_result (reload : Bool) (oldval newval : Option CString) (mayChange : Bool) (st : Driver) :
    let result := testvalReloadable reload oldval newval mayChange st
    result.2.settings = st.settings ∧ result.2.dstate = st.dstate ∧
      (1 ≤ result.2.reloadRequiresRestart ↔ 1 ≤ st.reloadRequiresRestart ∨
        ((!reload || mayChange) = false ∧ ∃ val ∈ newval, TextComplains oldval val)) ∧
      (∀ val ∈ newval, 0 < result.1 ↔ oldval = none ∨ ((!reload || mayChange) = true ∧ TextComplains oldval val)) := by
  unfold testvalReloadable TextComplains
  cases oldval with
  | none => simp
  | some oldval =>
    cases newval with
    | none => simp
    | some newval =>
      dsimp only
      split
      · next same => simp [same]
      · next apart =>
        cases may : (!reload || mayChange) with
        | true => simp [Driver.differs, apart]
        | false =>
          have counted : 1 ≤ if st.reloadRequiresRestart < 1 then 1 else st.reloadRequiresRestart + 1 := by split <;> omega
          simp [Driver.differs, apart, Driver.settings, Driver.getinfo, counted]

structure Changed (st after : Driver) (settings : Settings) (restart : Prop) : Prop where
  settings : after.settings = settings
  ready : Ready st -> Ready after
  restart : 1 ≤ after.reloadRequiresRestart ↔ 1 ≤ st.reloadRequiresRestart ∨ restart

theorem Ready.of (ready : Ready st) (dstate : after.dstate = st.dstate) (prognames : after.prognames = st.prognames)
    (vartab : after.vartab = st.vartab) : Ready after :=
  ⟨dstate ▸ ready.ordered, dstate ▸ ready.mutable, prognames ▸ ready.installed, vartab ▸ ready.separate⟩

theorem checked_ready {reload mayChange : Bool} {oldval newval : Option CString} (ready : Ready st) :
    Ready (testvalReloadable reload oldval newval mayChange st).2 := by
  obtain ⟨settings, dstate, _, _⟩ := testvalReloadable_result reload oldval newval mayChange st
  exact ready.of dstate (congrArg Settings.prognames settings) (congrArg Settings.vartab settings)

theorem mainUser_changed {reload fromCmdline : Bool} {old : Driver -> Option CString} {store : CString -> Driver -> Driver}
    {place : Option CString -> Settings -> Settings} (kept : place (old st) st.settings = st.settings)
    (stored : ∀ val st, (store val st).settings = place (some val) st.settings ∧ (Ready st -> Ready (store val st)) ∧
      (store val st).reloadRequiresRestart = st.reloadRequiresRestart)
    {val : Option CString} (done : mainUser reload fromCmdline old store val st = .ok after) :
    Changed st after (match val with
        | some val => place (textLine reload fromCmdline (old st) val) st.settings
        | none => st.settings)
      (reload = true ∧ ∃ text ∈ val, TextComplains (old st) text) := by
  obtain ⟨settings, _, restart, verdict⟩ := testvalReloadable_result reload (old st) val false st
  have ready : Ready st -> Ready (testvalReloadable reload (old st) val false st).2 := checked_ready
  have restart_ : 1 ≤ (testvalReloadable reload (old st) val false st).2.reloadRequiresRestart ↔
      1 ≤ st.reloadRequiresRestart ∨ (reload = true ∧ ∃ text ∈ val, TextComplains (old st) text) := by
    rw [restart]
    simp
  unfold mainUser at done
  dsimp only at done
  split at done
  · next applies =>
    cases val with
    | none => cases done
    | some val =>
      cases done
      obtain ⟨storedSettings, storedReady, storedRestart⟩ := stored val (testvalReloadable reload (old st) (some val) false st).2
      have applied : textLine reload fromCmdline (old st) val = some val := by
        have notCmdline : fromCmdline = false := by simpa using applies.2
        have open_ := (verdict val rfl).mp applies.1
        unfold textLine
        cases text : old st with
        | none => simp [notCmdline]
        | some old_ =>
          rw [text] at open_
          have apart : reload = false ∧ strcasecmp old_ val ≠ .eq := by simpa [TextComplains] using open_
          simp [apart, notCmdline]
      refine ⟨?_, fun before => storedReady (ready before), ?_⟩
      · dsimp only
        rw [applied, storedSettings, settings]
      · rw [storedRestart, restart_]
  · next refused =>
    cases done
    refine ⟨?_, ready, restart_⟩
    cases val with
    | none => exact settings
    | some val =>
      have same : textLine reload fromCmdline (old st) val = old st := by
        unfold textLine
        cases text : old st with
        | none =>
          rw [text] at refused verdict
          simp [(verdict val rfl)] at refused
          simp [refused]
        | some old_ =>
          rw [text] at refused verdict
          rw [verdict val rfl] at refused
          by_cases same : strcasecmp old_ val = .eq
          · simp [same]
          · cases reload <;> cases fromCmdline <;> simp_all [TextComplains]
      dsimp only
      rw [same, kept, settings]

theorem checked_unchanged (reload : Bool) (oldval newval : Option CString) (st : Driver) :
    Changed st (testvalReloadable reload oldval newval true st).2 st.settings False := by
  obtain ⟨settings, _, restart, _⟩ := testvalReloadable_result reload oldval newval true st
  refine ⟨settings, checked_ready, ?_⟩
  rw [restart]
  simp

theorem pollinterval_changed {reload : Bool} {val : Option CString} (done : pollinterval reload val st = .ok after) :
    Changed st after st.settings False := by
  have checked := checked_unchanged reload (some (printInt st.pollInterval.toInt)) val st
  unfold pollinterval at done
  dsimp only at done
  split at done
  · cases done
  · split at done
    · cases val with
      | none => cases done
      | some val =>
        dsimp only at done
        split at done
        · cases done
          exact ⟨checked.settings, fun ready => (checked.ready ready).of rfl rfl rfl, checked.restart⟩
        · cases done
    · cases done
      exact checked

theorem synchronous_changed {reload : Bool} {val : Option CString} (done : synchronous reload val st = .ok after) :
    Changed st after st.settings False := by
  unfold synchronous at done
  dsimp only at done
  generalize (if st.doSynchronous = 1 then cstr "yes" else if st.doSynchronous = 0 then cstr "no" else cstr "auto") = oldval
    at done
  have checked := checked_unchanged reload (some oldval) val st
  split at done
  · cases val with
    | none => cases done
    | some val =>
      cases done
      exact ⟨checked.settings, fun ready => (checked.ready ready).of rfl rfl rfl, checked.restart⟩
  · cases done
    exact checked

theorem setinfo_changed {var text : CString} (other : strcasecmp var portName ≠ .eq) (ready : Ready st) :
    Changed st (st.setinfo var text) st.settings False := by
  refine ⟨?_, fun _ => (ready.setinfo var text).1, by simp [Driver.setinfo]⟩
  have info := (ready.setinfo var text).2 portName
  rw [if_neg other] at info
  rw [Driver.settings, info]
  rfl

theorem Changed.trans {mid : Driver} {settings settings_ : Settings} {restart : Prop} (first : Changed st mid settings restart)
    (second : Changed mid after settings_ False) : Changed st after settings_ restart :=
  ⟨second.settings, fun ready => second.ready (first.ready ready), by rw [second.restart, first.restart, or_false]⟩

theorem Changed.refl (st : Driver) : Changed st st st.settings False := ⟨rfl, id, by simp⟩

end Steps

section Names

theorem foldCase_append (front back : CString) : foldCase (front ++ back) = foldCase front ++ foldCase back :=
  List.map_append

theorem dparam_port {var : CString} (same : strcasecmp (snprintf smallbuf (cstr "driver.parameter." ++ var)) portName = .eq) :
    strcasecmp var (cstr "port") = .eq := by
  rw [strcasecmp_eq_iff] at same ⊢
  have lead : (cstr "driver.parameter.").length = 17 := by decide +kernel
  have port : portName = cstr "driver.parameter." ++ cstr "port" := by decide +kernel
  have cut : snprintf smallbuf (cstr "driver.parameter." ++ var) = cstr "driver.parameter." ++ var.take 494 := by
    rw [snprintf, List.take_append, lead, List.take_of_length_le (by rw [lead]; decide)]
    rfl
  rw [cut, port, foldCase_append, foldCase_append, List.append_cancel_left_eq] at same
  have short : var.length ≤ 494 := by
    have lengths := congrArg List.length same
    rw [foldCase, foldCase, List.length_map, List.length_map, List.length_take,
      show (cstr "port").length = 4 by decide +kernel] at lengths
    omega
  rwa [List.take_of_length_le short] at same

theorem flag_port (var : CString) : strcasecmp (snprintf smallbuf (cstr "driver.flag." ++ var)) portName ≠ .eq := by
  intro same
  rw [strcasecmp_eq_iff] at same
  have heads := congrArg (List.take 8) same
  have front : (foldCase (snprintf smallbuf (cstr "driver.flag." ++ var))).take 8 = cstr "driver.f" := by
    rw [foldCase, <- List.map_take, snprintf, List.take_take, List.take_append_of_le_length (by decide +kernel)]
    decide +kernel
  rw [front] at heads
  exact absurd heads (by decide +kernel)

end Names

section Lines

variable {st after : Driver} {reload : Bool} {site : Site}

theorem editVartab_found {var : CString} {vartab : List Vartab} {tmp : Vartab} (found : vartab.find? (·.named var) = some tmp)
    (edit : Vartab -> Vartab) : editVartab var edit vartab = editVartab var (fun _ => edit tmp) vartab := by
  induction vartab with
  | nil => rfl
  | cons first vartab ih =>
    rw [editVartab, editVartab]
    by_cases named : first.named var = true
    · rw [List.find?_cons_of_pos named, Option.some.injEq] at found
      rw [if_pos named, if_pos named, found]
    · rw [List.find?_cons_of_neg named] at found
      rw [if_neg named, if_neg named, ih found]

theorem editVartab_same {var : CString} {vartab : List Vartab} {tmp : Vartab} (found : vartab.find? (·.named var) = some tmp) :
    editVartab var (fun _ => tmp) vartab = vartab := by
  have kept : editVartab var id vartab = vartab := by
    clear found
    induction vartab with
    | nil => rfl
    | cons first vartab ih =>
      rw [editVartab, ih]
      split <;> rfl
  exact (editVartab_found found id).symm.trans kept

theorem editVartab_names {edit : Vartab -> Vartab} (keeps : ∀ tmp, (edit tmp).var = tmp.var) (var : CString)
    (vartab : List Vartab) : (editVartab var edit vartab).map (·.var) = vartab.map (·.var) := by
  induction vartab with
  | nil => rfl
  | cons first vartab ih =>
    rw [editVartab]
    split
    · rw [List.map_cons, List.map_cons, keeps]
    · rw [List.map_cons, List.map_cons, ih]

def plainName (var : CString) : Bool :=
  !startsWith (cstr "override.") var && !startsWith (cstr "default.") var

theorem dparam_changed {var : CString} (other : strcasecmp var (cstr "port") ≠ .eq) (val : Option CString) (ready : Ready st) :
    Changed st (dparamSetinfo var val st) st.settings False := by
  unfold dparamSetinfo
  cases val with
  | none => exact setinfo_changed (flag_port var) ready
  | some val => exact setinfo_changed (fun same => other (dparam_port same)) ready

theorem not_port {var : CString} {tmp : Vartab} (ready : Ready st) (found : st.vartab.find? (·.named var) = some tmp) :
    strcasecmp var (cstr "port") ≠ .eq := by
  intro same
  have named := List.find?_some found
  apply ready.separate tmp (List.mem_of_find?_eq_some found)
  rw [Vartab.named, decide_eq_true_eq, strcasecmp_eq_iff] at named ⊢
  rw [strcasecmp_eq_iff] at same
  exact named.trans same

theorem storeval_changed {var : CString} {val : Option CString} {tmp : Vartab} (ready : Ready st) (plain : plainName var = true)
    (found : st.vartab.find? (·.named var) = some tmp) (done : storeval var val st = .ok after) :
    ∃ stored, tmp.val.replace val = .ok stored ∧
      Changed st after { st.settings with
        vartab := editVartab var (fun _ => { tmp with val := stored, found := true }) st.vartab } False := by
  simp only [plainName, Bool.and_eq_true, Bool.not_eq_true'] at plain
  unfold storeval at done
  rw [plain.1, plain.2, if_neg (by decide), if_neg (by decide), found] at done
  dsimp only at done
  obtain ⟨stored, replaced, ends⟩ := bind_eq_ok.mp done
  cases ends
  refine ⟨stored, replaced, ?_⟩
  have published : Changed st (if tmp.vartype &&& varSensitive = 0 then dparamSetinfo var val st else st) st.settings False := by
    split
    · exact dparam_changed (not_port ready found) val ready
    · exact Changed.refl st
  have vartab : (if tmp.vartype &&& varSensitive = 0 then dparamSetinfo var val st else st).vartab = st.vartab :=
    congrArg Settings.vartab published.settings
  have kept := @editVartab_names (fun tmp => { tmp with val := stored, found := true }) (fun _ => rfl) var st.vartab
  refine ⟨?_, ?_, published.restart⟩
  · rw [<- editVartab_found found fun tmp => { tmp with val := stored, found := true }, <- published.settings, <- vartab]
    rfl
  · intro before
    have ready_ := published.ready before
    refine { ready_ with separate := ?_ }
    intro entry member named
    dsimp only at member
    rw [vartab] at member
    have inside : entry.var ∈ st.vartab.map (·.var) := by
      rw [<- kept]
      exact List.mem_map_of_mem member
    obtain ⟨old, oldMember, same⟩ := List.mem_map.mp inside
    apply before.separate old oldMember
    rw [Vartab.named, same]
    exact named

theorem parameter_changed {var : CString} {val : Option CString} {next : Int × Driver -> Except Stop Driver} (ready : Ready st)
    (plain : plainName var = true)
    (next_ : ∀ verdict mid, Ready mid -> mid.settings = st.settings -> next (verdict, mid) = .ok after ->
      if 0 < verdict then ∃ start, storeval var val start = .ok after ∧ Changed mid start mid.settings False else after = mid)
    (done : (testvarReloadable reload var val (if val = none then varFlag else varValue) st >>= next) = .ok after) :
    ∃ line, st.settings.parameterLine reload var val = .ok line ∧
      Changed st after line (∃ tmp ∈ st.vartab.find? (·.named var), tmp.verdict reload val = .ok .complain) := by
  have finished (verdict : Int) : Ready (st.finish verdict).2 :=
    ready.of (finish_dstate verdict st) (congrArg Settings.prognames (finish_settings verdict st))
      (congrArg Settings.vartab (finish_settings verdict st))
  have finishes (verdict : Int) : Changed st (st.finish verdict).2 st.settings False :=
    ⟨finish_settings verdict st, fun _ => finished verdict, by simp⟩
  have split_ (verdict : Int) : st.finish verdict = (verdict, (st.finish verdict).2) := by
    exact Prod.ext (finish_fst verdict st) rfl
  cases found : st.vartab.find? (·.named var) with
  | none =>
    have checked : testvarReloadable reload var val (if val = none then varFlag else varValue) st = .ok (st.finish 1) := by
      unfold testvarReloadable
      rw [found]
    rw [checked, split_] at done
    obtain ⟨start, stores, started⟩ := next_ 1 (st.finish 1).2 (finished 1) (finish_settings 1 st) done
    have vartab : start.vartab = st.vartab :=
      (congrArg Settings.vartab started.settings).trans (congrArg Settings.vartab (finish_settings 1 st))
    simp only [plainName, Bool.and_eq_true, Bool.not_eq_true'] at plain
    unfold storeval at stores
    rw [plain.1, plain.2, if_neg (by decide), if_neg (by decide), vartab, found] at stores
    cases stores
  | some tmp =>
    rw [testvarReloadable_found reload found] at done
    obtain ⟨checked, verdicts, rest⟩ := bind_eq_ok.mp done
    unfold Settings.parameterLine
    rw [show st.settings.vartab = st.vartab from rfl, found]
    dsimp only
    cases verdict : tmp.verdict reload val with
    | error stop =>
      rw [verdict] at verdicts
      cases verdicts
    | ok verdict_ =>
      rw [verdict] at verdicts
      cases verdicts
      have line : tmp.line reload val = (if verdict_ = .apply then do
          let stored <- tmp.val.replace val
          pure { tmp with val := stored, found := true }
        else pure tmp) := by
        unfold Vartab.line
        rw [verdict]
        rfl
      rw [line]
      have unchanged {mid : Driver} (restart : Prop) (changed : Changed st mid st.settings restart) (same : after = mid) :
          Changed st after { st.settings with vartab := editVartab var (fun _ => tmp) st.vartab } restart := by
        rw [editVartab_same found, same]
        exact changed
      have quiet (other : verdict_ ≠ .complain) : ¬ ∃ tmp_ ∈ some tmp, tmp_.verdict reload val = .ok .complain := by
        rintro ⟨_, ⟨⟩, same⟩
        rw [verdict] at same
        cases same
        exact other rfl
      cases verdict_ with
      | apply =>
        have result : Verdict.result st .apply = (1, (st.finish 1).2) := split_ 1
        rw [result] at rest
        obtain ⟨start, stores, started⟩ := next_ 1 (st.finish 1).2 (finished 1) (finish_settings 1 st) rest
        have changed := (finishes 1).trans started
        rw [finish_settings] at changed
        have vartab : start.vartab = st.vartab := congrArg Settings.vartab changed.settings
        obtain ⟨stored, replaced, final⟩ :=
          storeval_changed (changed.ready ready) plain (vartab ▸ found : start.vartab.find? (·.named var) = some tmp) stores
        rw [changed.settings, vartab] at final
        refine ⟨_, ?_, ⟨final.settings, (changed.trans final).ready, ?_⟩⟩
        · rw [if_pos rfl, replaced]
          rfl
        · rw [(changed.trans final).restart, or_false, or_iff_left (quiet (by decide))]
      | same =>
        rw [show Verdict.result st .same = (-1, (st.finish (-1)).2) from split_ (-1)] at rest
        have same := next_ (-1) (st.finish (-1)).2 (finished (-1)) (finish_settings (-1) st) rest
        have changed := unchanged False (finishes (-1)) same
        refine ⟨_, rfl, changed.settings, changed.ready, ?_⟩
        rw [changed.restart, or_false, or_iff_left (quiet (by decide))]
      | refuse =>
        rw [show Verdict.result st .refuse = (0, (st.finish 0).2) from split_ 0] at rest
        have same := next_ 0 (st.finish 0).2 (finished 0) (finish_settings 0 st) rest
        have changed := unchanged False (finishes 0) same
        refine ⟨_, rfl, changed.settings, changed.ready, ?_⟩
        rw [changed.restart, or_false, or_iff_left (quiet (by decide))]
      | complain =>
        have ready_ : Ready (st.differs false).2 := ready.of rfl rfl rfl
        have same := next_ 0 (st.differs false).2 ready_ rfl rest
        have counted : 1 ≤ (st.differs false).2.reloadRequiresRestart := by
          rw [Driver.differs, if_neg (by decide)]
          dsimp only
          split <;> omega
        have changed := @unchanged (st.differs false).2 True ⟨rfl, fun _ => ready_, by simp [counted]⟩ same
        refine ⟨_, rfl, changed.settings, changed.ready, ?_⟩
        rw [changed.restart]
        simp [verdict]

theorem testDriver_changed (oldval newval : CString) (names : List CString) (verdict : Int) (st : Driver) :
    Changed st (testDriver reload oldval newval names (verdict, st)).2 st.settings
      (reload = true ∧ names ≠ [] ∧ strcasecmp oldval newval ≠ .eq) := by
  induction names generalizing verdict st with
  | nil =>
    refine ⟨rfl, id, ?_⟩
    simp [testDriver]
  | cons name names ih =>
    obtain ⟨settings, dstate, restart, _⟩ := testvalReloadable_result reload (some oldval) (some newval) false st
    have ready : Ready st -> Ready (testvalReloadable reload (some oldval) (some newval) false st).2 := checked_ready
    have complains : (∃ val ∈ some newval, TextComplains (some oldval) val) ↔ strcasecmp oldval newval ≠ .eq := by
      simp [TextComplains]
    have first : 1 ≤ (testvalReloadable reload (some oldval) (some newval) false st).2.reloadRequiresRestart ↔
        1 ≤ st.reloadRequiresRestart ∨ (reload = true ∧ strcasecmp oldval newval ≠ .eq) := by
      rw [restart, complains]
      simp
    unfold testDriver
    dsimp only
    split
    · refine ⟨settings, ready, ?_⟩
      rw [first]
      simp
    · obtain ⟨settings_, ready_, restart_⟩ := ih (testvalReloadable reload (some oldval) (some newval) false st).1
        (testvalReloadable reload (some oldval) (some newval) false st).2
      refine ⟨settings_.trans settings, fun before => ready_ (ready before), ?_⟩
      -- The names behind the first one ask for nothing that it has not asked for.
      have behind : (reload = true ∧ strcasecmp oldval newval ≠ .eq) ∨
          (reload = true ∧ names ≠ [] ∧ strcasecmp oldval newval ≠ .eq) ↔
            reload = true ∧ name :: names ≠ [] ∧ strcasecmp oldval newval ≠ .eq := by
        constructor
        · rintro (⟨on, differs⟩ | ⟨on, _, differs⟩)
          · exact ⟨on, List.cons_ne_nil _ _, differs⟩
          · exact ⟨on, List.cons_ne_nil _ _, differs⟩
        · rintro ⟨on, _, differs⟩
          exact Or.inl ⟨on, differs⟩
      rw [restart_, first, or_assoc, behind]

theorem driverLine_changed {val : CString} (ready : Ready st) (done : driverLine reload val st = .ok after) :
    Changed st after st.settings (reload = true ∧ TextComplains st.prognames.head? val) := by
  have checked := @testDriver_changed reload (st.prognames.headD []) val st.prognames (-2) st
  have complains : (st.prognames ≠ [] ∧ strcasecmp (st.prognames.headD []) val ≠ .eq) ↔ TextComplains st.prognames.head? val := by
    cases st.prognames <;> simp [TextComplains]
  rw [complains] at checked
  unfold driverLine at done
  dsimp only at done
  split at done
  · cases done
    exact checked
  · split at done
    · cases done
      have names : (testDriver reload (st.prognames.headD []) val st.prognames (-2, st)).2.prognames = st.prognames :=
        congrArg Settings.prognames checked.settings
      have same (handle : Int) : (st.prognames.map fun progname =>
          if (!reload || decide (0 < handle)) && (cstr "lt-").isPrefixOf progname && decide (val = progname.drop 3) then
            progname.drop 3
          else progname) = st.prognames := by
        refine (List.map_congr_left fun progname member => ?_).trans (List.map_id _)
        have plain : (cstr "lt-").isPrefixOf progname = false := by
          rw [<- Bool.not_eq_true]
          exact ready.installed progname member
        simp [plain]
      refine ⟨?_, fun before => ?_, checked.restart⟩
      · rw [<- checked.settings]
        unfold Driver.settings
        dsimp only
        rw [names, same]
        rfl
      · refine (checked.ready before).of rfl ?_ rfl
        dsimp only
        rw [names, same]
    · cases done

theorem port_changed {text : CString} (ready : Ready st) :
    let result := testinfoReloadable reload portName (some text) false st
    Changed st (if 0 < result.1 then { result.2 with devicePath := some text }.setinfo portName text else result.2)
      (if reload && st.settings.portInfo.isSome then st.settings
        else { st.settings with devicePath := some text, portInfo := some (shown text) })
      (reload = true ∧ TextComplains st.settings.portInfo text) := by
  have store {mid : Driver} (ready_ : Ready mid) (settings : mid.settings = st.settings) :
      ({ mid with devicePath := some text }.setinfo portName text).settings =
        { st.settings with devicePath := some text, portInfo := some (shown text) } ∧
        Ready ({ mid with devicePath := some text }.setinfo portName text) := by
    have opened : Ready { mid with devicePath := some text } := ready_.of rfl rfl rfl
    have info := (opened.setinfo portName text).2 portName
    rw [if_pos (strcasecmp_self portName)] at info
    refine ⟨?_, (opened.setinfo portName text).1⟩
    rw [<- settings, Driver.settings, info]
    rfl
  dsimp only
  unfold testinfoReloadable
  cases reload with
  | false =>
    obtain ⟨settings, ready_⟩ := store ready rfl
    refine ⟨settings, fun _ => ready_, ?_⟩
    simp [Driver.setinfo]
  | true =>
    rw [if_pos rfl, Bool.true_and]
    obtain ⟨settings, dstate, restart, verdict⟩ := testvalReloadable_result true (st.getinfo portName) (some text) false st
    have ready_ := @checked_ready st true false (st.getinfo portName) (some text) ready
    have applies := verdict text rfl
    simp only [Bool.not_true, Bool.or_false, Bool.false_eq_true, false_and, or_false] at applies
    have asks : 1 ≤ (testvalReloadable true (st.getinfo portName) (some text) false st).2.reloadRequiresRestart ↔
        1 ≤ st.reloadRequiresRestart ∨ (true = true ∧ TextComplains st.settings.portInfo text) := by
      rw [restart]
      simp [Driver.settings]
    split
    · next stores =>
      obtain ⟨settings_, stored⟩ := store ready_ settings
      have absent : st.settings.portInfo = none := applies.mp stores
      refine ⟨?_, fun _ => stored, asks⟩
      rw [settings_, absent]
      rfl
    · next refused =>
      have present : st.settings.portInfo ≠ none := fun absent => refused (applies.mpr absent)
      refine ⟨?_, fun _ => ready_, asks⟩
      rw [if_pos (Option.isSome_iff_ne_none.mpr present)]
      exact settings

theorem sdcommands_changed {text : CString} (ready : Ready st) :
    let result := testinfoReloadable reload (cstr "driver.parameter.sdcommands") (some text) true st
    Changed st (if 0 < result.1 then { result.2 with sdcommands := some text }.setinfo (cstr "driver.parameter.sdcommands") text
      else result.2) st.settings False := by
  have checked : Changed st (testinfoReloadable reload (cstr "driver.parameter.sdcommands") (some text) true st).2 st.settings
      False := by
    unfold testinfoReloadable
    split
    · exact checked_unchanged reload _ _ st
    · exact Changed.refl st
  dsimp only
  split
  · have opened : Changed st { (testinfoReloadable reload (cstr "driver.parameter.sdcommands") (some text) true st).2 with
        sdcommands := some text } st.settings False :=
      ⟨checked.settings, fun before => (checked.ready before).of rfl rfl rfl, checked.restart⟩
    have apart : strcasecmp (cstr "driver.parameter.sdcommands") portName ≠ .eq := by decide +kernel
    have written := @setinfo_changed _ _ text apart (opened.ready ready)
    rw [opened.settings] at written
    exact opened.trans written
  · exact checked

def Follows (reload : Bool) (site : Site) (call : Call) (st after : Driver) : Prop :=
  ∃ line, st.settings.line reload site call = .ok line ∧
    Changed st after line (reload = true ∧ st.settings.Complains site call)

variable {call : Call}

theorem Changed.other (changed : Changed st after st.settings False) (other : call.kind site = .other) :
    Follows reload site call st after := by
  refine ⟨st.settings, ?_, changed.settings, changed.ready, ?_⟩
  · rw [Settings.line, other]
  · rw [changed.restart, Settings.Complains, other]
    simp

theorem kind_ours (ours : call.confupsname = some site.upsname) (notFlag : call.var ∉ mainFlags) :
    call.kind site = if call.val = none then .parameter
      else if call.var = cstr "port" then .port
      else if call.var = cstr "user" then .user
      else if call.var = cstr "group" then .group
      else if call.var = cstr "driver" then .driver
      else if call.var ∈ mainNames ∨ strcasecmp call.var (cstr "debug_min") = .eq then .other
      else .parameter := by
  rw [Call.kind, ours]
  simp [notFlag]

theorem kind_flag (ours : call.confupsname = some site.upsname) (flag : call.var ∈ mainFlags) : call.kind site = .other := by
  rw [Call.kind, ours]
  simp [flag]

theorem user_follows (kind : call.kind site = .user) (some_ : call.val ≠ none)
    (done : mainUser reload site.userFromCmdline (·.user) (fun user st => { st with user := some user }) call.val st = .ok after) :
    Follows reload site call st after := by
  obtain ⟨text, same⟩ := Option.ne_none_iff_exists'.mp some_
  rw [same] at done
  have changed := @mainUser_changed st after reload site.userFromCmdline (·.user) (fun user st => { st with user := some user })
    (fun user settings => { settings with user }) rfl (fun _ _ => ⟨rfl, fun ready => ready.of rfl rfl rfl, rfl⟩) (some text) done
  refine ⟨_, ?_, changed.settings, changed.ready, ?_⟩
  · rw [Settings.line, kind, same]
    rfl
  · rw [changed.restart, Settings.Complains, kind, same]
    simp [Driver.settings]

theorem group_follows (kind : call.kind site = .group) (some_ : call.val ≠ none)
    (done : mainUser reload site.groupFromCmdline (·.group) (fun group st => { st with group := some group }) call.val st = .ok after) :
    Follows reload site call st after := by
  obtain ⟨text, same⟩ := Option.ne_none_iff_exists'.mp some_
  rw [same] at done
  have changed := @mainUser_changed st after reload site.groupFromCmdline (·.group) (fun group st => { st with group := some group })
    (fun group settings => { settings with group }) rfl (fun _ _ => ⟨rfl, fun ready => ready.of rfl rfl rfl, rfl⟩) (some text) done
  refine ⟨_, ?_, changed.settings, changed.ready, ?_⟩
  · rw [Settings.line, kind, same]
    rfl
  · rw [changed.restart, Settings.Complains, kind, same]
    simp [Driver.settings]

theorem chroot_follows (kind : call.kind site = .chroot) (some_ : call.val ≠ none)
    (done : mainUser reload false (·.chrootPath) (fun chrootPath st => { st with chrootPath := some chrootPath }) call.val st = .ok after) :
    Follows reload site call st after := by
  obtain ⟨text, same⟩ := Option.ne_none_iff_exists'.mp some_
  rw [same] at done
  have changed := @mainUser_changed st after reload false (·.chrootPath) (fun chrootPath st => { st with chrootPath := some chrootPath })
    (fun chrootPath settings => { settings with chrootPath }) rfl (fun _ _ => ⟨rfl, fun ready => ready.of rfl rfl rfl, rfl⟩) (some text) done
  refine ⟨_, ?_, changed.settings, changed.ready, ?_⟩
  · rw [Settings.line, kind, same]
    rfl
  · rw [changed.restart, Settings.Complains, kind, same]
    simp [Driver.settings]

theorem main_bare {fromCmdline : Bool} {old : Driver -> Option CString} {store : CString -> Driver -> Driver}
    (kind : call.kind site = .other) (done : mainUser reload fromCmdline old store none st = .ok after) :
    Follows reload site call st after := by
  obtain ⟨settings, _, restart, _⟩ := testvalReloadable_result reload (old st) none false st
  have ready : Ready st -> Ready (testvalReloadable reload (old st) none false st).2 := checked_ready
  unfold mainUser at done
  dsimp only at done
  split at done
  · cases done
  · cases done
    refine Changed.other ⟨settings, ready, ?_⟩ kind
    rw [restart]
    simp

theorem doGlobalArgs_follows (global : call.confupsname = none) (done : doGlobalArgs reload site call.var call.val st = .ok after) :
    Follows reload site call st after := by
  have kind : call.kind site = if call.val = none then .other
      else if call.var = cstr "chroot" then .chroot
      else if call.var = cstr "user" then .user
      else if call.var = cstr "group" then .group
      else .other := by rw [Call.kind, global]
  unfold doGlobalArgs at done
  split at done
  · next is =>
    refine (pollinterval_changed done).other ?_
    rw [kind, is]
    cases call.val <;> rfl
  · split at done
    · next is =>
      rw [if_pos is] at kind
      cases val : call.val with
      | none =>
        rw [val] at done kind
        exact main_bare kind done
      | some text => exact chroot_follows (kind.trans (by simp [val])) (by simp [val]) done
    · next notChroot =>
      rw [if_neg notChroot] at kind
      split at done
      · next is =>
        rw [if_pos is] at kind
        cases val : call.val with
        | none =>
          rw [val] at done kind
          exact main_bare kind done
        | some text => exact user_follows (kind.trans (by simp [val])) (by simp [val]) done
      · next notUser =>
        rw [if_neg notUser] at kind
        split at done
        · next is =>
          rw [if_pos is] at kind
          cases val : call.val with
          | none =>
            rw [val] at done kind
            exact main_bare kind done
          | some text => exact group_follows (kind.trans (by simp [val])) (by simp [val]) done
        · next notGroup =>
          rw [if_neg notGroup, ite_self] at kind
          split at done
          · exact (synchronous_changed done).other kind
          · cases done
            exact (Changed.refl st).other kind

theorem flag_changed {var text : CString} (other : strcasecmp var portName ≠ .eq) (ready : Ready st) :
    Changed st (if reload then st else st.setinfo var text) st.settings False := by
  split
  · exact Changed.refl st
  · exact setinfo_changed other ready

theorem mainArg_follows (ready : Ready st) (ours : call.confupsname = some site.upsname) {mid : Driver} {handled : Bool}
    (done : mainArg reload site call.var call.val st = .ok (mid, handled)) :
    (handled = true ∧ Follows reload site call st mid) ∨ (handled = false ∧ mid = st ∧ call.var ∉ mainFlags ∧
      (call.val ≠ none -> call.kind site = if call.var = cstr "driver" then .driver else .parameter)) := by
  unfold mainArg at done
  by_cases isNolock : call.var = cstr "nolock"
  · rw [if_pos isNolock] at done
    cases done
    exact .inl ⟨rfl, (flag_changed (by decide +kernel) ready).other (kind_flag ours (by simp [isNolock, mainFlags]))⟩
  rw [if_neg isNolock] at done
  by_cases isIgnorelb : call.var = cstr "ignorelb"
  · rw [if_pos isIgnorelb] at done
    cases done
    exact .inl ⟨rfl, (flag_changed (by decide +kernel) ready).other (kind_flag ours (by simp [isIgnorelb, mainFlags]))⟩
  rw [if_neg isIgnorelb] at done
  by_cases isKillpower : call.var = cstr "allow_killpower"
  · rw [if_pos isKillpower] at done
    cases done
    exact .inl ⟨rfl, (flag_changed (by decide +kernel) ready).other (kind_flag ours (by simp [isKillpower, mainFlags]))⟩
  rw [if_neg isKillpower] at done
  have notFlag : call.var ∉ mainFlags := by simp [mainFlags, isNolock, isIgnorelb, isKillpower]
  have kind := kind_ours ours notFlag
  cases val : call.val with
  | none =>
    rw [val] at done
    cases done
    exact .inr ⟨rfl, rfl, notFlag, fun some_ => absurd rfl some_⟩
  | some text =>
    rw [val] at done kind
    rw [if_neg (Option.some_ne_none text)] at kind
    dsimp only at done
    by_cases isPort : call.var = cstr "port"
    · rw [if_pos isPort] at done kind
      cases done
      have changed := @port_changed st reload text ready
      refine .inl ⟨rfl, _, ?_, changed.settings, changed.ready, changed.restart.trans ?_⟩
      · rw [Settings.line, kind, val]
      · rw [Settings.Complains, kind, val]
    rw [if_neg isPort] at done kind
    by_cases isUser : call.var = cstr "user"
    · rw [if_pos isUser] at done kind
      obtain ⟨next, read, ends⟩ := bind_eq_ok.mp done
      cases ends
      exact .inl ⟨rfl, user_follows kind (by simp [val]) (val ▸ read)⟩
    rw [if_neg isUser] at done kind
    by_cases isGroup : call.var = cstr "group"
    · rw [if_pos isGroup] at done kind
      obtain ⟨next, read, ends⟩ := bind_eq_ok.mp done
      cases ends
      exact .inl ⟨rfl, group_follows kind (by simp [val]) (val ▸ read)⟩
    rw [if_neg isGroup] at done kind
    have fixed (name : CString) (is : call.var = name) (other : (if name = cstr "driver" then Kind.driver
          else if name ∈ mainNames ∨ strcasecmp name (cstr "debug_min") = .eq then .other else .parameter) = .other) :
        call.kind site = .other := kind.trans (is ▸ other)
    by_cases isSddelay : call.var = cstr "sddelay"
    · rw [if_pos isSddelay] at done
      cases done
      exact .inl ⟨rfl, (Changed.refl st).other (fixed _ isSddelay (by decide +kernel))⟩
    rw [if_neg isSddelay] at done
    by_cases isPollinterval : call.var = cstr "pollinterval"
    · rw [if_pos isPollinterval] at done
      obtain ⟨next, read, ends⟩ := bind_eq_ok.mp done
      cases ends
      exact .inl ⟨rfl, (pollinterval_changed read).other (fixed _ isPollinterval (by decide +kernel))⟩
    rw [if_neg isPollinterval] at done
    by_cases isSynchronous : call.var = cstr "synchronous"
    · rw [if_pos isSynchronous] at done
      obtain ⟨next, read, ends⟩ := bind_eq_ok.mp done
      cases ends
      exact .inl ⟨rfl, (synchronous_changed read).other (fixed _ isSynchronous (by decide +kernel))⟩
    rw [if_neg isSynchronous] at done
    by_cases isOther : call.var = cstr "sdorder" ∨ call.var = cstr "maxstartdelay" ∨ call.var = cstr "maxretry" ∨
        call.var = cstr "retrydelay" ∨ call.var = cstr "desc"
    · rw [if_pos isOther] at done
      cases done
      have other : call.kind site = .other := by
        rcases isOther with is | is | is | is | is <;> exact fixed _ is (by decide +kernel)
      exact .inl ⟨rfl, (Changed.refl st).other other⟩
    rw [if_neg isOther] at done
    by_cases isSdcommands : call.var = cstr "sdcommands"
    · rw [if_pos isSdcommands] at done
      cases done
      exact .inl ⟨rfl, (sdcommands_changed ready).other (fixed _ isSdcommands (by decide +kernel))⟩
    rw [if_neg isSdcommands] at done
    by_cases isDebug : strcasecmp call.var (cstr "debug_min") = .eq ∨ call.var = cstr "LIBUSB_DEBUG"
    · rw [if_pos isDebug] at done
      cases done
      have other : call.kind site = .other := by
        rcases isDebug with is | is
        · have notDriver : call.var ≠ cstr "driver" := by
            intro same
            rw [same] at is
            exact absurd is (by decide +kernel)
          rw [kind, if_neg notDriver, if_pos (.inr is)]
        · exact fixed _ is (by decide +kernel)
      exact .inl ⟨rfl, (Changed.refl st).other other⟩
    rw [if_neg isDebug] at done
    cases done
    refine .inr ⟨rfl, rfl, notFlag, fun _ => ?_⟩
    rw [not_or] at isDebug
    have notMain : ¬ (call.var ∈ mainNames ∨ strcasecmp call.var (cstr "debug_min") = .eq) := by
      simp only [not_or] at isOther
      simp [mainNames, isSddelay, isPollinterval, isSynchronous, isOther, isSdcommands, isDebug]
    rw [kind, if_neg notMain]

theorem verdict_start (val : Option CString) (tmp : Vartab) : tmp.verdict false val ≠ .ok .complain := by
  have may : tmp.mayChange false = true := rfl
  unfold Vartab.verdict
  rw [may]
  split
  · split <;> simp
  · split <;> simp
  · simp

theorem parameter_follows (ready : Ready st) (plain : plainName call.var = true) (kind : call.kind site = .parameter)
    {next : Int × Driver -> Except Stop Driver}
    (next_ : ∀ verdict mid, Ready mid -> mid.settings = st.settings -> next (verdict, mid) = .ok after ->
      if 0 < verdict then ∃ start, storeval call.var call.val start = .ok after ∧ Changed mid start mid.settings False
      else after = mid)
    (done : (testvarReloadable reload call.var call.val (if call.val = none then varFlag else varValue) st >>= next) = .ok after) :
    Follows reload site call st after := by
  obtain ⟨line, lined, changed⟩ := parameter_changed ready plain next_ done
  refine ⟨line, ?_, changed.settings, changed.ready, ?_⟩
  · rw [Settings.line, kind]
    exact lined
  · rw [changed.restart, Settings.Complains, kind]
    cases reload with
    | false => simp [verdict_start]
    | true => simp [Driver.settings]

theorem doUpsconfArgs_follows (ready : Ready st) (plain : call.confupsname = some site.upsname -> plainName call.var = true)
    (done : doUpsconfArgs reload site call.confupsname call.var call.val st = .ok after) : Follows reload site call st after := by
  unfold doUpsconfArgs at done
  cases section_ : call.confupsname with
  | none =>
    rw [section_] at done
    exact doGlobalArgs_follows section_ done
  | some confupsname =>
    rw [section_] at done
    dsimp only at done
    by_cases foreign : confupsname ≠ site.upsname
    · rw [if_pos foreign] at done
      cases done
      refine (Changed.refl st).other ?_
      rw [Call.kind, section_]
      simp [foreign]
    · rw [if_neg foreign] at done
      have ours : call.confupsname = some site.upsname := section_.trans (congrArg some (not_not.mp foreign))
      obtain ⟨⟨mid, handled⟩, main, rest⟩ := bind_eq_ok.mp done
      rcases mainArg_follows ready ours main with ⟨rfl, follows⟩ | ⟨rfl, rfl, notFlag, named⟩
      · cases rest
        exact follows
      · dsimp only at rest
        rw [if_neg (by decide)] at rest
        have name := plain ours
        cases val : call.val with
        | none =>
          rw [val] at rest
          have kind : call.kind site = .parameter := by rw [kind_ours ours notFlag, if_pos val]
          refine parameter_follows ready name kind ?_ (by rw [val]; exact rest)
          intro verdict mid ready_ _ stored
          dsimp only at stored
          split
          · next applies =>
            rw [if_pos applies] at stored
            exact ⟨_, val ▸ stored, setinfo_changed (flag_port call.var) ready_⟩
          · next refused =>
            rw [if_neg refused] at stored
            cases stored
            rfl
        | some text =>
          rw [val] at rest named
          have kind := named (Option.some_ne_none text)
          dsimp only at rest
          by_cases isDriver : call.var = cstr "driver"
          · rw [if_pos isDriver] at rest kind
            have changed := driverLine_changed ready rest
            refine ⟨_, ?_, changed.settings, changed.ready, ?_⟩
            · rw [Settings.line, kind]
            · rw [changed.restart, Settings.Complains, kind, val]
              rfl
          · rw [if_neg isDriver] at rest kind
            refine parameter_follows ready name kind ?_ (by rw [val]; exact rest)
            intro verdict mid ready_ _ stored
            dsimp only at stored
            split
            · next applies =>
              rw [if_pos applies] at stored
              exact ⟨mid, val ▸ stored, Changed.refl mid⟩
            · next refused =>
              rw [if_neg refused] at stored
              cases stored
              rfl

theorem replace_freed {tmp : Stored} {val : Option CString} (stops : tmp.replace val = .error .freed) : tmp = .freed := by
  unfold Stored.replace at stops
  split at stops <;> first | rfl | cases stops

theorem mainUser_stops {fromCmdline : Bool} {old : Driver -> Option CString} {store : CString -> Driver -> Driver}
    {val : Option CString} : mainUser reload fromCmdline old store val st ≠ .error .freed := by
  unfold mainUser
  dsimp only
  split
  · cases val <;> simp
  · simp

theorem pollinterval_stops {val : Option CString} : pollinterval reload val st ≠ .error .freed := by
  unfold pollinterval
  dsimp only
  split
  · simp
  · split
    · cases val with
      | none => simp
      | some val =>
        dsimp only
        split <;> simp
    · simp

theorem synchronous_stops {val : Option CString} : synchronous reload val st ≠ .error .freed := by
  unfold synchronous
  dsimp only
  generalize (if st.doSynchronous = 1 then cstr "yes" else if st.doSynchronous = 0 then cstr "no" else cstr "auto") = oldval
  split
  · cases val <;> simp
  · simp

theorem bind_stops {Value Result : Type} {first : Except Stop Value} {next : Value -> Except Stop Result} {stop : Stop}
    (stops : (first >>= next) = .error stop) : first = .error stop ∨ ∃ value, first = .ok value ∧ next value = .error stop := by
  cases first with
  | error other =>
    cases stops
    exact .inl rfl
  | ok value => exact .inr ⟨value, rfl, stops⟩

theorem ite_stops {Value : Type} {condition : Prop} [Decidable condition] {yes no : Except Stop Value} {stop : Stop}
    (whenTrue : yes ≠ .error stop) (whenFalse : no ≠ .error stop) : (if condition then yes else no) ≠ .error stop := by
  split
  · exact whenTrue
  · exact whenFalse

theorem mainArg_stops {var : CString} {val : Option CString} : mainArg reload site var val st ≠ .error .freed := by
  have passes (read : Except Stop Driver) (not : read ≠ .error .freed) :
      (do let st <- read; pure (st, true)) ≠ (.error .freed : Except Stop (Driver × Bool)) := by
    intro stops
    rcases bind_stops stops with first | ⟨_, _, later⟩
    · exact not first
    · cases later
  have ends (result : Driver × Bool) : (.ok result : Except Stop (Driver × Bool)) ≠ .error .freed := by simp
  unfold mainArg
  refine ite_stops (ends _) (ite_stops (ends _) (ite_stops (ends _) ?_))
  cases val with
  | none => exact ends _
  | some text =>
    refine ite_stops (ends _) (ite_stops (passes _ mainUser_stops) (ite_stops (passes _ mainUser_stops) ?_))
    refine ite_stops (ends _) (ite_stops (passes _ pollinterval_stops) (ite_stops (passes _ synchronous_stops) ?_))
    exact ite_stops (ends _) (ite_stops (ends _) (ite_stops (ends _) (ends _)))

theorem testvar_freed {var : CString} {val : Option CString} {vartype : BitVec 32}
    (stops : testvarReloadable reload var val vartype st = .error .freed) :
    ∃ tmp, st.vartab.find? (·.named var) = some tmp ∧ tmp.val = .freed := by
  unfold testvarReloadable at stops
  split at stops
  · cases stops
  · next tmp found =>
    refine ⟨tmp, found, ?_⟩
    split at stops
    · split at stops <;> cases stops
    · next _ _ freed => exact freed
    · cases stops

theorem storeval_freed {var : CString} {val : Option CString} (stops : storeval var val st = .error .freed) :
    ∃ tmp, st.vartab.find? (·.named var) = some tmp ∧ tmp.val = .freed := by
  unfold storeval at stops
  split at stops
  · cases val <;> cases stops
  · split at stops
    · cases val <;> cases stops
    · split at stops
      · cases stops
      · next tmp found =>
        rcases bind_stops stops with first | ⟨_, _, later⟩
        · exact ⟨tmp, found, replace_freed first⟩
        · cases later

theorem differs_vartab (mayChange : Bool) (st : Driver) : (st.differs mayChange).2.vartab = st.vartab := by
  unfold Driver.differs
  split
  · exact congrArg Settings.vartab (finish_settings 1 st)
  · rfl

theorem testvar_vartab {var : CString} {val : Option CString} {vartype : BitVec 32} {result : Int × Driver}
    (done : testvarReloadable reload var val vartype st = .ok result) : result.2.vartab = st.vartab := by
  have finish (verdict : Int) : (st.finish verdict).2.vartab = st.vartab :=
    congrArg Settings.vartab (finish_settings verdict st)
  unfold testvarReloadable at done
  split at done
  · cases done
    exact finish 1
  · split at done
    · split at done <;> cases done
      · exact finish (-1)
      · exact differs_vartab _ st
    · split at done <;> cases done
      exact differs_vartab _ st
    · cases done
      exact finish _

theorem doUpsconfArgs_freed (ready : Ready st)
    (stops : doUpsconfArgs reload site call.confupsname call.var call.val st = .error .freed) :
    call.kind site = .parameter ∧ ∃ tmp, st.vartab.find? (·.named call.var) = some tmp ∧ tmp.val = .freed := by
  unfold doUpsconfArgs at stops
  cases section_ : call.confupsname with
  | none =>
    rw [section_] at stops
    dsimp only at stops
    unfold doGlobalArgs at stops
    exfalso
    refine ite_stops pollinterval_stops (ite_stops mainUser_stops (ite_stops mainUser_stops (ite_stops mainUser_stops ?_))) stops
    exact ite_stops synchronous_stops (by simp)
  | some confupsname =>
    rw [section_] at stops
    dsimp only at stops
    by_cases foreign : confupsname ≠ site.upsname
    · rw [if_pos foreign] at stops
      cases stops
    rw [if_neg foreign] at stops
    have ours : call.confupsname = some site.upsname := section_.trans (congrArg some (not_not.mp foreign))
    rcases bind_stops stops with main | ⟨⟨mid, handled⟩, main, rest⟩
    · exact absurd main mainArg_stops
    rcases mainArg_follows ready ours main with ⟨rfl, _⟩ | ⟨rfl, rfl, notFlag, named⟩
    · cases rest
    dsimp only at rest
    rw [if_neg (by decide)] at rest
    have through {text : Option CString} {vartype : BitVec 32} {start : Driver -> Driver}
        (same : ∀ st, (start st).vartab = st.vartab) (stops : (do
          let checked <- testvarReloadable reload call.var text vartype mid
          if 0 < checked.1 then storeval call.var text (start checked.2) else pure checked.2) = .error .freed) :
        ∃ tmp, mid.vartab.find? (·.named call.var) = some tmp ∧ tmp.val = .freed := by
      rcases bind_stops stops with first | ⟨⟨verdict, st⟩, checked, later⟩
      · exact testvar_freed first
      · dsimp only at later
        split at later
        · obtain ⟨tmp, found, freed⟩ := storeval_freed later
          rw [same, testvar_vartab checked] at found
          exact ⟨tmp, found, freed⟩
        · cases later
    cases val : call.val with
    | none =>
      rw [val] at rest
      refine ⟨by rw [kind_ours ours notFlag, if_pos val], ?_⟩
      exact @through none varFlag
        (fun st => st.setinfo (snprintf smallbuf (cstr "driver.flag." ++ call.var)) (cstr "enabled")) (fun _ => rfl) rest
    | some text =>
      rw [val] at rest named
      have kind := named (Option.some_ne_none text)
      dsimp only at rest
      by_cases isDriver : call.var = cstr "driver"
      · rw [if_pos isDriver] at rest
        unfold driverLine at rest
        exact absurd rest (ite_stops (by simp) (ite_stops (by simp) (by simp)))
      · rw [if_neg isDriver] at rest kind
        exact ⟨kind, @through (some text) varValue id (fun _ => rfl) rest⟩

end Lines

end Nut.Main
