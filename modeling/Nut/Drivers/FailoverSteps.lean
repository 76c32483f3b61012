import Nut.Drivers.Failover

set_option autoImplicit false

namespace Nut

namespace Status

def Plain : StatusOp -> Prop
  | .dstate _ (.setflags _ flags) => flags &&& stFlagImmutable = 0
  | .dstate _ (.addflags _ _) => False
  | .dstate _ (.delflags _ _) => False
  | _ => True

-- What is called for a primary between two updates of what it publishes.
def Withdraws : StatusOp -> Prop
  | .dstate _ (.delinfo _) | .dstate _ (.delenum _ _) | .dstate _ (.delrange _ _ _) | .dstate _ (.delcmd _) => True
  | .statusInit | .alarmInit | .alarmCommit _ | .statusCommit _ _ => True
  | _ => False

theorem plain_of_withdraws {op : StatusOp} (withdraws : Withdraws op) : Plain op := by
  cases op with
  | dstate now op => cases op <;> trivial
  | _ => trivial

-- The variables that `status_init` and `status_commit` look at.
def statusVars : List String :=
  ["driver.flag.ignorelb", "battery.charge", "battery.charge.low", "battery.runtime", "battery.runtime.low"]

def Exports : DstateOp -> Prop
  | .setinfo var _ | .delinfo var => ∀ name ∈ statusVars, strcasecmp var (cstr name) ≠ .eq
  | .dataok => True
  | _ => False

theorem plain_of_exports {now : Int} {op : DstateOp} (exports : Exports op) :
    Plain (.dstate now op) := by
  cases op <;> trivial

end Status

def UpsDevice.Relays (ups : UpsDevice) : Prop :=
  ∀ var ∈ ups.varList, var.flags &&& stFlagImmutable = 0

def UpsLine.Relays : UpsLine -> Prop
  | .setflags _ flags => flags &&& stFlagImmutable = 0
  | _ => True

section Devices

variable {ups : UpsDevice} {key : CString}

theorem relays_updateVar {change : UpsVar -> UpsVar}
    (kept : ∀ var, var.flags &&& stFlagImmutable = 0 -> (change var).flags &&& stFlagImmutable = 0) (relays : ups.Relays) :
    (ups.updateVar key change).Relays := by
  have each (vars : List UpsVar) (plain : ∀ var ∈ vars, var.flags &&& stFlagImmutable = 0) :
      ∀ var ∈ UpsDevice.modifyVar key change vars, var.flags &&& stFlagImmutable = 0 := by
    induction vars with
    | nil => exact plain
    | cons first rest ih =>
      have head := plain first List.mem_cons_self
      have tail := ih fun var member => plain var (List.mem_cons_of_mem _ member)
      unfold UpsDevice.modifyVar
      split
      · exact List.forall_mem_cons.mpr ⟨kept first head, fun var member => plain var (List.mem_cons_of_mem _ member)⟩
      · exact List.forall_mem_cons.mpr ⟨head, tail⟩
  exact each ups.varList relays

theorem relays_setVar (value : CString) (relays : ups.Relays) : (ups.setVar key value).Relays := by
  unfold UpsDevice.setVar
  split
  · split
    · exact relays
    · exact relays_updateVar (fun var plain => plain) relays
  · exact List.forall_mem_append.mpr ⟨relays, List.forall_mem_singleton.mpr (by decide : (0 : BitVec 32) &&& stFlagImmutable = 0)⟩

theorem varFlags_plain (words : List CString) : UpsLine.varFlags words &&& stFlagImmutable = 0 := by
  have add (flags word : BitVec 32) (plain : flags &&& stFlagImmutable = 0) (other : word &&& stFlagImmutable = 0) :
      (flags ||| word) &&& stFlagImmutable = 0 := by
    rw [BitVec.and_comm, BitVec.and_or_distrib_left, BitVec.and_comm, plain, BitVec.and_comm, other]
    rfl
  have each (words : List CString) (flags : BitVec 32) (plain : flags &&& stFlagImmutable = 0) :
      words.foldl (fun flags word =>
        if isCommand word "RW" then flags ||| stFlagRw
        else if isCommand word "STRING" then flags ||| stFlagString
        else if isCommand word "NUMBER" then flags ||| stFlagNumber
        else flags) flags &&& stFlagImmutable = 0 := by
    induction words generalizing flags with
    | nil => exact plain
    | cons word words ih =>
      apply ih
      dsimp only
      split_ifs
      · exact add _ _ plain (by decide)
      · exact add _ _ plain (by decide)
      · exact add _ _ plain (by decide)
      · exact plain
  exact each words 0 (by decide)

theorem ite_all {c : Bool} {a b : Option UpsLine} (first : ∀ line ∈ a, line.Relays) (second : ∀ line ∈ b, line.Relays) :
    ∀ line ∈ (if c then a else b), line.Relays := by
  cases c
  · exact second
  · exact first

theorem relays_of (arg : List CString) : ∀ line ∈ UpsLine.of arg, line.Relays := by
  have none_ : ∀ line ∈ (none : Option UpsLine), line.Relays := fun _ made => by cases made
  have one {line : UpsLine} (relays : line.Relays) : ∀ l ∈ some line, l.Relays := fun l made => by
    cases made
    exact relays
  have aux (name value : CString) : (UpsLine.aux name value).Relays := by
    unfold UpsLine.aux
    split <;> trivial
  have range {make : CString -> Int32 -> Int32 -> UpsLine} (relays : ∀ name min max, (make name min max).Relays)
      (name min max : CString) : (UpsLine.range make name min max).Relays := by
    unfold UpsLine.range
    split
    · exact relays _ _ _
    · trivial
  unfold UpsLine.of
  match arg with
  | [] => exact none_
  | keyword :: arg =>
    refine ite_all (one trivial) (ite_all (one trivial) (ite_all (one trivial) (ite_all (one trivial) ?_)))
    match arg with
    | [] => exact none_
    | name :: arg =>
      refine ite_all (one trivial) (ite_all (one trivial) (ite_all (one trivial) ?_))
      match arg with
      | [] => exact none_
      | value :: more =>
        refine ite_all (one (varFlags_plain _)) (ite_all (one (aux _ _)) (ite_all (one trivial) (ite_all (one trivial)
          (ite_all (one trivial) ?_))))
        match more with
        | [] => exact none_
        | max :: _ =>
          refine ite_all (one (@range .delrange (fun _ _ _ => trivial) _ _ _)) (ite_all (one ?_) none_)
          exact @range .addrange (fun _ _ _ => trivial) _ _ _

end Devices

namespace Failover

structure Steady (P : Failover -> Prop) : Prop where
  devices : ∀ (w : Failover) (upsList : List UpsDevice) (alive online primaries : Nat), P w ->
    upsList.length = w.upsList.length -> ((∀ ups ∈ w.upsList, ups.Relays) -> ∀ ups ∈ upsList, ups.Relays) ->
    P { w with upsList := upsList, upsAliveCount := alive, upsOnlineCount := online, upsPrimaryCount := primaries }
  publish : ∀ (w : Failover) (i : Nat) (op : StatusOp), w.primaryUps = some i -> Status.Withdraws op -> P w -> P (w.call op)
  commit : ∀ (w : Failover) (i : Nat), w.primaryUps = some i -> P w -> P { w with trends := w.trends.tail }

section Contacts

variable {P : Failover -> Prop} (steady : Steady P) {w : Failover} {i : Nat}

include steady

theorem steady_modifyUps {change : UpsDevice -> UpsDevice} (kept : ∀ ups : UpsDevice, ups.Relays -> (change ups).Relays)
    (holds : P w) : P (w.modifyUps i change) := by
  refine steady.devices w _ _ _ _ holds (List.length_modify ..) fun relays ups member => ?_
  obtain ⟨j, place⟩ := List.mem_iff_getElem?.mp member
  rw [List.getElem?_modify] at place
  obtain ⟨old, there, rfl⟩ := Option.map_eq_some_iff.mp place
  have before := relays old (List.mem_of_getElem? there)
  split
  · exact kept old before
  · exact before

theorem steady_sameVars {change : UpsDevice -> UpsDevice} (kept : ∀ ups : UpsDevice, (change ups).varList = ups.varList)
    (holds : P w) : P (w.modifyUps i change) :=
  steady_modifyUps steady (fun ups relays => by rwa [UpsDevice.Relays, kept ups]) holds

theorem steady_counts (alive online : Nat) (holds : P w) : P { w with upsAliveCount := alive, upsOnlineCount := online } :=
  steady.devices w w.upsList alive online w.upsPrimaryCount holds rfl id

omit steady in
theorem steady_ifPrimary {publish : Failover -> Failover}
    (kept : ∀ w : Failover, w.primaryUps = some i -> P w -> P (publish w)) (holds : P w) : P (w.ifPrimary i publish) := by
  unfold Failover.ifPrimary
  split
  next primary => exact kept w primary holds
  next => exact holds

theorem steady_clearVar (key : CString) (primary : w.primaryUps = some i) (holds : P w) : P (w.clearVar key) := by
  have call (w : Failover) (op : StatusOp) (withdraws : Status.Withdraws op) (both : w.primaryUps = some i ∧ P w) :
      (w.call op).primaryUps = some i ∧ P (w.call op) := ⟨both.1, steady.publish w i op both.1 withdraws both.2⟩
  have commit (w : Failover) (both : w.primaryUps = some i ∧ P w) : w.statusCommit.primaryUps = some i ∧ P w.statusCommit :=
    ⟨both.1, steady.commit _ i both.1 (call w (.statusCommit w.clock (w.trends.headD .unknown)) trivial both).2⟩
  have alarm (w : Failover) (both : w.primaryUps = some i ∧ P w) :
      (((w.call .alarmInit).alarmCommit).statusCommit).primaryUps = some i ∧
        P ((w.call .alarmInit).alarmCommit).statusCommit :=
    commit _ (call (w.call .alarmInit) (.alarmCommit w.clock) trivial (call w .alarmInit trivial both))
  have status (w : Failover) (both : w.primaryUps = some i ∧ P w) :
      ((w.call .statusInit).statusCommit).primaryUps = some i ∧ P (w.call .statusInit).statusCommit :=
    commit _ (call w .statusInit trivial both)
  unfold Failover.clearVar
  dsimp only
  split_ifs
  · exact (call _ (.dstate _ (.delinfo key)) trivial (status _ (alarm w ⟨primary, holds⟩))).2
  · exact (call _ (.dstate _ (.delinfo key)) trivial (status w ⟨primary, holds⟩)).2
  · exact (call _ (.dstate _ (.delinfo key)) trivial (alarm w ⟨primary, holds⟩)).2
  · exact (call _ (.dstate _ (.delinfo key)) trivial ⟨primary, holds⟩).2

theorem steady_upsIsOnline (holds : P w) : P (w.upsIsOnline i) := by
  unfold upsIsOnline
  split
  · exact holds
  · exact steady_counts steady _ _ (steady_sameVars steady (fun _ => rfl) holds)

theorem steady_upsIsOffline (holds : P w) : P (w.upsIsOffline i) := by
  unfold upsIsOffline
  split
  · exact steady_counts steady _ _ (steady_sameVars steady (fun _ => rfl) holds)
  · exact holds

theorem steady_noteVar (name value : CString) (holds : P w) : P (w.noteVar i name value) := by
  have set (w : Failover) (c : Prop) [Decidable c] (change : UpsDevice -> UpsDevice)
      (kept : ∀ ups : UpsDevice, (change ups).varList = ups.varList) (holds : P w) :
      P (if c then w.modifyUps i change else w) := by
    split
    · exact steady_sameVars steady kept holds
    · exact holds
  have status : P (if name = cstr "ups.status" then
      let w := w.modifyUps i fun ups => { ups with status := some value }
      if strContainsToken value (cstr "OL") then w.upsIsOnline i else w.upsIsOffline i
    else w) := by
    have written : P (w.modifyUps i fun ups => { ups with status := some value }) :=
      steady_sameVars steady (fun _ => rfl) holds
    dsimp only
    split_ifs
    · exact steady_upsIsOnline steady written
    · exact steady_upsIsOffline steady written
    · exact holds
  unfold noteVar
  exact set _ _ _ (fun _ => rfl) (set _ _ _ (fun _ => rfl) status)

theorem steady_followLine {line : UpsLine} (relays : line.Relays) (holds : P w) : P (w.followLine i line) := by
  have vars {change : UpsVar -> UpsVar} (key : CString)
      (kept : ∀ var, var.flags &&& stFlagImmutable = 0 -> (change var).flags &&& stFlagImmutable = 0) (w : Failover)
      (holds : P w) : P (w.modifyUps i fun ups => ups.updateVar key change) :=
    steady_modifyUps steady (fun ups => relays_updateVar kept) holds
  have publish (op : DstateOp) (withdraws : ∀ now, Status.Withdraws (.dstate now op)) :
      P (w.ifPrimary i fun w => w.dstate op) :=
    steady_ifPrimary (fun w primary => steady.publish w i _ primary (withdraws _)) holds
  cases line with
  | pong | nonNumeric => exact holds
  | dumpdone | datastale | dataok => exact steady_sameVars steady (fun _ => rfl) holds
  | delcmd cmdname =>
    change P (w.upsDelCmd i (upstreamCmd cmdname))
    unfold upsDelCmd
    split
    · exact holds
    · split
      · exact steady_sameVars steady (fun _ => rfl) (publish (.delcmd (upstreamCmd cmdname)) fun _ => trivial)
      · exact holds
  | addcmd cmdname =>
    refine steady_sameVars steady (fun ups => ?_) holds
    unfold UpsDevice.addCmd
    split <;> rfl
  | delinfo name =>
    change P (w.upsDelVar i (rewriteDriverPrefix name))
    unfold upsDelVar
    split
    · exact holds
    · split
      · exact holds
      · exact steady_modifyUps steady (fun ups relays var member => relays var (List.mem_of_mem_eraseP member))
          (steady_ifPrimary (fun w => steady_clearVar steady _) holds)
  | setflags name flags =>
    refine vars (rewriteDriverPrefix name) (fun var plain => ?_) w holds
    split
    · exact plain
    · exact relays
  | setaux name aux =>
    refine vars (rewriteDriverPrefix name) (fun var plain => ?_) w holds
    split <;> exact plain
  | addenum name value =>
    refine vars (rewriteDriverPrefix name) (fun var plain => ?_) w holds
    split <;> exact plain
  | addrange name min max =>
    refine vars (rewriteDriverPrefix name) (fun var plain => ?_) w holds
    split <;> exact plain
  | delenum name value =>
    change P (w.upsDelEnum i (rewriteDriverPrefix name) value)
    unfold upsDelEnum
    split
    · exact holds
    · split
      · exact steady_modifyUps steady (fun ups => relays_updateVar fun var plain => plain)
          (publish (.delenum (rewriteDriverPrefix name) value) fun _ => trivial)
      · exact holds
  | delrange name min max =>
    change P (w.upsDelRange i (rewriteDriverPrefix name) min max)
    unfold upsDelRange
    split
    · exact holds
    · split
      · exact steady_modifyUps steady (fun ups => relays_updateVar fun var plain => plain)
          (publish (.delrange (rewriteDriverPrefix name) min max) fun _ => trivial)
      · exact holds
  | setinfo name value =>
    exact steady_modifyUps steady (fun ups => relays_setVar value) (steady_noteVar steady name value holds)

theorem steady_upsIsAlive (holds : P w) : P (w.upsIsAlive i) := by
  unfold upsIsAlive
  split
  · exact holds
  · exact steady_counts steady _ _ (steady_sameVars steady (fun _ => rfl) holds)

theorem steady_upsDisconnect (holds : P w) : P (w.upsDisconnect i) := by
  have dead : P (w.upsIsDead i) := by
    unfold upsIsDead
    dsimp only
    split_ifs
    · exact steady_counts steady _ _ (steady_counts steady (w.upsAliveCount - 1) w.upsOnlineCount holds)
    · exact steady_counts steady _ _ holds
    · exact steady_counts steady _ _ holds
    · exact holds
  exact steady_sameVars steady (fun _ => rfl) dead

theorem steady_upsConnect (contact : Contact) (holds : P w) : P (w.upsConnect i contact).1 := by
  have failed (w : Failover) (holds : P w) : P (w.modifyUps i (noteFailure contact.connectTime)) :=
    steady_sameVars steady (fun _ => rfl) holds
  have connected : P (w.modifyUps i fun ups => { ups with parseCtx := pconfInit, connected := true }) :=
    steady_sameVars steady (fun _ => rfl) holds
  unfold upsConnect
  dsimp only
  split_ifs
  · exact holds
  · refine steady_sameVars steady (fun _ => rfl) (steady_upsIsAlive steady (steady_modifyUps steady (fun ups _ => ?_) connected))
    intro var member
    cases member
  · exact failed _ (steady_upsDisconnect steady connected)
  · exact failed w holds

theorem steady_readBytes (lineTime : Int) (bytes : CString) (holds : P w) : P (readBytes i lineTime bytes w).1 := by
  induction bytes generalizing w with
  | nil => exact holds
  | cons b bytes ih =>
    have parsed (w : Failover) (arg : List CString) (holds : P w) : P (w.upsParseProtocol i arg).1 := by
      unfold upsParseProtocol
      split
      next line known => exact steady_followLine steady (relays_of arg line known) holds
      next => exact holds
    unfold readBytes
    split
    next => exact holds
    next ups _ =>
      have read : P (w.modifyUps i fun u => { u with parseCtx := (pconfChar ups.parseCtx b).1 }) :=
        steady_sameVars steady (fun _ => rfl) holds
      dsimp only
      split_ifs
      · exact ih (steady_sameVars steady (fun _ => rfl) (parsed _ _ read))
      · exact ih (parsed _ _ read)
      · exact ih read
      · exact read

theorem steady_lookAfter (contact : Contact) (holds : P w) : P (w.lookAfter i contact) := by
  have reached : P (if w.has i UpsDevice.alive then (w, true) else w.upsConnect i contact).1 := by
    split
    · exact holds
    · exact steady_upsConnect steady contact holds
  unfold lookAfter
  split
  next w' failed =>
    rw [failed] at reached
    exact reached
  next w' found =>
    rw [found] at reached
    have pinged : P (w'.modifyUps i fun ups => (isUpsAlive w'.args contact.aliveTime ups).1) := by
      refine steady_sameVars steady (fun ups => ?_) reached
      unfold isUpsAlive
      split
      · rfl
      · dsimp only
        split <;> rfl
    have read (w : Failover) (holds : P w) : P (w.upsReadData i contact).1 := by
      unfold upsReadData
      split
      next => exact holds
      next => exact holds
      next => exact steady_readBytes steady _ _ holds
    dsimp only
    split_ifs
    · exact steady_upsDisconnect steady pinged
    · exact steady_upsDisconnect steady (read _ pinged)
    · exact read _ pinged

theorem steady_elect (round : Round) (holds : P { w with clock := round.clock, trends := round.trends }) :
    P (w.elect round).1 := by
  have each (l : List Nat) (w : Failover) (holds : P w) : P (l.foldl (fun w i => w.lookAfter i (round.contacts i)) w) := by
    induction l generalizing w with
    | nil => exact holds
    | cons i l ih => exact ih _ (steady_lookAfter steady (round.contacts i) holds)
  refine steady.devices _ _ _ _ _ (each _ _ holds) (List.length_map ..) fun relays ups member => ?_
  obtain ⟨old, there, rfl⟩ := List.mem_map.mp member
  have same (args : FailoverArgs) : (rate args round.electionTime old).varList = old.varList := by
    unfold rate expireIgnored expireForced
    dsimp only
    split_ifs <;> rfl
  intro var member
  rw [same] at member
  exact relays old there var member

end Contacts

-- What the functions that publish something keep, where `allowed` says what they may call.
structure Publishing (allowed : StatusOp -> Prop) (P : Failover -> Prop) : Prop where
  plain : ∀ op, Status.Plain op -> allowed op
  relayed : ∀ w, P w -> ∀ ups ∈ w.upsList, ∀ var ∈ ups.varList, ∀ now, allowed (.dstate now (.setflags var.key var.flags))
  call : ∀ (w : Failover) (op : StatusOp), allowed op -> P w -> P (w.call op)
  rest : ∀ (w : Failover) (upsList : List UpsDevice) (primary : Option Nat) (alive online primaries : Nat) (clock : Int)
    (trends : List Trend), P w -> ((∀ ups ∈ w.upsList, ups.Relays) -> ∀ ups ∈ upsList, ups.Relays) ->
    P { w with
      upsList := upsList, primaryUps := primary, upsAliveCount := alive, upsOnlineCount := online
      upsPrimaryCount := primaries, clock := clock, trends := trends }

section Publications

variable {allowed : StatusOp -> Prop} {P : Failover -> Prop} (keeps : Publishing allowed P) {w : Failover} {i : Nat}

include keeps

theorem publishing_steady : Steady P where
  devices w _ _ _ _ holds _ relays := keeps.rest w _ _ _ _ _ _ _ holds relays
  publish w _ _ _ withdraws := keeps.call w _ (keeps.plain _ (Status.plain_of_withdraws withdraws))
  commit w _ _ holds := keeps.rest w _ _ _ _ _ _ _ holds id

theorem publishing_elect (round : Round) (holds : P w) : P (w.elect round).1 :=
  steady_elect (publishing_steady keeps) round (keeps.rest w _ _ _ _ _ _ _ holds id)

theorem publishing_dstate {op : DstateOp} (plain : Status.Plain (.dstate w.clock op)) (holds : P w) : P (w.dstate op) :=
  keeps.call w _ (keeps.plain _ plain) holds

theorem publishing_alarmCommit (holds : P w) : P w.alarmCommit := keeps.call w _ (keeps.plain _ trivial) holds

theorem publishing_statusCommit (holds : P w) : P w.statusCommit :=
  keeps.rest _ _ _ _ _ _ _ _ (keeps.call w (.statusCommit w.clock (w.trends.headD .unknown)) (keeps.plain _ trivial) holds) id

theorem publishing_plain (op : StatusOp) (plain : Status.Plain op) (holds : P w) : P (w.call op) :=
  keeps.call w op (keeps.plain op plain) holds

omit keeps in
theorem exportDriverState_rule {P : Failover -> Prop}
    (kept : ∀ (w : Failover) (op : DstateOp), Status.Exports op -> P w -> P (w.dstate op)) (holds : P w) :
    P w.exportDriverState := by
  have set (w : Failover) (holds : P w) (var text : CString)
      (apart : ∀ name ∈ Status.statusVars, strcasecmp var (cstr name) ≠ .eq) : P (w.dstate (.setinfo var text)) := kept w _ apart holds
  have unset (w : Failover) (holds : P w) (var : CString)
      (apart : ∀ name ∈ Status.statusVars, strcasecmp var (cstr name) ≠ .eq) : P (w.dstate (.delinfo var)) := kept w _ apart holds
  have counts := set _ (set _ (set _ (set _ holds (cstr "driver.stats.alive_drivers") (printInt w.upsAliveCount) (by decide))
    (cstr "driver.stats.online_drivers") (printInt w.upsOnlineCount) (by decide))
    (cstr "driver.stats.primary_drivers") (printInt w.upsPrimaryCount) (by decide))
    (cstr "driver.stats.total_drivers") (printInt w.upsList.length) (by decide)
  unfold exportDriverState
  dsimp only
  split
  · exact set _ (set _ (set _ (set _ counts _ _ (by decide)) _ _ (by decide)) _ _ (by decide)) _ _ (by decide)
  · exact unset _ (unset _ (unset _ (unset _ counts _ (by decide)) _ (by decide)) _ (by decide)) _ (by decide)

theorem publishing_exportDriverState (holds : P w) : P w.exportDriverState :=
  exportDriverState_rule (fun _ _ exports => publishing_dstate keeps (Status.plain_of_exports exports)) holds

theorem publishing_exportVar {force : Bool} {var : UpsVar}
    (relayed : ∀ now, allowed (.dstate now (.setflags var.key var.flags))) (holds : P w) : P (w.exportVar force var) := by
  have value : P (w.exportValue var) := by
    unfold exportValue
    split_ifs
    · exact publishing_statusCommit keeps (publishing_alarmCommit keeps
        (publishing_plain keeps (.alarmSet var.value) trivial (publishing_plain keeps .alarmInit trivial holds)))
    · exact publishing_statusCommit keeps
        (publishing_plain keeps (.statusSet var.value) trivial (publishing_plain keeps .statusInit trivial holds))
    · exact publishing_dstate keeps trivial holds
  have maybe (w : Failover) (c : Prop) [Decidable c] (op : DstateOp) (may : allowed (.dstate w.clock op)) (holds : P w) :
      P (if c then w.dstate op else w) := by
    split
    · exact keeps.call w _ may holds
    · exact holds
  unfold exportVar
  split
  · refine List.foldlRecOn _ _ ?_ fun w holds range _ => publishing_dstate keeps trivial holds
    refine List.foldlRecOn _ _ ?_ fun w holds val _ => publishing_dstate keeps trivial holds
    exact maybe _ _ _ (keeps.plain _ trivial) (maybe _ _ _ (relayed _) value)
  · exact holds

theorem publishing_upsExportDstate (holds : P w) : P (w.upsExportDstate i) := by
  unfold upsExportDstate
  split
  next => exact holds
  next ups place =>
    have relayed := keeps.relayed w holds ups (List.mem_of_getElem? place)
    have cleared : P (if ups.forceDstateExport then (w.call .statusInit).call .alarmInit else w) := by
      split
      · exact publishing_plain keeps .alarmInit trivial (publishing_plain keeps .statusInit trivial holds)
      · exact holds
    have cmds (w : Failover) (holds : P w) (cmd : UpsCmd) (_ : cmd ∈ ups.cmdList) :
        P (exportCmd ups.forceDstateExport w cmd) := by
      unfold exportCmd
      split
      · exact publishing_dstate keeps trivial holds
      · exact holds
    have vars (w : Failover) (holds : P w) (var : UpsVar) (member : var ∈ ups.varList) :
        P (exportVar ups.forceDstateExport w var) := publishing_exportVar keeps (relayed var member) holds
    have exported_ := List.foldlRecOn _ _ (List.foldlRecOn _ _ cleared cmds) vars
    refine steady_modifyUps (publishing_steady keeps) (fun ups relays var member => ?_) ?_
    · obtain ⟨old, there, rfl⟩ := List.mem_map.mp member
      exact relays old there
    · have committed (c : Bool) (w : Failover) (holds : P w) : P (if c then w.alarmCommit.statusCommit else w) := by
        cases c
        · exact holds
        · exact publishing_statusCommit keeps (publishing_alarmCommit keeps holds)
      exact committed _ _ exported_

theorem publishing_upsCleanDstate (holds : P w) : P (w.upsCleanDstate i) := by
  unfold upsCleanDstate
  split
  next => exact holds
  next ups place =>
    refine publishing_statusCommit keeps (publishing_alarmCommit keeps
      (List.foldlRecOn _ _ ?_ fun w holds var _ => publishing_dstate keeps trivial holds))
    refine List.foldlRecOn _ _ ?_ fun w holds cmd _ => publishing_dstate keeps trivial holds
    exact publishing_plain keeps .alarmInit trivial (publishing_plain keeps .statusInit trivial holds)

theorem publishing_primary (primary : Option Nat) {change : UpsDevice -> UpsDevice}
    (kept : ∀ ups : UpsDevice, (change ups).varList = ups.varList) (holds : P w) :
    P ({ w with primaryUps := primary }.modifyUps i change) :=
  steady_sameVars (publishing_steady keeps) kept (keeps.rest w _ _ _ _ _ _ _ holds id)

theorem publishing_upsDemotePrimary (holds : P w) : P (w.upsDemotePrimary i) :=
  publishing_upsCleanDstate keeps (publishing_primary keeps none (fun _ => rfl) holds)

theorem publishing_upsPromotePrimary (holds : P w) : P (w.upsPromotePrimary i) := by
  have promoted (v : Failover) (holds : P v) : P (({ v with primaryUps := some i }.modifyUps i fun ups =>
        { ups with forceDstateExport := true, primary := true }).upsExportDstate i) :=
    publishing_upsExportDstate keeps (publishing_primary keeps (some i) (fun _ => rfl) holds)
  unfold upsPromotePrimary
  split
  · exact holds
  · cases w.primaryUps with
    | none => exact promoted w holds
    | some old => exact promoted _ (publishing_upsDemotePrimary keeps holds)

theorem publishing_dropPrimary (holds : P w) : P w.dropPrimary := by
  unfold dropPrimary
  split
  · split
    · exact publishing_upsDemotePrimary keeps holds
    · exact holds
  · exact holds

theorem publishing_failPrimaries (elapsed : Int) (holds : P w) : P (w.failPrimaries elapsed) := by
  have alarmed (w : Failover) (holds : P w) :
      P (((w.call (.alarmSet (cstr "No suitable primaries for failover"))).alarmCommit).statusCommit) :=
    publishing_statusCommit keeps (publishing_alarmCommit keeps (keeps.call w _ (keeps.plain _ trivial) holds))
  unfold failPrimaries
  dsimp only
  split
  · split
    · exact publishing_dstate keeps trivial (alarmed w holds)
    · exact publishing_dstate keeps trivial (alarmed w holds)
  · exact publishing_dstate keeps trivial (alarmed _ (publishing_plain keeps (.statusSet (cstr "FSD")) trivial holds))
  · exact publishing_dstate keeps trivial holds

end Publications

end Failover

end Nut
