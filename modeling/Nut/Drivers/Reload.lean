import Mathlib.Data.List.TakeWhile
import Nut.Drivers.ReloadSettings

set_option autoImplicit false

namespace Nut.Main

def Stored.ofOption : Option CString -> Stored
  | none => .null
  | some val => .text val

def keepStep (compares : Bool) (old : Option CString) (val : CString) : Option CString :=
  match old with
  | none => some val
  | some old => if compares ∧ strcasecmp old val = .eq then some old else some val

def lastRun (compares : Bool) (vals : List CString) : Option CString :=
  match vals.getLast? with
  | none => none
  | some last => if compares then (vals.reverse.takeWhile fun val => strcasecmp val last = .eq).getLast? else some last

theorem strcasecmp_congr {first second : CString} (same : strcasecmp first second = .eq) (val : CString) :
    strcasecmp val first = .eq ↔ strcasecmp val second = .eq := by
  rw [strcasecmp_eq_iff] at same
  rw [strcasecmp_eq_iff, strcasecmp_eq_iff, same]

theorem lastRun_snoc (compares : Bool) (vals : List CString) (val : CString) :
    lastRun compares (vals ++ [val]) = keepStep compares (lastRun compares vals) val := by
  unfold lastRun
  rw [List.getLast?_concat]
  cases compares with
  | false => cases vals.getLast? <;> rfl
  | true =>
    dsimp only
    rw [if_pos rfl, List.reverse_concat, List.takeWhile_cons_of_pos (by simp)]
    rcases List.eq_nil_or_concat vals with rfl | ⟨vals, last, rfl⟩
    · rfl
    · rw [List.concat_eq_append, List.getLast?_concat, List.reverse_concat]
      dsimp only
      rw [if_pos rfl, @List.takeWhile_cons_of_pos _ (fun each => decide (strcasecmp each last = .eq)) last _ (by simp)]
      obtain ⟨first, found⟩ : ∃ first, (last :: vals.reverse.takeWhile fun each => strcasecmp each last = .eq).getLast? =
          some first := Option.isSome_iff_exists.mp (by simp)
      have like : strcasecmp first last = .eq := by
        rcases List.mem_cons.mp (List.mem_of_getLast? found) with rfl | inside
        · simp
        · simpa using List.mem_takeWhile_imp inside
      by_cases same : strcasecmp last val = .eq
      · have runs : (vals.reverse.takeWhile fun each => strcasecmp each val = .eq) =
            vals.reverse.takeWhile fun each => strcasecmp each last = .eq := by
          congr 1
          funext each
          exact decide_eq_decide.mpr (strcasecmp_congr same each).symm
        rw [List.takeWhile_cons_of_pos (by simpa using same), runs, List.getLast?_cons_cons]
        rw [found, keepStep, if_pos ⟨rfl, (strcasecmp_congr same first).mp like⟩]
      · have apart : ¬ strcasecmp first val = .eq := by
          rw [strcasecmp_eq_iff] at same like ⊢
          rwa [like]
        rw [List.takeWhile_cons_of_neg (by simpa using same), found, keepStep, if_neg (by simp [apart])]
        rfl

theorem foldl_keepStep (compares : Bool) (vals : List CString) : vals.foldl (keepStep compares) none = lastRun compares vals := by
  induction vals using List.reverseRecOn with
  | nil => rfl
  | append_singleton vals val ih =>
    rw [List.foldl_append, ih, lastRun_snoc]
    rfl

def Clean (lines : List (Option CString)) : Prop :=
  lines.Pairwise fun earlier later => earlier.isSome = true -> later.isSome = true

theorem clean_cons (line : Option CString) (lines : List (Option CString)) :
    Clean (line :: lines) ↔ (line.isSome = true -> ∀ later ∈ lines, later.isSome = true) ∧ Clean lines := by
  rw [Clean, List.pairwise_cons]
  constructor
  · rintro ⟨first, rest⟩
    exact ⟨fun some_ later member => first later member some_, rest⟩
  · rintro ⟨first, rest⟩
    exact ⟨fun later member some_ => first some_ later member, rest⟩

def CleanAfter (there : Bool) (lines : List (Option CString)) : Prop :=
  (there = true -> ∀ later ∈ lines, later.isSome = true) ∧ Clean lines

theorem cleanAfter_cons {there : Bool} {line : Option CString} {lines : List (Option CString)} :
    CleanAfter there (line :: lines) ↔ (there = true -> line.isSome = true) ∧ CleanAfter (there || line.isSome) lines := by
  unfold CleanAfter
  rw [clean_cons, List.forall_mem_cons]
  cases there <;> cases line <;> simp

theorem cleanAfter_append {there : Bool} {front back : List (Option CString)} :
    CleanAfter there (front ++ back) ↔ CleanAfter there front ∧ CleanAfter (there || front.any (·.isSome)) back := by
  induction front generalizing there with
  | nil => simp [CleanAfter, Clean]
  | cons line front ih =>
    rw [List.cons_append, cleanAfter_cons, cleanAfter_cons, ih, List.any_cons, and_assoc, Bool.or_assoc]

section Lines

variable {reload : Bool} {tmp after : Vartab}

theorem line_freed {val : Option CString} (freed : tmp.val = .freed) (done : tmp.line reload val = .ok after) : after = tmp := by
  unfold Vartab.line at done
  obtain ⟨verdict, _, rest⟩ := bind_eq_ok.mp done
  split at rest
  · obtain ⟨stored, replaced, _⟩ := bind_eq_ok.mp rest
    rw [freed] at replaced
    cases replaced
  · cases rest
    rfl

theorem lines_freed {lines : List (Option CString)} (freed : tmp.val = .freed)
    (done : lines.foldlM (fun tmp val => tmp.line reload val) tmp = .ok after) : after = tmp := by
  induction lines with
  | nil =>
    cases done
    rfl
  | cons line lines ih =>
    rw [List.foldlM_cons] at done
    obtain ⟨next, stepped, rest⟩ := bind_eq_ok.mp done
    rw [line_freed freed stepped] at rest
    exact ih rest

theorem line_mayChange {old val : Option CString} (may : tmp.mayChange reload = true) (is : tmp.val = .ofOption old)
    (found : old.isSome = true -> tmp.found = true) :
    tmp.line reload val = .ok { tmp with
      val := match val with
        | some val => .ofOption (keepStep (overlaps tmp) old val)
        | none => if old = none then .null else .freed
      found := true } := by
  unfold Vartab.line Vartab.verdict
  rw [may]
  cases old with
  | none =>
    rw [is]
    cases val <;> rfl
  | some old =>
    rw [is]
    cases val with
    | none => rfl
    | some val =>
      dsimp only [Stored.ofOption, keepStep]
      by_cases same : overlaps tmp = true ∧ strcasecmp old val = .eq
      · rw [if_pos same, if_pos same]
        have there : tmp.found = true := found rfl
        have kept : tmp = { tmp with val := .text old, found := true } := by
          rw [<- there, show Stored.text old = tmp.val from is.symm]
        exact congrArg Except.ok kept
      · rw [if_neg same, if_neg same]
        rfl

theorem lines_mayChange {old : Option CString} {lines : List (Option CString)} (may : tmp.mayChange reload = true)
    (is : tmp.val = .ofOption old) (found : old.isSome = true -> tmp.found = true)
    (done : lines.foldlM (fun tmp val => tmp.line reload val) tmp = .ok after) :
    after = { tmp with val := after.val, found := tmp.found || !lines.isEmpty } ∧
      (after.val ≠ .freed ↔ CleanAfter old.isSome lines) ∧
      (CleanAfter old.isSome lines -> after.val = .ofOption ((lines.filterMap id).foldl (keepStep (overlaps tmp)) old)) := by
  induction lines generalizing tmp old with
  | nil =>
    cases done
    refine ⟨by simp, ?_, fun _ => is⟩
    rw [is]
    cases old <;> simp [Stored.ofOption, CleanAfter, Clean]
  | cons line lines ih =>
    rw [List.foldlM_cons, line_mayChange may is found] at done
    rw [cleanAfter_cons]
    cases line with
    | some val =>
      obtain ⟨rest, live, value⟩ := @ih { tmp with val := .ofOption (keepStep (overlaps tmp) old val), found := true }
        (keepStep (overlaps tmp) old val) may rfl (fun _ => rfl) done
      have there : (keepStep (overlaps tmp) old val).isSome = true := by
        unfold keepStep
        split
        · rfl
        · split <;> rfl
      rw [there] at live value
      refine ⟨?_, ?_, ?_⟩
      · rw [rest]
        simp
      · rw [live]
        simp
      · exact fun clean => value (by simpa using clean.2)
    | none =>
      cases old with
      | none =>
        obtain ⟨rest, live, value⟩ := @ih { tmp with val := .null, found := true } none may rfl (fun _ => rfl) done
        refine ⟨?_, ?_, ?_⟩
        · rw [rest]
          simp
        · rw [live]
          simp
        · exact fun clean => value clean.2
      | some old =>
        have rest := @lines_freed reload { tmp with val := .freed, found := true } after lines rfl done
        rw [rest]
        refine ⟨by simp, ?_, ?_⟩ <;> simp

theorem line_fixed {val : Option CString} (fixed : tmp.mayChange true = false) (found : tmp.found = true)
    (done : tmp.line true val = .ok after) : after = tmp := by
  unfold Vartab.line Vartab.verdict at done
  rw [fixed, found] at done
  obtain ⟨verdict, checked, rest⟩ := bind_eq_ok.mp done
  have refused : verdict ≠ .apply := by
    rintro rfl
    split at checked
    · split at checked <;> cases checked
    · split at checked <;> cases checked
    · cases checked
  rw [if_neg refused] at rest
  cases rest
  rfl

theorem lines_fixed {lines : List (Option CString)} (fixed : tmp.mayChange true = false) (found : tmp.found = true)
    (done : lines.foldlM (fun tmp val => tmp.line true val) tmp = .ok after) : after = tmp := by
  induction lines with
  | nil =>
    cases done
    rfl
  | cons line lines ih =>
    rw [List.foldlM_cons] at done
    obtain ⟨next, stepped, rest⟩ := bind_eq_ok.mp done
    rw [line_fixed fixed found stepped] at rest
    exact ih rest

theorem line_first {val : Option CString} (found : tmp.found = false) (null : tmp.val = .null) :
    tmp.line reload val = .ok { tmp with val := .ofOption val, found := true } := by
  unfold Vartab.line Vartab.verdict
  rw [null, found]
  cases val <;> simp [Stored.replace, Stored.ofOption] <;> rfl

theorem lines_other {lines : List (Option CString)} (fixed : tmp.mayChange true = false)
    (null : tmp.found = false -> tmp.val = .null)
    (done : lines.foldlM (fun tmp val => tmp.line true val) tmp = .ok after) :
    after = if tmp.found = true then tmp else { tmp with val := .ofOption lines.head?.join, found := !lines.isEmpty } := by
  split
  · next found => exact lines_fixed fixed found done
  · next notFound =>
    rw [Bool.not_eq_true] at notFound
    cases lines with
    | nil =>
      cases done
      have unchanged : tmp = { tmp with val := .null, found := false } := by
        rw [<- notFound, <- null notFound]
      exact unchanged
    | cons line lines =>
      rw [List.foldlM_cons, line_first notFound (null notFound)] at done
      exact @lines_fixed { tmp with val := .ofOption line, found := true } after lines fixed rfl done

end Lines

section Views

variable {reload : Bool} {site : Site} {calls : List Call} {st after : Driver}

def runCalls (reload : Bool) (site : Site) (calls : List Call) (st : Driver) : Except Stop Driver :=
  calls.foldlM (fun st call => doUpsconfArgs reload site call.confupsname call.var call.val st) st

def PlainCall (site : Site) (call : Call) : Prop :=
  call.confupsname = some site.upsname -> plainName call.var = true

instance (site : Site) (call : Call) : Decidable (PlainCall site call) :=
  inferInstanceAs (Decidable (_ -> _))

def lineFor (site : Site) (name : CString) (call : Call) : Option (Option CString) :=
  if call.kind site = .parameter ∧ strcasecmp call.var name = .eq then some call.val else none

def textFor (site : Site) (kind : Kind) (call : Call) : Option CString :=
  if call.kind site = kind then call.val else none

theorem step_ready (st : Driver) (call : Call) (after : Driver) (ready : Ready st) (plain : PlainCall site call)
    (done : doUpsconfArgs reload site call.confupsname call.var call.val st = .ok after) : Ready after := by
  obtain ⟨_, _, changed⟩ := doUpsconfArgs_follows ready plain done
  exact changed.ready ready

def entryLine (reload : Bool) (cell : Option Vartab) (val : Option CString) : Except Stop (Option Vartab) :=
  match cell with
  | none => .error .exit
  | some tmp => (tmp.line reload val).map some

theorem line_var {tmp tmp_ : Vartab} {val : Option CString} (done : tmp.line reload val = .ok tmp_) : tmp_.var = tmp.var := by
  unfold Vartab.line at done
  obtain ⟨verdict, _, rest⟩ := bind_eq_ok.mp done
  split at rest
  · obtain ⟨stored, _, ends⟩ := bind_eq_ok.mp rest
    cases ends
    rfl
  · cases rest
    rfl

theorem named_congr {var name : CString} (same : strcasecmp var name = .eq) (tmp : Vartab) : tmp.named var = tmp.named name := by
  rw [strcasecmp_eq_iff] at same
  simp only [Vartab.named, strcasecmp_eq_iff, same]

theorem find_replaced {var name : CString} {vartab : List Vartab} {tmp tmp_ : Vartab}
    (found : vartab.find? (·.named var) = some tmp) (same : tmp_.var = tmp.var) :
    (editVartab var (fun _ => tmp_) vartab).find? (·.named name) =
      if strcasecmp var name = .eq then some tmp_ else vartab.find? (·.named name) := by
  have edits : editVartab var (fun _ => tmp_) vartab = editVartab var (fun each => { tmp_ with var := each.var }) vartab := by
    rw [editVartab_found found fun each => { tmp_ with var := each.var }, <- same]
  rw [edits, @find_editVartab (fun each => { tmp_ with var := each.var }) (fun _ => rfl)]
  split
  · next like =>
    simp only [<- named_congr like, found, Option.map_some, <- same]
  · rfl

theorem line_vartab {s line : Settings} {call : Call} (lined : s.line reload site call = .ok line) (name : CString) :
    match lineFor site name call with
    | some val => entryLine reload (s.vartab.find? (·.named name)) val = .ok (line.vartab.find? (·.named name))
    | none => line.vartab.find? (·.named name) = s.vartab.find? (·.named name) := by
  unfold Settings.line at lined
  unfold lineFor
  split at lined
  · next kind =>
    rw [Settings.parameterLine] at lined
    cases found : s.vartab.find? (·.named call.var) with
    | none =>
      rw [found] at lined
      cases lined
    | some tmp =>
      rw [found] at lined
      obtain ⟨tmp_, stepped, ends⟩ := bind_eq_ok.mp lined
      cases ends
      have replaced := @find_replaced _ name _ _ _ found (line_var stepped)
      dsimp only
      rw [replaced]
      by_cases like : strcasecmp call.var name = .eq
      · rw [if_pos ⟨kind, like⟩, if_pos like]
        have found_ : s.vartab.find? (·.named name) = some tmp := by
          simp only [<- named_congr like]
          exact found
        dsimp only
        rw [found_, entryLine, stepped]
        rfl
      · rw [if_neg (fun both => like both.2), if_neg like]
  · next kind _ =>
    cases lined
    rw [if_neg (by simp [kind])]
  · next kind _ =>
    cases lined
    rw [if_neg (by simp [kind])]
  · next kind _ =>
    cases lined
    rw [if_neg (by simp [kind])]
  · next kind _ =>
    cases lined
    rw [if_neg (by simp [kind])]
    dsimp only
    split <;> rfl
  · next notParameter _ _ _ _ =>
    cases lined
    rw [if_neg fun both => notParameter both.1]

theorem entry_view (plain : ∀ call ∈ calls, PlainCall site call) (ready : Ready st)
    (done : runCalls reload site calls st = .ok after) (name : CString) :
    (calls.filterMap (lineFor site name)).foldlM (entryLine reload) (st.vartab.find? (·.named name)) =
      .ok (after.vartab.find? (·.named name)) := by
  refine @foldlM_view Stop Driver Call _ Ready (PlainCall site) (Option Vartab) (Option CString)
    (fun st => st.vartab.find? (·.named name)) (lineFor site name) _ step_ready ?_ calls plain st after ready done
  intro st call after ready plain done
  obtain ⟨line, lined, changed⟩ := doUpsconfArgs_follows ready plain done
  rw [show after.vartab = line.vartab from congrArg Settings.vartab changed.settings]
  have result := line_vartab lined name
  cases picked : lineFor site name call <;> rw [picked] at result <;> exact result

def textKinds : List Kind :=
  [.user, .group, .chroot]

def Settings.textOf (s : Settings) : Kind -> Option CString
  | .user => s.user
  | .group => s.group
  | .chroot => s.chrootPath
  | _ => none

def Site.fixed (site : Site) : Kind -> Bool
  | .user => site.userFromCmdline
  | .group => site.groupFromCmdline
  | _ => false

theorem line_text {s line : Settings} {call : Call} (lined : s.line reload site call = .ok line) {kind : Kind}
    (text : kind ∈ textKinds) : line.textOf kind = match textFor site kind call with
      | some val => textLine reload (site.fixed kind) (s.textOf kind) val
      | none => s.textOf kind := by
  have kinds : kind = .user ∨ kind = .group ∨ kind = .chroot := by simpa [textKinds] using text
  unfold Settings.line at lined
  unfold textFor
  split at lined
  · next other =>
    have same : line.user = s.user ∧ line.group = s.group ∧ line.chrootPath = s.chrootPath := by
      unfold Settings.parameterLine at lined
      split at lined
      · cases lined
      · obtain ⟨_, _, ends⟩ := bind_eq_ok.mp lined
        cases ends
        exact ⟨rfl, rfl, rfl⟩
    rcases kinds with rfl | rfl | rfl <;> simp [other, Settings.textOf, same]
  iterate 3
    next is val =>
      cases lined
      rcases kinds with rfl | rfl | rfl <;> simp [is, val, Settings.textOf, Site.fixed]
  · next is val =>
    cases lined
    rcases kinds with rfl | rfl | rfl <;> simp [is, Settings.textOf] <;> split <;> rfl
  · next notParameter notChroot notUser notGroup notPort =>
    cases lined
    rcases kinds with rfl | rfl | rfl
    · split
      · next val picked =>
        split at picked
        · next is => exact (notUser val is picked).elim
        · cases picked
      · rfl
    · split
      · next val picked =>
        split at picked
        · next is => exact (notGroup val is picked).elim
        · cases picked
      · rfl
    · split
      · next val picked =>
        split at picked
        · next is => exact (notChroot val is picked).elim
        · cases picked
      · rfl

def portLine (reload : Bool) (port : Option CString × Option CString) (val : CString) : Option CString × Option CString :=
  if reload && port.2.isSome then port else (some val, some (shown val))

theorem line_port {s line : Settings} {call : Call} (lined : s.line reload site call = .ok line) :
    (line.devicePath, line.portInfo) = match textFor site .port call with
      | some val => portLine reload (s.devicePath, s.portInfo) val
      | none => (s.devicePath, s.portInfo) := by
  unfold Settings.line at lined
  unfold textFor portLine
  split at lined
  · next other =>
    have same : line.devicePath = s.devicePath ∧ line.portInfo = s.portInfo := by
      unfold Settings.parameterLine at lined
      split at lined
      · cases lined
      · obtain ⟨_, _, ends⟩ := bind_eq_ok.mp lined
        cases ends
        exact ⟨rfl, rfl⟩
    simp [other, same]
  · next is _ =>
    cases lined
    simp [is]
  · next is _ =>
    cases lined
    simp [is]
  · next is _ =>
    cases lined
    simp [is]
  · next is val =>
    cases lined
    simp only [is, val, if_true]
    split <;> rfl
  · next notPort =>
    cases lined
    split
    · next val picked =>
      split at picked
      · next is => exact (notPort val is picked).elim
      · cases picked
    · rfl

theorem text_view (plain : ∀ call ∈ calls, PlainCall site call) (ready : Ready st)
    (done : runCalls reload site calls st = .ok after) {kind : Kind} (text : kind ∈ textKinds) :
    after.settings.textOf kind =
      (calls.filterMap (textFor site kind)).foldl (textLine reload (site.fixed kind)) (st.settings.textOf kind) := by
  have folded := @foldlM_view Stop Driver Call _ Ready (PlainCall site) (Option CString) CString
    (fun st => st.settings.textOf kind) (textFor site kind) (fun old val => .ok (textLine reload (site.fixed kind) old val))
    step_ready ?_ calls plain st after ready done
  · have pure_ := folded.symm.trans List.foldlM_pure
    exact Except.ok.inj pure_
  · intro st call after ready plain done
    obtain ⟨line, lined, changed⟩ := doUpsconfArgs_follows ready plain done
    rw [changed.settings, line_text lined text]
    cases textFor site kind call <;> rfl

theorem port_view (plain : ∀ call ∈ calls, PlainCall site call) (ready : Ready st)
    (done : runCalls reload site calls st = .ok after) : (after.devicePath, after.getinfo portName) =
      (calls.filterMap (textFor site .port)).foldl (portLine reload) (st.devicePath, st.getinfo portName) := by
  have folded := @foldlM_view Stop Driver Call _ Ready (PlainCall site) (Option CString × Option CString) CString
    (fun st => (st.devicePath, st.getinfo portName)) (textFor site .port) (fun port val => .ok (portLine reload port val))
    step_ready ?_ calls plain st after ready done
  · have pure_ := folded.symm.trans List.foldlM_pure
    exact Except.ok.inj pure_
  · intro st call after ready plain done
    obtain ⟨line, lined, changed⟩ := doUpsconfArgs_follows ready plain done
    have result := line_port lined
    rw [<- changed.settings] at result
    cases picked : textFor site .port call <;> rw [picked] at result
    · exact result
    · exact congrArg Except.ok result.symm

end Views

end Nut.Main
