import Nut.Drivers.Reload

set_option autoImplicit false

namespace Nut.Main

section Holding

variable {Line : Type}

def inForce (held : Option Line) (lines : List Line) : Option Line :=
  held.or lines.head?

def compared (held : Option Line) (lines : List Line) : List Line :=
  if held.isSome then lines else lines.tail

def Silent (Agrees : Line -> Line -> Prop) (held : Option Line) (lines : List Line) : Prop :=
  ∀ old ∈ inForce held lines, ∀ line ∈ compared held lines, Agrees old line

theorem silent_iff {Agrees : Line -> Line -> Prop} {held : Option Line} {lines : List Line} : Silent Agrees held lines ↔
      ∀ front line back, lines = front ++ line :: back -> ∀ old ∈ inForce held front, Agrees old line := by
  unfold Silent inForce compared
  cases held with
  | some old =>
    simp only [Option.some_or, Option.isSome_some, if_true]
    constructor
    · rintro agrees front line back rfl
      exact fun each is => agrees each is line (by simp)
    · intro agrees each is line member
      obtain ⟨front, back, split⟩ := List.append_of_mem member
      exact agrees front line back split each is
  | none =>
    simp only [Option.none_or, Option.isSome_none, Bool.false_eq_true, if_false]
    constructor
    · rintro agrees front line back rfl
      cases front with
      | nil => simp
      | cons head front => exact fun each is => agrees each is line (by simp)
    · intro agrees each is line member
      cases lines with
      | nil => cases member
      | cons head lines =>
        obtain ⟨front, back, split⟩ := List.append_of_mem member
        exact agrees (head :: front) line back (by rw [List.cons_append]; exact congrArg _ split) each is

end Holding

section Definitions

variable (site : Site)

def Declared.named (name : CString) (each : Declared) : Bool :=
  strcasecmp each.name name = .eq

def Declared.overlapping (each : Declared) : Bool :=
  varValue &&& each.vartype ≠ 0

def Declared.entry (each : Declared) (val : Stored) (found : Bool) : Vartab :=
  { var := each.name, vartype := each.vartype, reloadable := each.reloadable, val, found }

def fresh (each : Declared) : Vartab :=
  each.entry .null false

def linesFor (name : CString) (calls : List Call) : List (Option CString) :=
  calls.filterMap (lineFor site name)

def textsFor (kind : Kind) (calls : List Call) : List CString :=
  calls.filterMap (textFor site kind)

def Declared.started (each : Declared) (lines : List (Option CString)) : Option CString :=
  lastRun each.overlapping (lines.filterMap id)

def Declared.held (each : Declared) (lines : List (Option CString)) : Option (Option CString) :=
  if lines = [] then none else some (each.started lines)

def Declared.Agrees (each : Declared) (old line : Option CString) : Prop :=
  ∀ old_ ∈ old, ∀ val ∈ line, each.overlapping = true ∧ strcasecmp old_ val = .eq

def Site.base : Kind -> List CString
  | .user => [site.user]
  | .group => [site.group]
  | .chroot => site.chrootPath.toList
  | _ => []

def textHeld (kind : Kind) (calls : List Call) : Option CString :=
  if site.fixed kind then (site.base kind).head? else lastRun true (site.base kind ++ textsFor site kind calls)

variable (table : List Declared)

structure NoneDiffers (first second : List Call) : Prop where
  parameters : ∀ name each, table.find? (·.named name) = some each -> each.reloadable = false ->
    Silent each.Agrees (each.held (linesFor site name first)) (linesFor site name second)
  texts : ∀ kind ∈ textKinds, Silent (strcasecmp · · = .eq) (textHeld site kind first) (textsFor site kind second)
  port : Silent (fun old val => strcasecmp (shown old) val = .eq) (textsFor site .port first).getLast? (textsFor site .port second)
  driver : ∀ progname ∈ site.prognames.head?, ∀ val ∈ textsFor site .driver second, strcasecmp progname val = .eq

structure NoneChanges (first second : List Call) : Prop where
  parameters : ∀ name each, table.find? (·.named name) = some each -> each.reloadable = false ->
    (inForce (each.held (linesFor site name first)) (linesFor site name second)).join = each.started (linesFor site name second)
  texts : ∀ kind ∈ textKinds, inForce (textHeld site kind first) (textsFor site kind second) = textHeld site kind second
  port : inForce (textsFor site .port first).getLast? (textsFor site .port second) = (textsFor site .port second).getLast?

-- What is in force, the values that the second file has behind it, and what the second file ends on by itself.
structure Setting where
  old : Option CString
  later : List CString
  same : CString -> CString -> Prop
  last : Option CString

namespace Setting

variable (s : Setting)

def Repeats : Prop :=
  (∀ old ∈ s.old, ∀ val ∈ s.later, s.same old val) ∧ s.last = s.old

def Departs : Prop :=
  ∃ old ∈ s.old, ∃ val ∈ s.later, ¬ s.same old val

def EndsElsewhere : Prop :=
  s.last ≠ s.old

end Setting

def Declared.setting (each : Declared) (first second : List (Option CString)) : Setting :=
  { old := if first = [] then second.head?.join else each.started first
    later := (if first = [] then second.tail else second).filterMap id
    same := fun old val => each.overlapping = true ∧ strcasecmp old val = .eq
    last := each.started second }

def textSetting (kind : Kind) (first second : List Call) : Setting :=
  { old := inForce (textHeld site kind first) (textsFor site kind second)
    later := compared (textHeld site kind first) (textsFor site kind second)
    same := (strcasecmp · · = .eq)
    last := textHeld site kind second }

def portSetting (first second : List Call) : Setting :=
  { old := inForce (textsFor site .port first).getLast? (textsFor site .port second)
    later := compared (textsFor site .port first).getLast? (textsFor site .port second)
    same := fun old val => strcasecmp (shown old) val = .eq
    last := (textsFor site .port second).getLast? }

def driverSetting (second : List Call) : Setting :=
  { old := site.prognames.head?, later := textsFor site .driver second, same := (strcasecmp · · = .eq)
    last := site.prognames.head? }

inductive IsSetting (first second : List Call) : Setting -> Prop where
  | parameter {name : CString} {each : Declared} (declared : table.find? (·.named name) = some each)
    (fixed : each.reloadable = false) : IsSetting first second (each.setting (linesFor site name first) (linesFor site name second))
  | text {kind : Kind} (text : kind ∈ textKinds) : IsSetting first second (textSetting site kind first second)
  | port : IsSetting first second (portSetting site first second)
  | driver : IsSetting first second (driverSetting site second)

structure LinesAgree (first second : List Call) : Prop where
  reloadable : ∀ name each, table.find? (·.named name) = some each -> each.reloadable = true ->
    Clean (linesFor site name first ++ linesFor site name second) ∧
      ∀ last ∈ (linesFor site name second).getLast?,
        each.started (linesFor site name first ++ linesFor site name second) = last ∧
          each.started (linesFor site name second) = last
  others : ∀ name each, table.find? (·.named name) = some each -> each.reloadable = false ->
    Clean (linesFor site name first) ∧ Clean (linesFor site name second)
  verdict : (∀ s, IsSetting site table first second s -> s.Repeats) ∨
    (∃ s, IsSetting site table first second s ∧ s.Departs) ∧ ∃ s, IsSetting site table first second s ∧ s.EndsElsewhere

def start (file : CString) : Except Stop Driver :=
  readUpsconf false site file (initial site table)

structure UpToDate (restarted now : Driver) : Prop where
  parameters : ∀ name each, table.find? (·.named name) = some each -> each.reloadable = false ->
    getval name now = getval name restarted
  port : now.devicePath = restarted.devicePath
  user : now.user = restarted.user
  group : now.group = restarted.group
  chroot : now.chrootPath = restarted.chrootPath

structure Unchanged (before after : Driver) : Prop where
  parameters : ∀ name each, table.find? (·.named name) = some each -> getval name after = getval name before
  port : after.devicePath = before.devicePath
  user : after.user = before.user
  group : after.group = before.group
  chroot : after.chrootPath = before.chrootPath

structure LikeRestart (first second : CString) (running restarted : Driver) (result : InstcmdResult) (now : Driver) :
    Prop where
  reloadable : ∀ name each, table.find? (·.named name) = some each -> each.reloadable = true ->
    ∀ last ∈ (linesFor site name (callsOf second)).getLast?,
      getval name now = .ofOption last ∧ getval name now = getval name restarted
  kept : ∀ name each, table.find? (·.named name) = some each -> each.reloadable = false ->
    linesFor site name (callsOf first) ≠ [] -> getval name now = getval name running
  live : ∀ name each, table.find? (·.named name) = some each -> getval name now ≠ .freed ∧ getval name restarted ≠ .freed
  verdict : result = .handled ↔ UpToDate table restarted now
  unchanged : first = second -> result = .handled ∧ Unchanged table running now

def ReloadsLikeRestart (first second : CString) : Prop :=
  ∃ running restarted result now, start site table first = .ok running ∧ start site table second = .ok restarted ∧
    handleReloadFlag site second running = .ok (result, now) ∧
    LikeRestart site table first second running restarted result now

def Unstopped {Value : Type} (result : Except Stop Value) : Prop :=
  ∀ stop, result = .error stop -> stop = .freed

-- What the two files and the driver may be.
structure Proper (first second : CString) : Prop where
  installed : ∀ progname ∈ site.prognames, ¬ (cstr "lt-").isPrefixOf progname
  separate : ∀ each ∈ table, ¬ each.named (cstr "port")
  plain : ∀ call ∈ callsOf first ++ callsOf second, PlainCall site call
  starts : Unstopped (start site table first) ∧ Unstopped (start site table second)
  reloads : ∀ running, start site table first = .ok running -> Unstopped (handleReloadFlag site second running)

end Definitions

section Settings

variable {site : Site} {table : List Declared} {first second : List Call}

theorem silent_setting (each : Declared) (first second : List (Option CString)) :
    Silent each.Agrees (each.held first) second ↔ ¬ (each.setting first second).Departs := by
  have values (old : Option CString) (lines : List (Option CString)) : (∀ line ∈ lines, each.Agrees old line) ↔
      ¬ ∃ was ∈ old, ∃ val ∈ lines.filterMap id, ¬ (each.overlapping = true ∧ strcasecmp was val = .eq) := by
    simp only [Declared.Agrees, not_exists, List.mem_filterMap, id_eq, exists_eq_right]
    constructor
    · exact fun all was ⟨is, val, member, differs⟩ => differs (all _ member was is val rfl)
    · intro all line member was is val some_
      by_contra differs
      exact all was ⟨is, val, Option.mem_def.mp some_ ▸ member, differs⟩
  unfold Silent inForce compared Declared.held Setting.Departs Declared.setting
  by_cases none_ : first = []
  · cases second with
    | nil => simp [none_]
    | cons line rest => simpa [none_] using values line rest
  · simpa [none_] using values (each.started first) second

theorem inForce_setting (each : Declared) (first second : List (Option CString)) :
    (inForce (each.held first) second).join = (each.setting first second).old := by
  unfold inForce Declared.held Declared.setting
  by_cases none_ : first = []
  · simp [none_]
  · simp [none_]

theorem noneDiffers_iff : NoneDiffers site table first second ↔ ∀ s, IsSetting site table first second s -> ¬ s.Departs := by
  have silent {Agrees : CString -> CString -> Prop} {held : Option CString} {vals : List CString} :
      Silent Agrees held vals ↔ ¬ ∃ old ∈ inForce held vals, ∃ val ∈ compared held vals, ¬ Agrees old val := by
    simp [Silent]
  constructor
  · intro differs s is
    cases is with
    | parameter declared fixed => exact (silent_setting _ _ _).mp (differs.parameters _ _ declared fixed)
    | text text => exact silent.mp (differs.texts _ text)
    | port => exact silent.mp differs.port
    | driver =>
      rintro ⟨progname, is, val, member, differs_⟩
      exact differs_ (differs.driver progname is val member)
  · intro none_
    refine ⟨fun name each declared fixed => ?_, fun kind text => ?_, silent.mpr (none_ _ .port), ?_⟩
    · exact (silent_setting _ _ _).mpr (none_ _ (.parameter declared fixed))
    · exact silent.mpr (none_ _ (.text text))
    · intro progname is val member
      by_contra differs
      exact none_ _ .driver ⟨progname, is, val, member, differs⟩

theorem noneChanges_iff : NoneChanges site table first second ↔ ∀ s, IsSetting site table first second s -> ¬ s.EndsElsewhere := by
  constructor
  · intro changes s is
    cases is with
    | parameter declared fixed =>
      have same := changes.parameters _ _ declared fixed
      rw [inForce_setting] at same
      exact not_not.mpr same.symm
    | text text => exact not_not.mpr (changes.texts _ text).symm
    | port => exact not_not.mpr changes.port.symm
    | driver => exact not_not.mpr rfl
  · intro none_
    refine ⟨fun name each declared fixed => ?_, fun kind text => ?_, (not_not.mp (none_ _ .port)).symm⟩
    · rw [inForce_setting]
      exact (not_not.mp (none_ _ (.parameter declared fixed))).symm
    · exact (not_not.mp (none_ _ (.text text))).symm

theorem repeats_iff (s : Setting) : s.Repeats ↔ ¬ s.Departs ∧ ¬ s.EndsElsewhere := by
  simp [Setting.Repeats, Setting.Departs, Setting.EndsElsewhere]

theorem verdict_iff : (NoneDiffers site table first second ↔ NoneChanges site table first second) ↔
    (∀ s, IsSetting site table first second s -> s.Repeats) ∨
      (∃ s, IsSetting site table first second s ∧ s.Departs) ∧ ∃ s, IsSetting site table first second s ∧ s.EndsElsewhere := by
  have some_ {P : Setting -> Prop} : (∃ s, IsSetting site table first second s ∧ P s) ↔
      ¬ ∀ s, IsSetting site table first second s -> ¬ P s := by
    simp
  have both : (∀ s, IsSetting site table first second s -> s.Repeats) ↔
      NoneDiffers site table first second ∧ NoneChanges site table first second := by
    simp only [repeats_iff, noneDiffers_iff, noneChanges_iff, imp_and, forall_and]
  rw [both, some_, some_, <- noneDiffers_iff, <- noneChanges_iff]
  exact iff_iff_and_or_not_and_not

end Settings

section Start

variable {reload : Bool} {site : Site} {table : List Declared} {calls : List Call} {st after : Driver} {name : CString}

theorem initial_vartab (site : Site) (table : List Declared) : (initial site table).vartab = table.map fresh := by
  have grows (vartab : List Vartab) :
      table.foldl (fun vartab each => doAddvar each.vartype each.name each.reloadable vartab) vartab = vartab ++ table.map fresh := by
    induction table generalizing vartab with
    | nil => simp
    | cons each table ih => rw [List.foldl_cons, ih, doAddvar, List.append_assoc, List.map_cons]; rfl
  exact grows []

theorem initial_find (site : Site) (table : List Declared) (name : CString) :
    (initial site table).vartab.find? (·.named name) = (table.find? (·.named name)).map fresh := by
  rw [initial_vartab, List.find?_map]
  rfl

theorem initial_ready (installed : ∀ progname ∈ site.prognames, ¬ (cstr "lt-").isPrefixOf progname)
    (separate : ∀ each ∈ table, ¬ each.named (cstr "port")) : Ready (initial site table) := by
  refine ⟨trivial, ?_, installed, ?_⟩
  · intro node member
    cases member
  · rw [initial_vartab, List.forall_mem_map]
    exact separate

theorem entries_none (lines : List (Option CString)) {cell : Option Vartab}
    (done : lines.foldlM (entryLine reload) none = .ok cell) : cell = none := by
  cases lines with
  | nil =>
    cases done
    rfl
  | cons line lines =>
    rw [List.foldlM_cons] at done
    cases done

theorem entries_some {lines : List (Option CString)} {tmp : Vartab} {cell : Option Vartab}
    (done : lines.foldlM (entryLine reload) (some tmp) = .ok cell) :
    ∃ last, cell = some last ∧ lines.foldlM (fun tmp val => tmp.line reload val) tmp = .ok last := by
  induction lines generalizing tmp with
  | nil =>
    cases done
    exact ⟨tmp, rfl, rfl⟩
  | cons line lines ih =>
    rw [List.foldlM_cons] at done
    obtain ⟨mid, stepped, rest⟩ := bind_eq_ok.mp done
    unfold entryLine at stepped
    cases moved : tmp.line reload line with
    | error stop =>
      dsimp only at stepped
      rw [moved] at stepped
      cases stepped
    | ok next =>
      dsimp only at stepped
      rw [moved] at stepped
      cases stepped
      obtain ⟨last, is, folded⟩ := ih rest
      refine ⟨last, is, ?_⟩
      rw [List.foldlM_cons, moved]
      exact folded

theorem entry_lines (plain : ∀ call ∈ calls, PlainCall site call) (ready : Ready st)
    (done : runCalls reload site calls st = .ok after) {tmp : Vartab} (found : st.vartab.find? (·.named name) = some tmp) :
    ∃ last, after.vartab.find? (·.named name) = some last ∧
      (linesFor site name calls).foldlM (fun tmp val => tmp.line reload val) tmp = .ok last := by
  have viewed := entry_view plain ready done name
  rw [found] at viewed
  exact entries_some viewed

theorem entry_missing (plain : ∀ call ∈ calls, PlainCall site call) (ready : Ready st)
    (done : runCalls reload site calls st = .ok after) {last : Vartab} (found : after.vartab.find? (·.named name) = some last) :
    ∃ tmp, st.vartab.find? (·.named name) = some tmp := by
  have viewed := entry_view plain ready done name
  cases before : st.vartab.find? (·.named name) with
  | some tmp => exact ⟨tmp, rfl⟩
  | none =>
    rw [before] at viewed
    rw [entries_none _ viewed] at found
    cases found

theorem getval_found {tmp : Vartab} (found : st.vartab.find? (·.named name) = some tmp) : getval name st = tmp.val := by
  rw [getval, found]
  rfl

variable {each : Declared}

theorem started_isSome (each : Declared) (lines : List (Option CString)) :
    (each.started lines).isSome = lines.any (·.isSome) := by
  unfold Declared.started lastRun
  cases last : (lines.filterMap id).getLast? with
  | none =>
    rw [List.getLast?_eq_none_iff, List.filterMap_eq_nil_iff] at last
    have none_ : lines.any (·.isSome) = false := by
      rw [List.any_eq_false]
      intro line member
      have is : line = none := last line member
      simp [is]
    exact none_.symm
  | some val =>
    have member : some val ∈ lines := by
      obtain ⟨line, inside, is⟩ := List.mem_filterMap.mp (List.mem_of_getLast? last)
      exact (show line = some val from is) ▸ inside
    have any_ : lines.any (·.isSome) = true := List.any_eq_true.mpr ⟨some val, member, rfl⟩
    rw [any_]
    dsimp only
    split
    · have first : val ∈ (lines.filterMap id).reverse.takeWhile fun each => strcasecmp each val = .eq := by
        obtain ⟨front, split⟩ := List.getLast?_eq_some_iff.mp last
        rw [split, List.reverse_concat, List.takeWhile_cons_of_pos (by simp)]
        exact List.mem_cons_self
      rw [List.getLast?_isSome]
      exact List.ne_nil_of_mem first
    · rfl

theorem started_entry (ready : Ready (initial site table)) (plain : ∀ call ∈ calls, PlainCall site call)
    (done : runCalls false site calls (initial site table) = .ok after) (declared : table.find? (·.named name) = some each) :
    ∃ val, after.vartab.find? (·.named name) = some (each.entry val !(linesFor site name calls).isEmpty) ∧
      (val ≠ .freed ↔ Clean (linesFor site name calls)) ∧
      (Clean (linesFor site name calls) -> val = .ofOption (each.started (linesFor site name calls))) := by
  have found : (initial site table).vartab.find? (·.named name) = some (fresh each) := by
    rw [initial_find, declared]
    rfl
  obtain ⟨last, there, lined⟩ := entry_lines plain ready done found
  obtain ⟨is, live, value⟩ := @lines_mayChange false (fresh each) last none _ rfl rfl (by simp) lined
  have clean : CleanAfter (none : Option CString).isSome (linesFor site name calls) ↔ Clean (linesFor site name calls) := by
    simp [CleanAfter]
  rw [clean] at live value
  refine ⟨last.val, ?_, live, ?_⟩
  · rw [there, is]
    rfl
  · intro holds
    rw [value holds, foldl_keepStep]
    rfl

theorem started_append (each : Declared) (front back : List (Option CString)) :
    (back.filterMap id).foldl (keepStep each.overlapping) (each.started front) = each.started (front ++ back) := by
  unfold Declared.started
  rw [<- foldl_keepStep, <- foldl_keepStep, List.filterMap_append, List.foldl_append]

theorem clean_append {front back : List (Option CString)} :
    Clean (front ++ back) ↔ Clean front ∧ CleanAfter (each.started front).isSome back := by
  have split := @cleanAfter_append false front back
  rw [Bool.false_or, <- started_isSome each] at split
  simpa [CleanAfter] using split

variable {running : Driver} {first second : List Call}

-- The driver runs with the calls of the first file, and those of the second come.
structure Begun (site : Site) (table : List Declared) (first second : List Call) (running st : Driver) : Prop where
  ready : Ready (initial site table)
  plainFirst : ∀ call ∈ first, PlainCall site call
  plainSecond : ∀ call ∈ second, PlainCall site call
  started : runCalls false site first (initial site table) = .ok running
  settings : st.settings = running.settings
  goesOn : Ready st

theorem Begun.upTo (begun : Begun site table first second running st) {front back : List Call} {call : Call}
    (split : second = front ++ call :: back) : Begun site table first front running st :=
  { begun with plainSecond := fun each member => begun.plainSecond each (split ▸ List.mem_append_left _ member) }

theorem reloaded_entry (begun : Begun site table first second running st) (done : runCalls true site second st = .ok after)
    (declared : table.find? (·.named name) = some each) (reloadable : each.reloadable = true) :
    (getval name after ≠ .freed ↔ Clean (linesFor site name first ++ linesFor site name second)) ∧
      (Clean (linesFor site name first ++ linesFor site name second) ->
        getval name after = .ofOption (each.started (linesFor site name first ++ linesFor site name second))) := by
  obtain ⟨val, found, live, value⟩ := started_entry begun.ready begun.plainFirst begun.started declared
  rw [<- show st.vartab = running.vartab from congrArg Settings.vartab begun.settings] at found
  obtain ⟨last, there, lined⟩ := entry_lines begun.plainSecond begun.goesOn done found
  rw [getval_found there, @clean_append each]
  by_cases clean : Clean (linesFor site name first)
  · have is := value clean
    have may : (each.entry val !(linesFor site name first).isEmpty).mayChange true = true := by
      simpa [Vartab.mayChange, Declared.entry] using reloadable
    have foundBefore : (each.started (linesFor site name first)).isSome = true ->
        (each.entry val !(linesFor site name first).isEmpty).found = true := by
      rw [started_isSome]
      cases linesFor site name first <;> simp [Declared.entry]
    obtain ⟨_, live_, value_⟩ := lines_mayChange may is foundBefore lined
    refine ⟨by rw [live_]; simp [clean], fun both => ?_⟩
    rw [value_ both.2, <- started_append]
    rfl
  · have freed : val = .freed := by
      by_contra other
      exact clean (live.mp other)
    have stays := @lines_freed true (each.entry val !(linesFor site name first).isEmpty) last _ freed lined
    refine ⟨?_, fun both => (clean both.1).elim⟩
    rw [stays]
    simp [freed, clean, Declared.entry]

theorem reloaded_other (begun : Begun site table first second running st) (done : runCalls true site second st = .ok after)
    (declared : table.find? (·.named name) = some each) (reloadable : each.reloadable = false) :
    ∃ tmp, after.vartab.find? (·.named name) = some tmp ∧ tmp.reloadable = false ∧ overlaps tmp = each.overlapping ∧
      (tmp.val ≠ .freed ↔ Clean (linesFor site name first)) ∧ (Clean (linesFor site name first) ->
        tmp.val = .ofOption (inForce (each.held (linesFor site name first)) (linesFor site name second)).join) := by
  obtain ⟨val, found, live, value⟩ := started_entry begun.ready begun.plainFirst begun.started declared
  rw [<- show st.vartab = running.vartab from congrArg Settings.vartab begun.settings] at found
  obtain ⟨last, there, lined⟩ := entry_lines begun.plainSecond begun.goesOn done found
  refine ⟨last, there, ?_⟩
  have fixed : (each.entry val !(linesFor site name first).isEmpty).mayChange true = false := by
    simpa [Vartab.mayChange, Declared.entry] using reloadable
  unfold Declared.held inForce
  by_cases none_ : linesFor site name first = []
  · have null : val = .null := by
      rw [value (by simp [none_, Clean]), none_]
      rfl
    have notFound : ¬ (each.entry val !(linesFor site name first).isEmpty).found = true := by simp [none_, Declared.entry]
    have result := lines_other fixed (fun _ => null) lined
    rw [if_neg notFound] at result
    rw [if_pos none_, Option.none_or]
    have clean : Clean (linesFor site name first) := by simp [none_, Clean]
    refine result ▸ ⟨reloadable, rfl, ?_, fun _ => rfl⟩
    dsimp only
    cases (linesFor site name second).head?.join <;> simp [Stored.ofOption, clean]
  · have there_ : (!(linesFor site name first).isEmpty) = true := by simpa using none_
    have result := lines_fixed fixed there_ lined
    rw [if_neg none_, Option.some_or, Option.join_some]
    exact result ▸ ⟨reloadable, rfl, live, value⟩

theorem base_head {kind : Kind} (text : kind ∈ textKinds) :
    (initial site table).settings.textOf kind = (site.base kind).head? ∧
      (site.base kind).foldl (keepStep true) none = (site.base kind).head? := by
  have kinds : kind = .user ∨ kind = .group ∨ kind = .chroot := by simpa [textKinds] using text
  rcases kinds with rfl | rfl | rfl
  · exact ⟨rfl, rfl⟩
  · exact ⟨rfl, rfl⟩
  · cases path : site.chrootPath <;> simp [Driver.settings, Settings.textOf, initial, Site.base, path, keepStep]

theorem textLine_start (old : Option CString) (val : CString) : textLine false false old val = keepStep true old val := by
  unfold textLine keepStep
  cases old <;> simp

theorem textLine_fixed (reload : Bool) (old : Option CString) (val : CString) : textLine reload true old val = old := by
  unfold textLine
  cases old <;> simp

theorem textLine_reload (old : Option CString) (val : CString) : textLine true false old val = old.or (some val) := by
  unfold textLine
  cases old <;> simp

theorem started_text (ready : Ready (initial site table)) (plain : ∀ call ∈ calls, PlainCall site call)
    (done : runCalls false site calls (initial site table) = .ok after) {kind : Kind} (text : kind ∈ textKinds) :
    after.settings.textOf kind = textHeld site kind calls := by
  obtain ⟨from_, based⟩ := @base_head site table kind text
  rw [text_view plain ready done text, from_, textHeld]
  split
  · next fixed =>
    rw [fixed]
    exact List.foldl_fixed' (textLine_fixed false _) _
  · next notFixed =>
    rw [Bool.not_eq_true] at notFixed
    rw [notFixed, <- foldl_keepStep, List.foldl_append, based]
    congr 1
    funext old val
    exact textLine_start old val

theorem foldl_or {Line : Type} (held : Option Line) (lines : List Line) :
    lines.foldl (fun old val => old.or (some val)) held = inForce held lines := by
  unfold inForce
  induction lines generalizing held with
  | nil => simp
  | cons line lines ih =>
    rw [List.foldl_cons, ih]
    cases held <;> simp

theorem reloaded_text (plain : ∀ call ∈ calls, PlainCall site call) (ready : Ready st)
    (done : runCalls true site calls st = .ok after) {kind : Kind} (text : kind ∈ textKinds)
    (there : site.fixed kind = true -> (st.settings.textOf kind).isSome = true) :
    after.settings.textOf kind = inForce (st.settings.textOf kind) (textsFor site kind calls) := by
  rw [text_view plain ready done text]
  cases fixed : site.fixed kind with
  | true =>
    obtain ⟨old, is⟩ := Option.isSome_iff_exists.mp (there fixed)
    rw [is, List.foldl_fixed' (textLine_fixed true _)]
    rfl
  | false =>
    rw [<- foldl_or]
    congr 1
    funext old val
    exact textLine_reload old val

theorem textHeld_there {kind : Kind} (calls : List Call) (fixed : site.fixed kind = true) :
    (textHeld site kind calls).isSome = true := by
  rw [textHeld, if_pos fixed]
  cases kind <;> first | rfl | simp [Site.fixed] at fixed

theorem started_port (ready : Ready (initial site table)) (plain : ∀ call ∈ calls, PlainCall site call)
    (done : runCalls false site calls (initial site table) = .ok after) :
    after.devicePath = (textsFor site .port calls).getLast? ∧
      after.getinfo portName = (textsFor site .port calls).getLast?.map shown := by
  have viewed := port_view plain ready done
  have last (vals : List CString) :
      vals.foldl (portLine false) (none, none) = (vals.getLast?, vals.getLast?.map shown) := by
    induction vals using List.reverseRecOn with
    | nil => rfl
    | append_singleton vals val _ =>
      rw [List.foldl_append, List.getLast?_concat]
      rfl
  rw [show ((initial site table).devicePath, (initial site table).getinfo portName) = (none, none) from rfl, last] at viewed
  exact Prod.mk.inj viewed

theorem reloaded_port (plain : ∀ call ∈ calls, PlainCall site call) (ready : Ready st)
    (done : runCalls true site calls st = .ok after) (info : st.getinfo portName = st.devicePath.map shown) :
    after.devicePath = inForce st.devicePath (textsFor site .port calls) ∧
      after.getinfo portName = (inForce st.devicePath (textsFor site .port calls)).map shown := by
  have viewed := port_view plain ready done
  rw [info] at viewed
  have holds (port : Option CString) (vals : List CString) :
      vals.foldl (portLine true) (port, port.map shown) = (inForce port vals, (inForce port vals).map shown) := by
    rw [<- foldl_or]
    induction vals generalizing port with
    | nil => rfl
    | cons val vals ih =>
      have stepped : portLine true (port, port.map shown) val = (port.or (some val), (port.or (some val)).map shown) := by
        cases port <;> rfl
      rw [List.foldl_cons, List.foldl_cons, stepped, ih]
  rw [holds] at viewed
  exact Prod.mk.inj viewed

end Start

section Verdict

variable {site : Site} {table : List Declared} {first second : List Call} {st after running : Driver}

theorem complains_iff {s : Settings} {call : Call} : s.Complains site call ↔
    (∃ line, lineFor site call.var call = some line ∧
      ∃ tmp ∈ s.vartab.find? (·.named call.var), tmp.verdict true line = .ok .complain) ∨
    (∃ kind ∈ textKinds, ∃ val, textFor site kind call = some val ∧ TextComplains (s.textOf kind) val) ∨
    (∃ val, textFor site .port call = some val ∧ TextComplains s.portInfo val) ∨
    (∃ val, textFor site .driver call = some val ∧ TextComplains s.prognames.head? val) := by
  unfold Settings.Complains lineFor textFor
  cases kind : call.kind site <;> cases val : call.val <;> simp [textKinds, Settings.textOf]

theorem line_prognames {reload : Bool} {s line : Settings} {call : Call} (lined : s.line reload site call = .ok line) :
    line.prognames = s.prognames := by
  unfold Settings.line at lined
  split at lined
  · unfold Settings.parameterLine at lined
    split at lined
    · cases lined
    · obtain ⟨_, _, ends⟩ := bind_eq_ok.mp lined
      cases ends
      rfl
  · cases lined
    rfl
  · cases lined
    rfl
  · cases lined
    rfl
  · cases lined
    split <;> rfl
  · cases lined
    rfl

theorem run_ready {reload : Bool} {calls : List Call} (plain : ∀ call ∈ calls, PlainCall site call) (ready : Ready st)
    (done : runCalls reload site calls st = .ok after) : Ready after ∧ after.prognames = st.prognames := by
  refine @foldlM_within Stop Driver Call _ (fun mid => Ready mid ∧ mid.prognames = st.prognames) (PlainCall site)
    ?_ calls plain st after ⟨ready, rfl⟩ done
  rintro mid call next ⟨ready_, same⟩ fits stepped
  obtain ⟨line, lined, changed⟩ := doUpsconfArgs_follows ready_ fits stepped
  refine ⟨changed.ready ready_, ?_⟩
  exact ((congrArg Settings.prognames changed.settings).trans (line_prognames lined)).trans same

theorem run_prefix {reload : Bool} {front back : List Call} (done : runCalls reload site (front ++ back) st = .ok after) :
    ∃ before, runCalls reload site front st = .ok before := by
  unfold runCalls at done
  rw [List.foldlM_append] at done
  obtain ⟨before, reached, _⟩ := bind_eq_ok.mp done
  exact ⟨before, reached⟩

theorem run_restart {calls : List Call} (plain : ∀ call ∈ calls, PlainCall site call) (ready : Ready st)
    (done : runCalls true site calls st = .ok after) (start_ : st.reloadRequiresRestart < 1) :
    after.reloadRequiresRestart < 1 ↔ ∀ front call back before, calls = front ++ call :: back ->
      runCalls true site front st = .ok before -> ¬ before.settings.Complains site call := by
  have happens := @foldlM_happens Stop Driver Call _ Ready (PlainCall site) (fun st => 1 ≤ st.reloadRequiresRestart)
    (fun st call => st.settings.Complains site call) step_ready ?_ calls plain st after ready done
  · rw [<- Int.not_le, happens]
    have none_ : ¬ 1 ≤ st.reloadRequiresRestart := by omega
    simp only [none_, false_or, not_exists, not_and]
    rfl
  · intro mid call next ready_ fits stepped
    obtain ⟨_, _, changed⟩ := doUpsconfArgs_follows ready_ fits stepped
    rw [changed.restart]
    simp

theorem verdict_complains {tmp : Vartab} {each : Declared} {old line : Option CString} (is : tmp.val = .ofOption old)
    (overlapping : overlaps tmp = each.overlapping) (fixed : tmp.reloadable = false) :
    tmp.verdict true line = .ok .complain ↔ ¬ each.Agrees old line := by
  have may : tmp.mayChange true = false := by simp [Vartab.mayChange, fixed]
  unfold Vartab.verdict Declared.Agrees
  rw [is, may, overlapping]
  cases old with
  | none =>
    cases line <;> dsimp only [Stored.ofOption] <;> split <;> simp
  | some old =>
    cases line with
    | none =>
      dsimp only [Stored.ofOption]
      split <;> simp
    | some val =>
      simp only [Stored.ofOption, Option.mem_def, Option.some.injEq, forall_eq']
      split
      · next same => simp [same]
      · next apart => simpa using apart

theorem verdict_reloadable {tmp : Vartab} {line : Option CString} (may : tmp.reloadable = true) :
    tmp.verdict true line ≠ .ok .complain := by
  have may_ : tmp.mayChange true = true := by simp [Vartab.mayChange, may]
  unfold Vartab.verdict
  rw [may_]
  split <;> simp <;> split <;> simp

structure Midway (site : Site) (first second : List Call) (now : Driver) : Prop where
  texts : ∀ kind ∈ textKinds, now.settings.textOf kind = inForce (textHeld site kind first) (textsFor site kind second)
  port : now.devicePath = inForce (textsFor site .port first).getLast? (textsFor site .port second)
  portInfo : now.settings.portInfo = (inForce (textsFor site .port first).getLast? (textsFor site .port second)).map shown
  prognames : now.prognames = site.prognames

theorem reload_midway (begun : Begun site table first second running st)
    (done : runCalls true site second st = .ok after) : Midway site first second after := by
  obtain ⟨port, info⟩ := started_port begun.ready begun.plainFirst begun.started
  rw [<- show st.devicePath = running.devicePath from congrArg Settings.devicePath begun.settings] at port
  rw [<- show st.getinfo portName = running.getinfo portName from congrArg Settings.portInfo begun.settings] at info
  obtain ⟨port_, info_⟩ := reloaded_port begun.plainSecond begun.goesOn done (info.trans (congrArg _ port.symm))
  refine ⟨?_, port ▸ port_, port ▸ info_, ?_⟩
  · intro kind text
    have held := started_text begun.ready begun.plainFirst begun.started text
    rw [<- begun.settings] at held
    rw [reloaded_text begun.plainSecond begun.goesOn done text (fun fixed => held ▸ textHeld_there first fixed), held]
  · rw [(run_ready begun.plainSecond begun.goesOn done).2,
      show st.prognames = running.prognames from congrArg Settings.prognames begun.settings,
      (run_ready begun.plainFirst begun.ready begun.started).2]
    rfl

theorem lines_reloadable {reload : Bool} {lines : List (Option CString)} {tmp last : Vartab}
    (done : lines.foldlM (fun tmp val => tmp.line reload val) tmp = .ok last) : last.reloadable = tmp.reloadable := by
  refine @foldlM_keeps Stop Vartab (Option CString) _ (fun each => each.reloadable = tmp.reloadable) ?_ lines tmp last rfl done
  intro mid line next same stepped
  unfold Vartab.line at stepped
  obtain ⟨verdict, _, rest⟩ := bind_eq_ok.mp stepped
  split at rest
  · obtain ⟨_, _, ends⟩ := bind_eq_ok.mp rest
    cases ends
    exact same
  · cases rest
    exact same

theorem entry_declared (begun : Begun site table first second running st)
    (done : runCalls true site second st = .ok after) {name : CString} {tmp : Vartab}
    (found : after.vartab.find? (·.named name) = some tmp) :
    ∃ each, table.find? (·.named name) = some each ∧ tmp.reloadable = each.reloadable := by
  obtain ⟨mid, foundMid⟩ := entry_missing begun.plainSecond begun.goesOn done found
  obtain ⟨last, foundLast, lined⟩ := entry_lines begun.plainSecond begun.goesOn done foundMid
  rw [found] at foundLast
  cases foundLast
  rw [show st.vartab = running.vartab from congrArg Settings.vartab begun.settings] at foundMid
  obtain ⟨begin_, foundBegin⟩ := entry_missing begun.plainFirst begun.ready begun.started foundMid
  obtain ⟨last, foundLast, linedFirst⟩ := entry_lines begun.plainFirst begun.ready begun.started foundBegin
  rw [foundMid] at foundLast
  cases foundLast
  rw [initial_find] at foundBegin
  obtain ⟨each, declared, is⟩ := Option.map_eq_some_iff.mp foundBegin
  refine ⟨each, declared, ?_⟩
  rw [lines_reloadable lined, lines_reloadable linedFirst, <- is]
  rfl

theorem reload_differs (begun : Begun site table first second running st)
    (done : runCalls true site second st = .ok after) (restart : st.reloadRequiresRestart < 1)
    (clean : ∀ name each, table.find? (·.named name) = some each -> each.reloadable = false -> Clean (linesFor site name first)) :
    after.reloadRequiresRestart < 1 ↔ NoneDiffers site table first second := by
  rw [run_restart begun.plainSecond begun.goesOn done restart]
  constructor
  · intro silent
    have reached {front back : List Call} {call : Call} (split : second = front ++ call :: back) :
        ∃ before, runCalls true site front st = .ok before ∧ Midway site first front before ∧
          ¬ before.settings.Complains site call := by
      obtain ⟨before, reached⟩ := run_prefix (split ▸ done)
      exact ⟨before, reached, reload_midway (begun.upTo split) reached, silent front call back before split reached⟩
    refine ⟨?_, ?_, ?_, ?_⟩
    · intro name each declared fixed
      rw [silent_iff]
      intro front_ line back_ split_ old is
      obtain ⟨front, call, back, split, picked, own⟩ := filterMap_split split_
      obtain ⟨before, reached_, _, accepts⟩ := reached split
      obtain ⟨tmp, found, fixed_, overlapping, _, value⟩ :=
        reloaded_other (begun.upTo split) reached_ declared fixed
      have val : tmp.val = .ofOption old := by
        rw [value (clean name each declared fixed), show linesFor site name front = front_ from own, is, Option.join_some]
      have same : strcasecmp call.var name = .eq ∧ call.kind site = .parameter ∧ call.val = line := by
        unfold lineFor at picked
        split at picked
        · next both => exact ⟨both.2, both.1, Option.some.inj picked⟩
        · cases picked
      by_contra apart
      refine accepts (complains_iff.mpr (.inl ⟨line, ?_, tmp, ?_, (verdict_complains val overlapping fixed_).mpr apart⟩))
      · unfold lineFor
        rw [if_pos ⟨same.2.1, strcasecmp_self _⟩, same.2.2]
      · simp only [named_congr same.1]
        exact found
    · intro kind text
      rw [silent_iff]
      intro front_ val back_ split_ old is
      obtain ⟨front, call, back, split, picked, own⟩ := filterMap_split split_
      obtain ⟨before, _, midway, accepts⟩ := reached split
      by_contra apart
      refine accepts (complains_iff.mpr (.inr (.inl ⟨kind, text, val, picked, old, ?_, apart⟩)))
      rw [midway.texts kind text, show textsFor site kind front = front_ from own]
      exact is
    · rw [silent_iff]
      intro front_ val back_ split_ old is
      obtain ⟨front, call, back, split, picked, own⟩ := filterMap_split split_
      obtain ⟨before, _, midway, accepts⟩ := reached split
      by_contra apart
      refine accepts (complains_iff.mpr (.inr (.inr (.inl ⟨val, picked, shown old, ?_, apart⟩))))
      rw [midway.portInfo, show textsFor site .port front = front_ from own, is]
      rfl
    · intro progname is val member
      obtain ⟨front_, back_, split_⟩ := List.append_of_mem member
      obtain ⟨front, call, back, split, picked, _⟩ := filterMap_split split_
      obtain ⟨before, _, midway, accepts⟩ := reached split
      by_contra apart
      refine accepts (complains_iff.mpr (.inr (.inr (.inr ⟨val, picked, progname, ?_, apart⟩))))
      rw [show before.settings.prognames = site.prognames from midway.prognames]
      exact is
  · rintro none_ front call back before split reached complains
    have midway := reload_midway (begun.upTo split) reached
    have picks {Part : Type} {pick : Call -> Option Part} {part : Part} (picked : pick call = some part) :
        second.filterMap pick = front.filterMap pick ++ part :: back.filterMap pick := by
      rw [split, List.filterMap_append, List.filterMap_cons_some picked]
    rcases complains_iff.mp complains with ⟨line, picked, tmp, found, verdict⟩ | ⟨kind, text, val, picked, old, is, apart⟩ |
      ⟨val, picked, old, is, apart⟩ | ⟨val, picked, progname, is, apart⟩
    · obtain ⟨each, declared, same⟩ := entry_declared (begun.upTo split) reached found
      cases reloadable : each.reloadable with
      | true => exact verdict_reloadable (same.trans reloadable) verdict
      | false =>
        obtain ⟨tmp_, found_, fixed, overlapping, _, value⟩ :=
          reloaded_other (begun.upTo split) reached declared reloadable
        obtain rfl : tmp_ = tmp := Option.some.inj (found_.symm.trans found)
        have apart := (verdict_complains (value (clean _ each declared reloadable)) overlapping fixed).mp verdict
        have agrees := silent_iff.mp (none_.parameters _ each declared reloadable) _ line _ (picks picked)
        cases held : inForce (each.held (linesFor site call.var first)) (front.filterMap (lineFor site call.var)) with
        | none =>
          rw [show inForce _ (linesFor site call.var front) = none from held] at apart
          exact apart (fun _ is => by cases is)
        | some old =>
          rw [show inForce _ (linesFor site call.var front) = some old from held] at apart
          exact apart (agrees old held)
    · rw [midway.texts kind text] at is
      exact apart (silent_iff.mp (none_.texts kind text) _ val _ (picks picked) old is)
    · rw [midway.portInfo] at is
      obtain ⟨raw, inside, rfl⟩ := Option.map_eq_some_iff.mp is
      exact apart (silent_iff.mp none_.port _ val _ (picks picked) raw inside)
    · rw [show before.settings.prognames = site.prognames from midway.prognames] at is
      exact apart (none_.driver progname is val (List.mem_filterMap.mpr ⟨call, by simp [split], picked⟩))

theorem ofOption_inj {first second : Option CString} : Stored.ofOption first = .ofOption second ↔ first = second := by
  cases first <;> cases second <;> simp [Stored.ofOption]

theorem upToDate_iff {restarted : Driver} (begun : Begun site table first second running st)
    (done : runCalls true site second st = .ok after)
    (restarts : runCalls false site second (initial site table) = .ok restarted)
    (clean : ∀ name each, table.find? (·.named name) = some each -> each.reloadable = false ->
      Clean (linesFor site name first) ∧ Clean (linesFor site name second)) :
    UpToDate table restarted after ↔ NoneChanges site table first second := by
  have midway := reload_midway begun done
  have texts (kind : Kind) (text : kind ∈ textKinds) := started_text begun.ready begun.plainSecond restarts text
  have port := (started_port begun.ready begun.plainSecond restarts).1
  have parameter (name : CString) (each : Declared) (declared : table.find? (·.named name) = some each)
      (fixed : each.reloadable = false) : getval name after = getval name restarted ↔
        (inForce (each.held (linesFor site name first)) (linesFor site name second)).join =
          each.started (linesFor site name second) := by
    obtain ⟨tmp, found, _, _, _, value⟩ := reloaded_other begun done declared fixed
    obtain ⟨val, found_, _, value_⟩ := started_entry begun.ready begun.plainSecond restarts declared
    rw [getval_found found, getval_found found_, value (clean name each declared fixed).1, <- ofOption_inj,
      <- value_ (clean name each declared fixed).2]
    rfl
  constructor
  · intro same
    refine ⟨fun name each declared fixed => (parameter name each declared fixed).mp (same.parameters name each declared fixed),
      ?_, ?_⟩
    · intro kind text
      rw [<- midway.texts kind text, <- texts kind text]
      have kinds : kind = .user ∨ kind = .group ∨ kind = .chroot := by simpa [textKinds] using text
      rcases kinds with rfl | rfl | rfl
      · exact same.user
      · exact same.group
      · exact same.chroot
    · rw [<- midway.port, same.port, port]
  · intro same
    have text (kind : Kind) (text : kind ∈ textKinds) : after.settings.textOf kind = restarted.settings.textOf kind := by
      rw [midway.texts kind text, texts kind text, same.texts kind text]
    refine ⟨fun name each declared fixed => (parameter name each declared fixed).mpr (same.parameters name each declared fixed),
      ?_, text .user (by decide), text .group (by decide), text .chroot (by decide)⟩
    rw [midway.port, same.port, port]

theorem stops_freed {reload : Bool} {calls : List Call} (plain : ∀ call ∈ calls, PlainCall site call) (ready : Ready st)
    (stops : runCalls reload site calls st = .error .freed) :
    ∃ front call back before, calls = front ++ call :: back ∧ runCalls reload site front st = .ok before ∧
      ∃ tmp, before.vartab.find? (·.named call.var) = some tmp ∧ tmp.val = .freed := by
  obtain ⟨front, call, back, before, split, reached, last⟩ := foldlM_stops stops
  have ready_ := (run_ready (fun each member => plain each (split ▸ List.mem_append_left _ member)) ready reached).1
  exact ⟨front, call, back, before, split, reached, (doUpsconfArgs_freed ready_ last).2⟩

theorem clean_of_append {front back : List (Option CString)} (clean : Clean (front ++ back)) : Clean front :=
  (List.pairwise_append.mp clean).1

theorem clean_back {front back : List (Option CString)} (clean : Clean (front ++ back)) : Clean back :=
  (List.pairwise_append.mp clean).2.1

theorem linesFor_split {name : CString} {front back : List Call} {call : Call} (split : second = front ++ call :: back) :
    ∃ rest, linesFor site name second = linesFor site name front ++ rest :=
  ⟨linesFor site name (call :: back), by rw [split, linesFor, linesFor, linesFor, List.filterMap_append]⟩

theorem start_clean {calls : List Call} (ready : Ready (initial site table)) (plain : ∀ call ∈ calls, PlainCall site call)
    (clean : ∀ name each, table.find? (·.named name) = some each -> Clean (linesFor site name calls)) :
    runCalls false site calls (initial site table) ≠ .error .freed := by
  intro stops
  obtain ⟨front, call, back, before, split, reached, tmp, found, freed⟩ := stops_freed plain ready stops
  have plainFront : ∀ each ∈ front, PlainCall site each := fun each member =>
    plain each (split ▸ List.mem_append_left _ member)
  obtain ⟨begin_, foundBegin⟩ := entry_missing plainFront ready reached found
  rw [initial_find] at foundBegin
  obtain ⟨each, declared, _⟩ := Option.map_eq_some_iff.mp foundBegin
  obtain ⟨val, found_, live, _⟩ := started_entry ready plainFront reached declared
  obtain ⟨rest, lines⟩ := @linesFor_split site calls call.var front back call split
  obtain rfl := Option.some.inj (found_.symm.trans found)
  exact live.mpr (clean_of_append (lines ▸ clean _ each declared)) freed

theorem reload_clean (begun : Begun site table first second running st)
    (reloadable : ∀ name each, table.find? (·.named name) = some each -> each.reloadable = true ->
      Clean (linesFor site name first ++ linesFor site name second))
    (others : ∀ name each, table.find? (·.named name) = some each -> each.reloadable = false -> Clean (linesFor site name first)) :
    runCalls true site second st ≠ .error .freed := by
  intro stops
  obtain ⟨front, call, back, before, split, reached, tmp, found, freed⟩ := stops_freed begun.plainSecond begun.goesOn stops
  obtain ⟨each, declared, same⟩ := entry_declared (begun.upTo split) reached found
  obtain ⟨rest, lines⟩ := @linesFor_split site second call.var front back call split
  cases may : each.reloadable with
  | true =>
    have live := (reloaded_entry (begun.upTo split) reached declared may).1
    rw [getval_found found] at live
    refine live.mpr ?_ freed
    have clean := reloadable _ each declared may
    rw [lines, <- List.append_assoc] at clean
    exact clean_of_append clean
  | false =>
    obtain ⟨tmp_, found_, _, _, live, _⟩ := reloaded_other (begun.upTo split) reached declared may
    obtain rfl : tmp_ = tmp := Option.some.inj (found_.symm.trans found)
    exact live.mpr (others _ each declared may) freed

def reloading (running : Driver) : Driver :=
  { running with reloadRequiresRestart := -1 }

structure Runs (site : Site) (table : List Declared) (first second : List Call) (running restarted now : Driver) : Prop where
  begun : Begun site table first second running (reloading running)
  restarts : runCalls false site second (initial site table) = .ok restarted
  reloads : runCalls true site second (reloading running) = .ok now

section Compared

variable {restarted now : Driver} (runs : Runs site table first second running restarted now)

include runs

variable {name : CString} {each : Declared}

theorem Runs.reloadable (declared : table.find? (·.named name) = some each) (reloadable : each.reloadable = true) :
    (getval name now ≠ .freed ↔ Clean (linesFor site name first ++ linesFor site name second)) ∧
      (Clean (linesFor site name first ++ linesFor site name second) ->
        getval name now = .ofOption (each.started (linesFor site name first ++ linesFor site name second))) :=
  reloaded_entry runs.begun runs.reloads declared reloadable

theorem Runs.other (declared : table.find? (·.named name) = some each) (fixed : each.reloadable = false) :
    (getval name now ≠ .freed ↔ Clean (linesFor site name first)) ∧
      (Clean (linesFor site name first) -> getval name now =
        .ofOption (inForce (each.held (linesFor site name first)) (linesFor site name second)).join) := by
  obtain ⟨tmp, found, _, _, live, value⟩ := reloaded_other runs.begun runs.reloads declared fixed
  rw [getval_found found]
  exact ⟨live, value⟩

theorem Runs.running_value (declared : table.find? (·.named name) = some each) (clean : Clean (linesFor site name first)) :
    getval name running = .ofOption (each.started (linesFor site name first)) := by
  obtain ⟨val, found, _, value⟩ := started_entry runs.begun.ready runs.begun.plainFirst runs.begun.started declared
  rw [getval_found found, <- value clean]
  rfl

theorem Runs.restarted_value (declared : table.find? (·.named name) = some each) :
    (getval name restarted ≠ .freed ↔ Clean (linesFor site name second)) ∧ (Clean (linesFor site name second) ->
      getval name restarted = .ofOption (each.started (linesFor site name second))) := by
  obtain ⟨val, found, live, value⟩ := started_entry runs.begun.ready runs.begun.plainSecond runs.restarts declared
  rw [getval_found found]
  exact ⟨live, value⟩

theorem Runs.verdicts (clean : ∀ name each, table.find? (·.named name) = some each -> each.reloadable = false ->
      Clean (linesFor site name first) ∧ Clean (linesFor site name second)) :
    (now.reloadRequiresRestart < 1 ↔ NoneDiffers site table first second) ∧
      (UpToDate table restarted now ↔ NoneChanges site table first second) := by
  constructor
  · refine reload_differs runs.begun runs.reloads (by decide : (-1 : Int) < 1) ?_
    exact fun name each declared fixed => (clean name each declared fixed).1
  · exact upToDate_iff runs.begun runs.reloads runs.restarts clean

theorem Runs.value_agrees (agree : LinesAgree site table first second) (declared : table.find? (·.named name) = some each) :
    getval name now ≠ .freed ∧ getval name restarted ≠ .freed := by
  cases may : each.reloadable with
  | true =>
    have clean := (agree.reloadable name each declared may).1
    exact ⟨(runs.reloadable declared may).1.mpr clean, (runs.restarted_value declared).1.mpr (clean_back clean)⟩
  | false =>
    obtain ⟨cleanFirst, cleanSecond⟩ := agree.others name each declared may
    exact ⟨(runs.other declared may).1.mpr cleanFirst, (runs.restarted_value declared).1.mpr cleanSecond⟩

end Compared

theorem lastRun_twice (compares : Bool) (vals : List CString) : lastRun compares (vals ++ vals) = lastRun compares vals := by
  unfold lastRun
  rw [List.getLast?_append, Option.or_self]
  cases vals.getLast? with
  | none => rfl
  | some last =>
    dsimp only
    split
    · rw [List.reverse_append, List.takeWhile_append]
      split
      · next whole =>
        have all_ : (vals.reverse.takeWhile fun val => strcasecmp val last = .eq) = vals.reverse :=
          (List.takeWhile_prefix _).eq_of_length whole
        rw [all_, List.getLast?_append, Option.or_self]
      · rfl
    · rfl

theorem noneChanges_same (site : Site) (table : List Declared) (calls : List Call) : NoneChanges site table calls calls := by
  refine ⟨?_, ?_, ?_⟩
  · intro name each _ _
    unfold inForce Declared.held
    split
    · next none_ =>
      rw [none_]
      rfl
    · rfl
  · intro kind _
    unfold inForce
    cases held : textHeld site kind calls with
    | some val => rfl
    | none =>
      rw [textHeld] at held
      split at held
      · next fixed =>
        have there := @textHeld_there site kind calls fixed
        rw [textHeld, if_pos fixed, held] at there
        cases there
      · have none_ : (site.base kind ++ textsFor site kind calls).getLast? = none := by
          unfold lastRun at held
          cases last : (site.base kind ++ textsFor site kind calls).getLast? with
          | none => rfl
          | some val =>
            rw [last] at held
            dsimp only at held
            rw [if_pos rfl, List.getLast?_eq_none_iff] at held
            obtain ⟨front, split⟩ := List.getLast?_eq_some_iff.mp last
            rw [split, List.reverse_concat, List.takeWhile_cons_of_pos (by simp)] at held
            cases held
        rw [List.getLast?_eq_none_iff, List.append_eq_nil_iff] at none_
        rw [none_.2]
        rfl
  · unfold inForce
    cases last : (textsFor site .port calls).getLast? with
    | some val => rfl
    | none =>
      rw [List.getLast?_eq_none_iff] at last
      rw [last]
      rfl

theorem Runs.unchanged {restarted now : Driver} (runs : Runs site table first first running restarted now)
    (agree : LinesAgree site table first first) : Unchanged table running now := by
  have midway := reload_midway runs.begun runs.reloads
  have same := noneChanges_same site table first
  have text (kind : Kind) (text : kind ∈ textKinds) : now.settings.textOf kind = running.settings.textOf kind := by
    rw [midway.texts kind text, same.texts kind text, started_text runs.begun.ready runs.begun.plainFirst runs.begun.started text]
  refine ⟨?_, ?_, text .user (by decide), text .group (by decide), text .chroot (by decide)⟩
  · intro name each declared
    cases may : each.reloadable with
    | true =>
      have clean := (agree.reloadable name each declared may).1
      rw [(runs.reloadable declared may).2 clean, runs.running_value declared (clean_of_append clean), Declared.started,
        List.filterMap_append, lastRun_twice]
      rfl
    | false =>
      have clean := (agree.others name each declared may).1
      rw [(runs.other declared may).2 clean, runs.running_value declared clean, same.parameters name each declared may]
  · rw [midway.port, same.port, (started_port runs.begun.ready runs.begun.plainFirst runs.begun.started).1]

end Verdict

section Files

variable {site : Site} {table : List Declared} {first second : CString}

theorem handleReloadFlag_ok {running now : Driver} {result : InstcmdResult} :
    handleReloadFlag site second running = .ok (result, now) ↔
      runCalls true site (callsOf second) (reloading running) = .ok now ∧
        result = if now.reloadRequiresRestart < 1 then .handled else .invalid := by
  unfold handleReloadFlag
  rw [bind_eq_ok]
  constructor
  · rintro ⟨after, read, ends⟩
    cases ends
    exact ⟨read, rfl⟩
  · rintro ⟨read, rfl⟩
    exact ⟨now, read, rfl⟩

theorem handled_iff {now : Driver} {result : InstcmdResult}
    (is : result = if now.reloadRequiresRestart < 1 then .handled else .invalid) :
    result = .handled ↔ now.reloadRequiresRestart < 1 := by
  rw [is]
  split
  · next low => simp [low]
  · next high => simp [high]

theorem Proper.begun (proper : Proper site table first second) {running : Driver}
    (started : start site table first = .ok running) :
    Begun site table (callsOf first) (callsOf second) running (reloading running) := by
  have ready := initial_ready proper.installed proper.separate
  obtain ⟨plainFirst, plainSecond⟩ := List.forall_mem_append.mp proper.plain
  exact ⟨ready, plainFirst, plainSecond, started, rfl, (run_ready plainFirst ready started).1.of rfl rfl rfl⟩

theorem Proper.runs (proper : Proper site table first second) {running restarted now : Driver}
    (started : start site table first = .ok running) (restarts : start site table second = .ok restarted)
    (reloads : runCalls true site (callsOf second) (reloading running) = .ok now) :
    Runs site table (callsOf first) (callsOf second) running restarted now :=
  ⟨proper.begun started, restarts, reloads⟩

theorem agree_of_like (proper : Proper site table first second) (like : ReloadsLikeRestart site table first second) :
    LinesAgree site table (callsOf first) (callsOf second) := by
  obtain ⟨running, restarted, result, now, started, restarts, handled, like⟩ := like
  obtain ⟨reloads, is⟩ := handleReloadFlag_ok.mp handled
  have runs := proper.runs started restarts reloads
  have others (name : CString) (each : Declared) (declared : table.find? (·.named name) = some each)
      (fixed : each.reloadable = false) :
      Clean (linesFor site name (callsOf first)) ∧ Clean (linesFor site name (callsOf second)) := by
    obtain ⟨liveNow, liveRestarted⟩ := like.live name each declared
    exact ⟨(runs.other declared fixed).1.mp liveNow, (runs.restarted_value declared).1.mp liveRestarted⟩
  refine ⟨?_, others, ?_⟩
  · intro name each declared may
    obtain ⟨live, value⟩ := runs.reloadable declared may
    have clean := live.mp (like.live name each declared).1
    refine ⟨clean, fun last is => ?_⟩
    obtain ⟨lastLine, alike⟩ := like.reloadable name each declared may last is
    rw [value clean, ofOption_inj] at lastLine
    rw [value clean, (runs.restarted_value declared).2 (clean_back clean), ofOption_inj] at alike
    exact ⟨lastLine, alike.symm.trans lastLine⟩
  · obtain ⟨differs, changes⟩ := runs.verdicts others
    rw [<- verdict_iff, <- differs, <- changes, <- handled_iff is, like.verdict]

theorem like_of_agree (proper : Proper site table first second)
    (agree : LinesAgree site table (callsOf first) (callsOf second)) : ReloadsLikeRestart site table first second := by
  have ready := initial_ready proper.installed proper.separate
  have runs_ {Value : Type} {result : Except Stop Value} (unstopped : Unstopped result) (clean : result ≠ .error .freed) :
      ∃ value, result = .ok value := by
    cases result with
    | ok value => exact ⟨value, rfl⟩
    | error stop => exact absurd (congrArg _ (unstopped stop rfl)) clean
  have cleanFirst (name : CString) (each : Declared) (declared : table.find? (·.named name) = some each) :
      Clean (linesFor site name (callsOf first)) ∧ Clean (linesFor site name (callsOf second)) := by
    cases may : each.reloadable with
    | true =>
      have clean := (agree.reloadable name each declared may).1
      exact ⟨clean_of_append clean, clean_back clean⟩
    | false => exact agree.others name each declared may
  obtain ⟨plainFirst, plainSecond⟩ := List.forall_mem_append.mp proper.plain
  obtain ⟨running, started⟩ := runs_ proper.starts.1
    (start_clean ready plainFirst fun name each declared => (cleanFirst name each declared).1)
  obtain ⟨restarted, restarts⟩ := runs_ proper.starts.2
    (start_clean ready plainSecond fun name each declared => (cleanFirst name each declared).2)
  have clean : handleReloadFlag site second running ≠ .error .freed := by
    intro stops
    rcases bind_stops stops with read | ⟨_, _, ends⟩
    · refine reload_clean (proper.begun started) ?_ ?_ read
      · exact fun name each declared may => (agree.reloadable name each declared may).1
      · exact fun name each declared fixed => (agree.others name each declared fixed).1
    · cases ends
  obtain ⟨⟨result, now⟩, handled⟩ := runs_ (proper.reloads running started) clean
  obtain ⟨reloads, is⟩ := handleReloadFlag_ok.mp handled
  have runs := proper.runs started restarts reloads
  obtain ⟨differs, changes⟩ := runs.verdicts agree.others
  have verdict := verdict_iff.mpr agree.verdict
  refine ⟨running, restarted, result, now, started, restarts, handled, ?_⟩
  refine ⟨?_, ?_, fun name each declared => runs.value_agrees agree declared, ?_, ?_⟩
  · intro name each declared may last is_
    obtain ⟨cleanLines, spelled⟩ := agree.reloadable name each declared may
    obtain ⟨both, alone⟩ := spelled last is_
    rw [(runs.reloadable declared may).2 cleanLines, (runs.restarted_value declared).2 (clean_back cleanLines), both, alone]
    exact ⟨rfl, rfl⟩
  · intro name each declared fixed set_
    have clean_ := (agree.others name each declared fixed).1
    rw [(runs.other declared fixed).2 clean_, runs.running_value declared clean_, Declared.held, if_neg set_]
    rfl
  · rw [handled_iff is, differs, changes]
    exact verdict
  · rintro rfl
    refine ⟨(handled_iff is).mpr (differs.mpr (verdict.mpr (noneChanges_same site table _))), runs.unchanged agree⟩

end Files

def exampleSite : Site :=
  { upsname := cstr "u", prognames := [cstr "usbhid-ups"], user := cstr "nut", userFromCmdline := false, group := cstr "nut",
    groupFromCmdline := false, chrootPath := none }

def exampleTable : List Declared :=
  [{ vartype := varValue, name := cstr "offdelay", reloadable := true },
    { vartype := varFlag, name := cstr "pollonly", reloadable := false }]

def reloaded (site : Site) (table : List Declared) (first second name : CString) : Except Stop (InstcmdResult × Stored) := do
  let running <- start site table first
  let (result, now) <- handleReloadFlag site second running
  pure (result, getval name now)

theorem reloaded_like {site : Site} {table : List Declared} {first second name : CString} {result : InstcmdResult}
    {val : Stored} (is : reloaded site table first second name = .ok (result, val))
    (like : ReloadsLikeRestart site table first second) :
    (∀ each, table.find? (·.named name) = some each -> val ≠ .freed) ∧ (first = second -> result = .handled) := by
  obtain ⟨running, restarted, result_, now, started, _, handled, like⟩ := like
  obtain ⟨running_, started_, rest⟩ := bind_eq_ok.mp is
  rw [started] at started_
  cases started_
  obtain ⟨_, handled_, ends⟩ := bind_eq_ok.mp rest
  rw [handled] at handled_
  cases handled_
  cases ends
  exact ⟨fun each declared => (like.live name each declared).1, fun same => (like.unchanged same).1⟩

end Nut.Main
