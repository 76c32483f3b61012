import Mathlib.Data.List.Induction
import Mathlib.Data.List.Nodup
import Nut.Library.Runs
import Nut.Clients.Upssched

set_option autoImplicit false

namespace Nut

-- What stays of a timer while it is queued; START-SHARED adds to the rest.
def Timer.key (tmp : Timer) : Nat × CString × Int :=
  (tmp.id, tmp.name, tmp.etime)

structure Upssched.Ordered (s : Upssched) : Prop where
  ids : s.thead.Pairwise fun a b => a.id < b.id
  queued : ∀ tmp ∈ s.thead, tmp.id < s.nextId ∧ tmp.name ≠ []
  past : ∀ item, .timer item ∈ s.executed -> item.id < s.nextId ∧ ∀ tmp ∈ s.thead, tmp.id ≠ item.id
  idle : s.exited = true -> s.thead = []

section Loops

variable {s : Upssched} {before rest : List Timer} {tmp : Timer}

theorem removetimer_at (here : s.thead = before ++ tmp :: rest) (ids : s.thead.Pairwise fun a b => a.id < b.id) :
    removetimer s tmp.id = { s with thead := before ++ rest } := by
  rw [here, List.pairwise_append] at ids
  obtain ⟨_, _, apart⟩ := ids
  have absent : ∀ other ∈ before, ¬ (other.id == tmp.id) = true := by
    intro other member same
    have less := apart other member tmp List.mem_cons_self
    rw [beq_iff_eq] at same
    omega
  simp [removetimer, here, List.eraseP_append_right _ absent]

theorem pairwise_without (ids : (before ++ tmp :: rest).Pairwise fun a b => a.id < b.id) :
    (before ++ rest).Pairwise fun a b : Timer => a.id < b.id :=
  ids.sublist (List.Sublist.append_left (List.sublist_cons_self tmp rest) before)

theorem checktimersLoop_eq (now : Int) (here : s.thead = before ++ rest)
    (ids : s.thead.Pairwise fun a b => a.id < b.id) (named : ∀ tmp ∈ rest, tmp.name ≠ []) : checktimersLoop now rest s =
      { s with
        thead := before ++ rest.filter fun tmp => now < tmp.etime
        executed := s.executed ++ (rest.filter fun tmp => tmp.etime ≤ now).map .timer } := by
  induction rest generalizing s before with
  | nil => simp [checktimersLoop, <- here]
  | cons tmp rest ih =>
    have name := named tmp List.mem_cons_self
    have later : ∀ other ∈ rest, other.name ≠ [] := fun other member => named other (List.mem_cons_of_mem _ member)
    by_cases due : now ≥ tmp.etime
    · have executed : execCmdTimer s tmp = { s with executed := s.executed ++ [.timer tmp] } := by
        simp [execCmdTimer, name]
      have removed := removetimer_at (s := execCmdTimer s tmp) (by rw [executed]; exact here)
        (by rw [executed]; exact ids)
      rw [executed] at removed
      have without := pairwise_without (here ▸ ids)
      have next := ih (s := { s with thead := before ++ rest, executed := s.executed ++ [.timer tmp] }) rfl without later
      have notLater : ¬ now < tmp.etime := by omega
      simp only [checktimersLoop, due, if_true, executed, removed, next]
      simp [due, notLater]
    · have stays := ih (show s.thead = (before ++ [tmp]) ++ rest by simp [here]) ids later
      have waits : now < tmp.etime := by omega
      simp only [checktimersLoop, due, if_false, stays]
      simp [due, waits]

theorem checktimers_eq (now : Int) (ids : s.thead.Pairwise fun a b => a.id < b.id)
    (named : ∀ tmp ∈ s.thead, tmp.name ≠ []) : ∃ emptyctr exited, checktimers now s =
      { s with
        thead := s.thead.filter fun tmp => now < tmp.etime
        executed := s.executed ++ (s.thead.filter fun tmp => tmp.etime ≤ now).map .timer
        emptyctr, exited } ∧ (exited = true -> s.thead = [] ∨ s.exited = true) := by
  unfold checktimers
  split
  next empty => exact ⟨s.emptyctr + 1, decide (emptyWait ≤ s.emptyctr + 1), by simp [empty], fun _ => Or.inl empty⟩
  next =>
      have loop := checktimersLoop_eq (s := { s with emptyctr := 0 }) now (show _ = [] ++ s.thead from rfl) ids named
      exact ⟨0, s.exited, by simpa using loop, Or.inr⟩

theorem cancelLoop_eq {kept : Nat -> Bool} {cancel : Cancel} (here : s.thead = before ++ rest)
    (ids : s.thead.Pairwise fun a b => a.id < b.id) (safe : ∀ tmp ∈ rest, cancel.hits tmp = true -> kept tmp.id = true) :
    cancelLoop kept cancel rest s = some { s with thead := before ++ rest.filter fun tmp => !cancel.hits tmp } := by
  induction rest generalizing s before with
  | nil => simp [cancelLoop, <- here]
  | cons tmp rest ih =>
    have later : ∀ other ∈ rest, cancel.hits other = true -> kept other.id = true :=
      fun other member => safe other (List.mem_cons_of_mem _ member)
    by_cases hit : cancel.hits tmp = true
    · have keeps := safe tmp List.mem_cons_self hit
      have without := pairwise_without (here ▸ ids)
      have next := ih (s := { s with thead := before ++ rest }) rfl without later
      simp only [cancelLoop, hit, keeps, if_true, removetimer_at here ids, next]
      simp [hit]
    · have stays := ih (show s.thead = (before ++ [tmp]) ++ rest by simp [here]) ids later
      simp only [cancelLoop, hit, Bool.false_eq_true, if_false, stays]
      simp [hit]

def Timer.Takes (notifytype upsname notifymsg : CString) (tmp : Timer) : Prop :=
  (notifytype = [] ∨ notifytype ∈ tmp.notifytypes ∨ tmp.notifytypes = []) ∧
    (upsname = [] ∨ upsname ∈ tmp.upsnames ∨ tmp.upsnames = []) ∧
    (notifymsg = [] ∨ notifymsg ∈ tmp.notifymsgs ∨ tmp.notifymsgs = [])

theorem addString_some {list : List CString} {val : CString} :
    (∃ list', addString list val = some list') ↔ val = [] ∨ val ∈ list ∨ list = [] := by
  have small : ¬ list.length + 2 ≤ (list.length + 2) / pointerSize := by
    unfold pointerSize
    omega
  unfold addString
  rw [if_neg small]
  by_cases old : val = [] ∨ val ∈ list
  · rw [if_pos old]
    exact ⟨fun _ => or_assoc.mp (Or.inl old), fun _ => ⟨list, rfl⟩⟩
  · rw [if_neg old]
    by_cases empty : list = []
    · rw [if_pos empty]
      exact ⟨fun _ => Or.inr (Or.inr empty), fun _ => ⟨[val], rfl⟩⟩
    · rw [if_neg empty]
      exact ⟨fun ⟨_, none_⟩ => by simp at none_, fun room => absurd (or_assoc.mpr room) (not_or.mpr ⟨old, empty⟩)⟩

theorem share_some {notifytype upsname notifymsg : CString} {tmp : Timer} :
    (∃ tmp', tmp.share notifytype upsname notifymsg = some tmp') ↔ tmp.Takes notifytype upsname notifymsg := by
  unfold Timer.share Timer.Takes
  rw [<- addString_some, <- addString_some, <- addString_some]
  simp only [bind, Option.bind_eq_some_iff, pure, Option.some.injEq]
  constructor
  · rintro ⟨_, types, types_, msgs, msgs_, names, names_, _⟩
    exact ⟨⟨types, types_⟩, ⟨names, names_⟩, msgs, msgs_⟩
  · rintro ⟨⟨types, types_⟩, ⟨names, names_⟩, msgs, msgs_⟩
    exact ⟨_, types, types_, msgs, msgs_, names, names_, rfl⟩

theorem share_key {notifytype upsname notifymsg : CString} {tmp tmp' : Timer}
    (shared : tmp.share notifytype upsname notifymsg = some tmp') : tmp'.key = tmp.key := by
  simp only [Timer.share, bind, Option.bind_eq_some_iff, pure, Option.some.injEq] at shared
  obtain ⟨_, _, _, _, _, _, rfl⟩ := shared
  rfl

theorem shareTimer_keys {name notifytype upsname notifymsg : CString} {thead : List Timer} {tmp : Timer}
    (found : thead.find? (·.name == name) = some tmp) (takes : tmp.Takes notifytype upsname notifymsg) :
    ∃ thead', shareTimer name notifytype upsname notifymsg thead = some thead' ∧
      thead'.map Timer.key = thead.map Timer.key := by
  induction thead with
  | nil => cases found
  | cons first rest ih =>
    unfold shareTimer
    by_cases same : first.name = name
    · rw [List.find?_cons_of_pos (by simpa using same), Option.some.injEq] at found
      subst found
      obtain ⟨next, shared⟩ := share_some.mpr takes
      exact ⟨next :: rest, by rw [if_pos same, shared]; rfl, by simp [share_key shared]⟩
    · rw [List.find?_cons_of_neg (by simpa using same)] at found
      obtain ⟨thead', shared, keys⟩ := ih found
      exact ⟨first :: thead', by rw [if_neg same, shared]; rfl, by simp [keys]⟩

end Loops

def TimerInput.Served (input : TimerInput) (s s' : Upssched) : Prop :=
  match input with
  | .check now =>
    s'.thead = (s.thead.filter fun tmp => now < tmp.etime) ∧
      s'.executed = s.executed ++ (s.thead.filter fun tmp => tmp.etime ≤ now).map .timer
  | .request now _ arglist =>
    match timerRequest arglist with
    | .start name ofsstr _ _ _ sharedTimer =>
      s'.executed = s.executed ∧
        if (strtol ofsstr).toInt < 0 then s'.thead = s.thead
        else if sharedTimer = true ∧ ∃ tmp ∈ s.thead, tmp.name = name then
          s'.thead.map Timer.key = s.thead.map Timer.key
        else ∃ tmp, tmp.key = (s.nextId, name, now + (strtol ofsstr).toInt) ∧ s'.thead = s.thead ++ [tmp]
    | .cancel cancel =>
      s'.thead = (s.thead.filter fun tmp => !cancel.hits tmp) ∧
        s'.executed = s.executed ++
          if (∃ tmp ∈ s.thead, cancel.hits tmp = true) ∨ blank cancel.cname = true then []
          else [.cancelled (cancel.cname.getD [])]
    | _ => s'.thead = s.thead ∧ s'.executed = s.executed

-- Where the behaviour is defined: no CANCEL goes on from a freed record that has lost what it held, a shared timer gets
-- no second string into one of its arrays, and a new timer has a name and an end that `time_t` can hold.
def TimerInput.Safe (input : TimerInput) (s : Upssched) : Prop :=
  match input with
  | .check _ => True
  | .request now kept arglist =>
    match timerRequest arglist with
    | .start name ofsstr notifytype upsname notifymsg sharedTimer =>
      0 ≤ (strtol ofsstr).toInt ->
        match if sharedTimer then s.thead.find? (·.name == name) else none with
        | some tmp => tmp.Takes notifytype upsname notifymsg
        | none => name ≠ [] ∧ now + (strtol ofsstr).toInt ≤ timeMax
    | .cancel cancel => ∀ tmp ∈ s.thead, cancel.hits tmp = true -> kept tmp.id = true
    | .noName => False
    | _ => True

section Steps

variable {s : Upssched}

theorem ordered_filter (ordered : s.Ordered) (p : Timer -> Bool) (executed : List Executed) (emptyctr : Nat)
    (exited : Bool) (idle : exited = true -> s.thead = [])
    (past : ∀ item, .timer item ∈ executed -> item.id < s.nextId ∧ ∀ tmp ∈ s.thead.filter p, tmp.id ≠ item.id) :
    ({ s with thead := s.thead.filter p, executed, emptyctr, exited } : Upssched).Ordered :=
  ⟨ordered.ids.sublist List.filter_sublist, fun tmp member => ordered.queued tmp (List.mem_of_mem_filter member), past,
    fun gone => by simp [idle gone]⟩

theorem ordered_inj (ordered : s.Ordered) {a b : Timer} (first : a ∈ s.thead) (second : b ∈ s.thead)
    (same : a.id = b.id) : a = b := by
  have unique : (s.thead.map Timer.id).Nodup := List.pairwise_map.mpr (ordered.ids.imp Nat.ne_of_lt)
  exact List.inj_on_of_nodup_map unique first second same

theorem served_check (now : Int) (ordered : s.Ordered) :
    (TimerInput.check now).Served s (checktimers now s) ∧ (checktimers now s).Ordered ∧
      s.nextId ≤ (checktimers now s).nextId := by
  obtain ⟨emptyctr, exited, equal, gone⟩ :=
    checktimers_eq now ordered.ids fun tmp member => (ordered.queued tmp member).2
  have idle : exited = true -> s.thead = [] := fun now => (gone now).elim id ordered.idle
  rw [equal]
  refine ⟨⟨rfl, rfl⟩, ordered_filter ordered _ _ _ _ idle fun item executed => ?_, Nat.le_refl _⟩
  obtain before | here := List.mem_append.mp executed
  · obtain ⟨used, absent⟩ := ordered.past item before
    exact ⟨used, fun tmp member => absent tmp (List.mem_of_mem_filter member)⟩
  · obtain ⟨due, inside, rfl⟩ : ∃ due ∈ s.thead.filter fun tmp => tmp.etime ≤ now, due = item := by
      simpa using here
    obtain ⟨queued, late⟩ := List.mem_filter.mp inside
    refine ⟨(ordered.queued due queued).1, fun tmp member same => ?_⟩
    obtain ⟨queued', early⟩ := List.mem_filter.mp member
    obtain rfl := ordered_inj ordered queued' queued same
    simp at late early
    omega

theorem served_cancel {kept : Nat -> Bool} {cancel : Cancel} (ordered : s.Ordered)
    (safe : ∀ tmp ∈ s.thead, cancel.hits tmp = true -> kept tmp.id = true) : ∃ executed, cancelTimer kept cancel s =
        some { s with thead := s.thead.filter fun tmp => !cancel.hits tmp, executed := s.executed ++ executed } ∧
      executed = if (∃ tmp ∈ s.thead, cancel.hits tmp = true) ∨ blank cancel.cname = true then []
        else [.cancelled (cancel.cname.getD [])] := by
  have loop := cancelLoop_eq (show _ = [] ++ s.thead from rfl) ordered.ids safe
  refine ⟨_, ?_, rfl⟩
  rw [cancelTimer, loop]
  by_cases hit : ∃ tmp ∈ s.thead, cancel.hits tmp = true
  · simp [hit]
  · have none : s.thead.any cancel.hits = false := by simpa using hit
    by_cases quiet : blank cancel.cname = true <;> simp [hit, none, quiet]

theorem keys_mem {s' : Upssched} (same : s'.thead.map Timer.key = s.thead.map Timer.key) {tmp : Timer}
    (member : tmp ∈ s'.thead) : ∃ old ∈ s.thead, old.key = tmp.key := by
  have inside : tmp.key ∈ s'.thead.map Timer.key := List.mem_map_of_mem member
  rw [same] at inside
  exact List.mem_map.mp inside

theorem ordered_keys {s' : Upssched} (ordered : s.Ordered) (same : s'.thead.map Timer.key = s.thead.map Timer.key)
    (executed : s'.executed = s.executed) (nextId : s'.nextId = s.nextId) (exited : s'.exited = s.exited) :
    s'.Ordered := by
  refine ⟨?_, fun tmp member => ?_, fun item past => ?_, fun gone => ?_⟩
  · have ids : (s.thead.map Timer.key).Pairwise fun a b => a.1 < b.1 := List.pairwise_map.mpr ordered.ids
    rw [<- same, List.pairwise_map] at ids
    exact ids
  · obtain ⟨old, inside, key⟩ := keys_mem same member
    simp only [Timer.key, Prod.mk.injEq] at key
    rw [nextId, <- key.1, <- key.2.1]
    exact ordered.queued old inside
  · rw [executed] at past
    obtain ⟨used, absent⟩ := ordered.past item past
    refine ⟨nextId ▸ used, fun tmp member => ?_⟩
    obtain ⟨old, inside, key⟩ := keys_mem same member
    simp only [Timer.key, Prod.mk.injEq] at key
    rw [<- key.1]
    exact absent old inside
  · rw [ordered.idle (exited ▸ gone)] at same
    simpa using same

theorem ordered_append (ordered : s.Ordered) (running : s.exited = false) {tmp : Timer} (fresh : tmp.id = s.nextId) (named : tmp.name ≠ []) :
    ({ s with thead := s.thead ++ [tmp], nextId := s.nextId + 1 } : Upssched).Ordered := by
  refine ⟨?_, fun other member => ?_, fun item past => ?_, fun gone => by simp [running] at gone⟩
  · rw [List.pairwise_append]
    refine ⟨ordered.ids, by simp, fun other member new inside => ?_⟩
    rw [List.mem_singleton.mp inside, fresh]
    exact (ordered.queued other member).1
  · obtain old | new := List.mem_append.mp member
    · obtain ⟨used, name⟩ := ordered.queued other old
      exact ⟨Nat.lt_succ_of_lt used, name⟩
    · rw [List.mem_singleton.mp new]
      exact ⟨by simp [fresh], named⟩
  · obtain ⟨used, absent⟩ := ordered.past item past
    refine ⟨Nat.lt_succ_of_lt used, fun other member => ?_⟩
    obtain old | new := List.mem_append.mp member
    · exact absent other old
    · rw [List.mem_singleton.mp new, fresh]
      exact Nat.ne_of_gt used

theorem served_start {now : Int} {name ofsstr notifytype upsname notifymsg : CString} {sharedTimer : Bool}
    (ordered : s.Ordered) (running : s.exited = false) (safe : 0 ≤ (strtol ofsstr).toInt ->
      match if sharedTimer then s.thead.find? (·.name == name) else none with
      | some tmp => tmp.Takes notifytype upsname notifymsg
      | none => name ≠ [] ∧ now + (strtol ofsstr).toInt ≤ timeMax) :
    ∃ s', startTimer now name ofsstr notifytype upsname notifymsg sharedTimer s = some s' ∧
      s'.executed = s.executed ∧
      (if (strtol ofsstr).toInt < 0 then s'.thead = s.thead
        else if sharedTimer = true ∧ ∃ tmp ∈ s.thead, tmp.name = name then
          s'.thead.map Timer.key = s.thead.map Timer.key
        else ∃ tmp, tmp.key = (s.nextId, name, now + (strtol ofsstr).toInt) ∧ s'.thead = s.thead ++ [tmp]) ∧
      s'.Ordered ∧ s.nextId ≤ s'.nextId := by
  by_cases bogus : (strtol ofsstr).toInt < 0
  · exact ⟨s, by simp [startTimer, bogus], rfl, by simp [bogus], ordered, Nat.le_refl _⟩
  have allowed := safe (by omega)
  by_cases hit : sharedTimer = true ∧ ∃ tmp ∈ s.thead, tmp.name = name
  · have known : (sharedTimer && s.thead.any fun tmp => tmp.name == name) = true := by simpa using hit
    obtain ⟨tmp, found⟩ := Option.isSome_iff_exists.mp
      (List.find?_isSome.mpr (show ∃ tmp ∈ s.thead, (tmp.name == name) = true by simpa using hit.2))
    rw [if_pos hit.1, found] at allowed
    obtain ⟨thead, shared, same⟩ := shareTimer_keys found allowed
    refine ⟨{ s with thead }, ?_, rfl, ?_, ordered_keys ordered same rfl rfl rfl, Nat.le_refl _⟩
    · simp only [startTimer, bogus, if_false, known, if_true, shared, Option.map_some]
    · rw [if_neg bogus, if_pos hit]
      exact same
  · have absent : ¬ (sharedTimer && s.thead.any fun tmp => tmp.name == name) = true := by simpa using hit
    have none_ : (if sharedTimer then s.thead.find? (·.name == name) else none) = none := by
      split
      next shared =>
        rw [List.find?_eq_none]
        intro tmp member same
        exact hit ⟨shared, tmp, member, by simpa using same⟩
      next => rfl
    rw [none_] at allowed
    obtain ⟨named, fits⟩ := allowed
    have room : ¬ now + (strtol ofsstr).toInt > timeMax := by omega
    let tmp : Timer :=
      { id := s.nextId, name, etime := now + (strtol ofsstr).toInt, upsnames := firstString upsname,
        notifytypes := firstString notifytype, notifymsgs := firstString notifymsg }
    refine ⟨{ s with thead := s.thead ++ [tmp], nextId := s.nextId + 1 }, ?_, rfl, ?_,
      ordered_append ordered running rfl named, Nat.le_succ _⟩
    · simp only [startTimer, bogus, if_false, absent, room, tmp]
      rfl
    · rw [if_neg bogus, if_neg hit]
      exact ⟨tmp, rfl, rfl⟩

theorem served_step {input : TimerInput} (ordered : s.Ordered) (running : s.exited = false) (safe : input.Safe s) :
    ∃ s', timerStep s input = some s' ∧ input.Served s s' ∧ s'.Ordered ∧ s.nextId ≤ s'.nextId := by
  cases input with
  | check now =>
    obtain ⟨served, kept⟩ := served_check now ordered
    exact ⟨_, by simp [timerStep, running], served, kept⟩
  | request now kept arglist =>
    simp only [timerStep, running, Bool.false_eq_true, if_false, upsschedSockArg, TimerInput.Served]
    simp only [TimerInput.Safe] at safe
    cases asked : timerRequest arglist with
    | list => exact ⟨s, rfl, ⟨rfl, rfl⟩, ordered, Nat.le_refl _⟩
    | unknown => exact ⟨s, rfl, ⟨rfl, rfl⟩, ordered, Nat.le_refl _⟩
    | noName => simp [asked] at safe
    | cancel cancel =>
      simp only [asked] at safe
      obtain ⟨executed, equal, what⟩ := served_cancel ordered safe
      refine ⟨{ s with thead := s.thead.filter fun tmp => !cancel.hits tmp, executed := s.executed ++ executed },
        by simp only [equal, Option.map_some], ⟨rfl, by rw [what]⟩,
        ordered_filter ordered _ _ _ _ ordered.idle fun item past => ?_, Nat.le_refl _⟩
      have before : .timer item ∈ s.executed := by
        rw [what] at past
        split_ifs at past <;> simpa using past
      obtain ⟨used, absent⟩ := ordered.past item before
      exact ⟨used, fun tmp member => absent tmp (List.mem_of_mem_filter member)⟩
    | start name ofsstr notifytype upsname notifymsg sharedTimer =>
      simp only [asked] at safe
      obtain ⟨s', equal, executed, queue, kept⟩ := served_start ordered running safe
      exact ⟨s', by simp only [equal, Option.map_some], ⟨executed, queue⟩, kept⟩

end Steps

def Executed.isTimer (id : Nat) : Executed -> Bool
  | .timer item => item.id == id
  | .cancelled _ => false

def executions (s : Upssched) (id : Nat) : Nat :=
  s.executed.countP (Executed.isTimer id)

def Queued (timer : Timer) (s : Upssched) : Prop :=
  ∃ tmp ∈ s.thead, tmp.key = timer.key

def TimerInput.Cancels (input : TimerInput) (timer : Timer) (s : Upssched) : Prop :=
  ∃ now kept arglist cancel, input = .request now kept arglist ∧ timerRequest arglist = .cancel cancel ∧
    ∃ tmp ∈ s.thead, tmp.id = timer.id ∧ cancel.hits tmp = true

def TimerInput.Expires (input : TimerInput) (timer : Timer) : Prop :=
  ∃ now, input = .check now ∧ timer.etime ≤ now

section Fates

variable {s s' : Upssched} {input : TimerInput} {timer : Timer}

theorem executions_none (ordered : s.Ordered) (queued : Queued timer s) : executions s timer.id = 0 := by
  obtain ⟨tmp, member, key⟩ := queued
  simp only [Timer.key, Prod.mk.injEq] at key
  rw [executions, List.countP_eq_zero]
  rintro (item | cname) past
  · have absent := (ordered.past item past).2 tmp member
    simp only [Executed.isTimer, beq_iff_eq]
    omega
  · simp [Executed.isTimer]

theorem queued_filter (ordered : s.Ordered) (queued : Queued timer s) {p : Timer -> Bool}
    (thead : s'.thead = s.thead.filter p) : Queued timer s' ∨ (∀ tmp ∈ s'.thead, tmp.id ≠ timer.id) ∧
      ∃ tmp ∈ s.thead, tmp.key = timer.key ∧ p tmp = false := by
  obtain ⟨tmp, member, key⟩ := queued
  have id : tmp.id = timer.id := (Prod.mk.inj key).1
  cases stays : p tmp with
  | true => exact Or.inl ⟨tmp, by rw [thead]; exact List.mem_filter.mpr ⟨member, stays⟩, key⟩
  | false =>
    refine Or.inr ⟨fun other inside same => ?_, tmp, member, key, stays⟩
    rw [thead] at inside
    obtain ⟨old, stays'⟩ := List.mem_filter.mp inside
    obtain rfl := ordered_inj ordered old member (same.trans id.symm)
    rw [stays] at stays'
    cases stays'

theorem executions_due (ordered : s.Ordered) (now : Int) :
    (((s.thead.filter fun tmp => tmp.etime ≤ now).map Executed.timer).countP (Executed.isTimer timer.id)) =
      if ∃ tmp ∈ s.thead, tmp.id = timer.id ∧ tmp.etime ≤ now then 1 else 0 := by
  have counted : ((s.thead.filter fun tmp => tmp.etime ≤ now).map Executed.timer).countP (Executed.isTimer timer.id) =
      ((s.thead.filter fun tmp => tmp.etime ≤ now).map Timer.id).count timer.id := by
    rw [List.countP_map, List.count, List.countP_map]
    rfl
  have unique : (((s.thead.filter fun tmp => tmp.etime ≤ now)).map Timer.id).Nodup :=
    List.pairwise_map.mpr ((ordered.ids.sublist List.filter_sublist).imp Nat.ne_of_lt)
  rw [counted, unique.count]
  have inside : timer.id ∈ (s.thead.filter fun tmp => tmp.etime ≤ now).map Timer.id ↔
      ∃ tmp ∈ s.thead, tmp.id = timer.id ∧ tmp.etime ≤ now := by
    simp only [List.mem_map, List.mem_filter, decide_eq_true_eq]
    constructor
    · rintro ⟨tmp, ⟨member, due⟩, same⟩
      exact ⟨tmp, member, same, due⟩
    · rintro ⟨tmp, member, same, due⟩
      exact ⟨tmp, ⟨member, due⟩, same⟩
  simp only [inside]

theorem fate_step (ordered : s.Ordered) (served : input.Served s s') (queued : Queued timer s) :
    (Queued timer s' ∧ ¬ input.Expires timer) ∨ ((∀ tmp ∈ s'.thead, tmp.id ≠ timer.id) ∧
        (input.Expires timer ∧ executions s' timer.id = 1 ∨ input.Cancels timer s ∧ executions s' timer.id = 0)) := by
  have none := executions_none ordered queued
  have quiet {now : Int} {kept : Nat -> Bool} {arglist : List CString} :
      ¬ (TimerInput.request now kept arglist).Expires timer := by
    rintro ⟨now, same, _⟩
    cases same
  cases input with
  | check now =>
    obtain ⟨thead, executed⟩ := served
    have counted := @executions_due _ timer ordered now
    obtain stays | ⟨gone, tmp, member, key, late⟩ := queued_filter ordered queued thead
    · refine Or.inl ⟨stays, ?_⟩
      rintro ⟨_, same, due⟩
      obtain rfl := TimerInput.check.inj same
      obtain ⟨tmp, inside, key⟩ := stays
      rw [thead] at inside
      have early := (List.mem_filter.mp inside).2
      simp only [Timer.key, Prod.mk.injEq] at key
      simp only [decide_eq_true_eq] at early
      omega
    · simp only [Timer.key, Prod.mk.injEq] at key
      simp only [decide_eq_false_iff_not, Int.not_lt] at late
      refine Or.inr ⟨gone, Or.inl ⟨⟨now, rfl, by omega⟩, ?_⟩⟩
      rw [if_pos ⟨tmp, member, key.1, late⟩] at counted
      rw [executions] at none ⊢
      rw [executed, List.countP_append, none, counted]
  | request now kept arglist =>
    simp only [TimerInput.Served] at served
    cases asked : timerRequest arglist with
    | start name ofsstr notifytype upsname notifymsg sharedTimer =>
      simp only [asked] at served
      obtain ⟨_, queue⟩ := served
      refine Or.inl ⟨?_, quiet⟩
      obtain ⟨tmp, member, key⟩ := queued
      split_ifs at queue
      · exact ⟨tmp, by rw [queue]; exact member, key⟩
      · obtain ⟨copy, inside, same⟩ := keys_mem queue.symm member
        exact ⟨copy, inside, same.trans key⟩
      · obtain ⟨_, _, thead⟩ := queue
        exact ⟨tmp, by rw [thead]; exact List.mem_append_left _ member, key⟩
    | cancel cancel =>
      simp only [asked] at served
      obtain ⟨thead, executed⟩ := served
      obtain stays | ⟨gone, tmp, member, key, hit⟩ := queued_filter ordered queued thead
      · exact Or.inl ⟨stays, quiet⟩
      · simp only [Bool.not_eq_false'] at hit
        refine Or.inr ⟨gone, Or.inr ⟨⟨now, kept, arglist, cancel, rfl, asked, tmp, member, (Prod.mk.inj key).1, hit⟩, ?_⟩⟩
        rw [executions] at none ⊢
        rw [executed, List.countP_append, none]
        split_ifs <;> simp [Executed.isTimer]
    | list =>
      simp only [asked] at served
      exact Or.inl ⟨by simpa [Queued, served.1] using queued, quiet⟩
    | noName =>
      simp only [asked] at served
      exact Or.inl ⟨by simpa [Queued, served.1] using queued, quiet⟩
    | unknown =>
      simp only [asked] at served
      exact Or.inl ⟨by simpa [Queued, served.1] using queued, quiet⟩

theorem gone_step (ordered : s.Ordered) (used : timer.id < s.nextId) (served : input.Served s s')
    (gone : ∀ tmp ∈ s.thead, tmp.id ≠ timer.id) :
    (∀ tmp ∈ s'.thead, tmp.id ≠ timer.id) ∧ executions s' timer.id = executions s timer.id := by
  have same (thead : s'.thead = s.thead) (executed : s'.executed = s.executed) :
      (∀ tmp ∈ s'.thead, tmp.id ≠ timer.id) ∧ executions s' timer.id = executions s timer.id := by
    rw [thead, executions, executed]
    exact ⟨gone, rfl⟩
  have fewer {p : Timer -> Bool} (thead : s'.thead = s.thead.filter p) : ∀ tmp ∈ s'.thead, tmp.id ≠ timer.id := by
    rw [thead]
    exact fun tmp member => gone tmp (List.mem_of_mem_filter member)
  cases input with
  | check now =>
    obtain ⟨thead, executed⟩ := served
    refine ⟨fewer thead, ?_⟩
    have counted := @executions_due _ timer ordered now
    have absent : ¬ ∃ tmp ∈ s.thead, tmp.id = timer.id ∧ tmp.etime ≤ now := by
      rintro ⟨tmp, member, same, _⟩
      exact gone tmp member same
    rw [if_neg absent] at counted
    rw [executions, executed, List.countP_append, counted]
    rfl
  | request now kept arglist =>
    simp only [TimerInput.Served] at served
    cases asked : timerRequest arglist with
    | start name ofsstr notifytype upsname notifymsg sharedTimer =>
      simp only [asked] at served
      obtain ⟨executed, queue⟩ := served
      refine ⟨?_, by rw [executions, executed]; rfl⟩
      split_ifs at queue
      · rw [queue]
        exact gone
      · intro copy inside
        obtain ⟨tmp, member, key⟩ := keys_mem queue inside
        rw [<- (Prod.mk.inj key).1]
        exact gone tmp member
      · obtain ⟨new, key, thead⟩ := queue
        rw [thead]
        intro tmp member
        obtain old | here := List.mem_append.mp member
        · exact gone tmp old
        · rw [List.mem_singleton.mp here, (Prod.mk.inj key).1]
          exact Nat.ne_of_gt used
    | cancel cancel =>
      simp only [asked] at served
      obtain ⟨thead, executed⟩ := served
      refine ⟨fewer thead, ?_⟩
      rw [executions, executed, List.countP_append]
      split_ifs <;> simp [Executed.isTimer, executions]
    | list =>
      simp only [asked] at served
      exact same served.1 served.2
    | noName =>
      simp only [asked] at served
      exact same served.1 served.2
    | unknown =>
      simp only [asked] at served
      exact same served.1 served.2

end Fates

-- What has become of a timer of the queue of `s` behind the inputs that led to `s'`.
def Fate (timer : Timer) (s : Upssched) (inputs : List TimerInput) (s' : Upssched) : Prop :=
  Queued timer s' ∧ executions s' timer.id = 0 ∧ (∀ input ∈ inputs, ¬ input.Expires timer) ∨
    (∀ tmp ∈ s'.thead, tmp.id ≠ timer.id) ∧
      ∃ before input after between, inputs = before ++ input :: after ∧
        before.foldl timerRun (some s) = some between ∧ Queued timer between ∧
        (∀ input ∈ before, ¬ input.Expires timer) ∧
        (input.Expires timer ∧ executions s' timer.id = 1 ∨
          input.Cancels timer between ∧ executions s' timer.id = 0)

def TimerInput.SafeIn (state : Option Upssched) (input : TimerInput) : Prop :=
  ∀ s, state = some s -> s.exited = false -> input.Safe s

section Runs

variable {s : Upssched}

theorem exited_step (exited : s.exited = true) (input : TimerInput) : timerStep s input = some s := by
  cases input <;> simp [timerStep, exited]

theorem run_ordered (ordered : s.Ordered) {inputs : List TimerInput}
    (safe : Always timerRun (EachAction TimerInput.SafeIn) (some s) inputs) :
    ∃ s', inputs.foldl timerRun (some s) = some s' ∧ s'.Ordered ∧ s.nextId ≤ s'.nextId := by
  induction inputs generalizing s with
  | nil => exact ⟨s, rfl, ordered, Nat.le_refl _⟩
  | cons input rest ih =>
    obtain ⟨here, later⟩ := safe
    cases exited : s.exited with
    | true =>
      have same : timerRun (some s) input = some s := exited_step exited input
      rw [same] at later
      simpa [same] using ih ordered later
    | false =>
      obtain ⟨next, step, _, ordered', more⟩ := served_step ordered exited (here s rfl exited)
      have same : timerRun (some s) input = some next := step
      rw [same] at later
      obtain ⟨s', run, ordered'', more'⟩ := ih ordered' later
      exact ⟨s', by simpa [same] using run, ordered'', Nat.le_trans more more'⟩

theorem run_fate (ordered : s.Ordered) {timer : Timer} (member : timer ∈ s.thead) {inputs : List TimerInput}
    (safe : Always timerRun (EachAction TimerInput.SafeIn) (some s) inputs) :
    ∃ s', inputs.foldl timerRun (some s) = some s' ∧ Fate timer s inputs s' := by
  induction inputs using List.reverseRecOn with
  | nil => exact ⟨s, rfl, Or.inl ⟨⟨timer, member, rfl⟩, executions_none ordered ⟨timer, member, rfl⟩, by simp⟩⟩
  | append_singleton inputs input ih =>
    have earlier := always_upto safe
    have last := always_last safe
    obtain ⟨between, run, fate⟩ := ih earlier
    obtain ⟨_, run', ordered', used⟩ := run_ordered ordered earlier
    obtain rfl := Option.some.inj (run.symm.trans run')
    rw [run] at last
    have whole {s' : Upssched} (step : timerStep between input = some s') :
        (inputs ++ [input]).foldl timerRun (some s) = some s' := by
      rw [List.foldl_append, run]
      exact step
    cases exited : between.exited with
    | true =>
      -- the daemon is gone, and it went with an empty queue
      refine ⟨between, whole (exited_step exited input), ?_⟩
      obtain ⟨⟨tmp, inside, _⟩, _⟩ | ⟨gone, before, first, after, middle, split, rest⟩ := fate
      · rw [ordered'.idle exited] at inside
        cases inside
      · exact Or.inr ⟨gone, before, first, after ++ [input], middle, by simp [split], rest⟩
    | false =>
      obtain ⟨s', step, served, ordered'', _⟩ := served_step ordered' exited (last between rfl exited)
      refine ⟨s', whole step, ?_⟩
      obtain ⟨queued, _, waits⟩ | ⟨gone, before, first, after, middle, split, reached, queued, waits, how⟩ := fate
      · obtain ⟨queued', waits'⟩ | ⟨gone, how⟩ := fate_step ordered' served queued
        · refine Or.inl ⟨queued', executions_none ordered'' queued', fun other member => ?_⟩
          obtain earlier | here := List.mem_append.mp member
          · exact waits other earlier
          · rwa [List.mem_singleton.mp here]
        · exact Or.inr ⟨gone, inputs, input, [], between, rfl, run, queued, waits, how⟩
      · have known : timer.id < between.nextId := Nat.lt_of_lt_of_le (ordered.queued timer member).1 used
        obtain ⟨gone', same⟩ := gone_step ordered' known served gone
        exact Or.inr ⟨gone', before, first, after ++ [input], middle, by simp [split], reached, queued, waits,
          by rwa [same]⟩

end Runs

theorem ordered_started : Upssched.started.Ordered :=
  ⟨.nil, by simp [Upssched.started], by simp [Upssched.started], by simp [Upssched.started]⟩

-- In every run of the daemon whose steps are safe, each input does to the queue what it says, and every
-- queued timer waits, or was executed once by the first check at its end or later, or was cancelled before.
theorem timers_lifetime (inputs : List TimerInput)
    (safe : Always timerRun (EachAction TimerInput.SafeIn) (some .started) inputs) (before after : List TimerInput)
    (split : inputs = before ++ after) : ∃ s, before.foldl timerRun (some .started) = some s ∧ s.Ordered ∧
      (∀ input rest, after = input :: rest -> s.exited = false -> ∃ s', timerStep s input = some s' ∧ input.Served s s') ∧
      ∀ timer ∈ s.thead, ∃ s', after.foldl timerRun (some s) = some s' ∧ Fate timer s after s' := by
  subst split
  obtain ⟨s, run, ordered, _⟩ := run_ordered ordered_started (always_upto safe)
  have later := always_behind safe
  rw [run] at later
  refine ⟨s, run, ordered, ?_, fun timer member => run_fate ordered member later⟩
  rintro input rest rfl running
  obtain ⟨s', step, served, _⟩ := served_step ordered running (later.1 s rfl running)
  exact ⟨s', step, served⟩

def startInput (now : Int) (name ofsstr : String) : TimerInput :=
  .request now (fun _ => true)
    [cstr "START", cstr name, cstr ofsstr, cstr "ONBATT", cstr "ups", cstr "on battery"]

theorem timers_lifetime_sample :
    let before := [startInput 100 "onbatt" "30"]
    let after := [.check 120, .check 130]
    Always timerRun (EachAction TimerInput.SafeIn) (some .started) (before ++ after) ∧
      ∃ s, before.foldl timerRun (some .started) = some s ∧ s.Ordered ∧
        (∀ input rest, after = input :: rest -> s.exited = false ->
          ∃ s', timerStep s input = some s' ∧ input.Served s s') ∧
        ∀ timer ∈ s.thead, ∃ s', after.foldl timerRun (some s) = some s' ∧ Fate timer s after s' := by
  have asked : timerRequest [cstr "START", cstr "onbatt", cstr "30", cstr "ONBATT", cstr "ups", cstr "on battery"] =
      .start (cstr "onbatt") (cstr "30") (cstr "ONBATT") (cstr "ups") (cstr "on battery") false := rfl
  have safe : Always timerRun (EachAction TimerInput.SafeIn) (some .started)
      ([startInput 100 "onbatt" "30"] ++ [.check 120, .check 130]) := by
    refine ⟨fun s same _ => ?_, fun _ _ _ => trivial, fun _ _ _ => trivial, trivial⟩
    simp only [TimerInput.Safe, startInput, asked]
    exact fun _ => ⟨by decide, by decide +kernel⟩
  exact ⟨safe, timers_lifetime _ safe _ _ rfl⟩

-- A CANCEL reads the successor of the record that it has just freed, and the other timer is lost.
theorem timers_freed :
    ∃ s, [startInput 100 "onbatt" "30", startInput 105 "commbad" "60"].foldl timerRun (some .started) = some s ∧
      s.thead.map Timer.name = [cstr "onbatt", cstr "commbad"] ∧
      timerStep s (.request 110 (fun _ => false) [cstr "CANCEL", cstr "onbatt"]) = none :=
  ⟨_, rfl, by decide +kernel, by decide +kernel⟩

end Nut
