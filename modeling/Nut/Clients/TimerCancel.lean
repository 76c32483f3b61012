import Nut.Clients.Timers

set_option autoImplicit false

namespace Nut

def Cancel.meets (cancel : Cancel) (tmp : Timer) : Bool :=
  tmp.name == cancel.name &&
    (!cancel.doCancelMatched ||
      (blank cancel.notifytype || tmp.notifytypes.contains (cancel.notifytype.getD [])) &&
        (blank cancel.upsname || tmp.upsnames.contains (cancel.upsname.getD [])))

def Cancel.served (cancel : Cancel) (s : Upssched) : Upssched :=
  { s with
    thead := s.thead.filter fun tmp => !cancel.meets tmp
    executed := s.executed ++
      if s.thead.any cancel.meets || blank cancel.cname then [] else [.cancelled (cancel.cname.getD [])] }

def Cancel.halfBlank (cancel : Cancel) : Bool :=
  cancel.doCancelMatched &&
    (cancel.notifytype == some [] && !blank cancel.upsname || !blank cancel.notifytype && cancel.upsname == some [])

-- The strings of a timer are as `start_timer` keeps them.
structure Timer.Filled (tmp : Timer) : Prop where
  notifytypes : ∀ text ∈ tmp.notifytypes, text ≠ [] ∧ 0 ∉ text
  upsnames : ∀ text ∈ tmp.upsnames, text ≠ [] ∧ 0 ∉ text
  notifymsgs : ∀ text ∈ tmp.notifymsgs, text ≠ [] ∧ 0 ∉ text

section Filled

end Filled

section Cancels

variable {cancel : Cancel} {s : Upssched}

theorem hits_meets {tmp : Timer} (hit : cancel.hits tmp = true) : cancel.meets tmp = true := by
  unfold Cancel.hits at hit
  unfold Cancel.meets
  rw [Bool.and_eq_true] at hit ⊢
  refine ⟨hit.1, ?_⟩
  have constraint {text : Option CString} {list : List CString} (inside : text.all (list.contains ·) = true) :
      (blank text || list.contains (text.getD [])) = true := by
    cases text with
    | none => rfl
    | some text => exact Bool.or_eq_true_iff.mpr (Or.inr inside)
  have matched := hit.2
  simp only [Bool.or_eq_true, Bool.and_eq_true, Bool.not_eq_true'] at matched constraint ⊢
  obtain (free | none_) | ⟨types, names⟩ := matched
  · exact Or.inl free
  · exact Or.inr ⟨Or.inl none_.1, Or.inl none_.2⟩
  · exact Or.inr ⟨constraint types, constraint names⟩

theorem hits_eq {tmp : Timer} (filled : tmp.Filled) : cancel.hits tmp = (cancel.meets tmp && !cancel.halfBlank) := by
  have types : [] ∉ tmp.notifytypes := fun member => (filled.notifytypes [] member).1 rfl
  have names : [] ∉ tmp.upsnames := fun member => (filled.upsnames [] member).1 rfl
  unfold Cancel.hits Cancel.meets Cancel.halfBlank
  cases tmp.name == cancel.name with
  | false => rfl
  | true =>
    cases cancel.doCancelMatched with
    | false => rfl
    | true =>
      rcases cancel.notifytype with _ | _ | ⟨a, as⟩ <;> rcases cancel.upsname with _ | _ | ⟨b, bs⟩ <;>
        simp [blank, types, names]

theorem cancelLoop_unhit {kept : Nat -> Bool} {rest : List Timer} (none_ : ∀ tmp ∈ rest, cancel.hits tmp = false) :
    cancelLoop kept cancel rest s = some s := by
  induction rest with
  | nil => rfl
  | cons tmp rest ih =>
    rw [cancelLoop, if_neg (by simp [none_ tmp List.mem_cons_self])]
    exact ih fun other member => none_ other (List.mem_cons_of_mem _ member)

-- Where nothing is left of a freed record, the loop has no way on behind it.
theorem cancelLoop_hit {rest : List Timer} {tmp : Timer} (member : tmp ∈ rest) (hit : cancel.hits tmp = true) :
    cancelLoop (fun _ => false) cancel rest s = none := by
  induction rest with
  | nil => cases member
  | cons first rest ih =>
    rw [cancelLoop]
    by_cases here : cancel.hits first = true
    · rw [if_pos here]
      rfl
    · rw [if_neg here]
      obtain rfl | later := List.mem_cons.mp member
      · exact absurd hit here
      · exact ih later

theorem cancelTimer_unmet {kept : Nat -> Bool} (none_ : ∀ tmp ∈ s.thead, cancel.meets tmp = false) :
    cancelTimer kept cancel s = some (cancel.served s) := by
  have unhit : ∀ tmp ∈ s.thead, cancel.hits tmp = false := fun tmp member =>
    Bool.eq_false_iff.mpr fun hit => Bool.eq_false_iff.mp (none_ tmp member) (hits_meets hit)
  have noHit : s.thead.any cancel.hits = false := by simpa using unhit
  have noMeet : s.thead.any cancel.meets = false := by simpa using none_
  have stay : (s.thead.filter fun tmp => !cancel.meets tmp) = s.thead :=
    List.filter_eq_self.mpr fun tmp member => by simp [none_ tmp member]
  rw [cancelTimer, cancelLoop_unhit unhit, Cancel.served, noMeet, stay]
  by_cases quiet : blank cancel.cname = true <;> simp [noHit, quiet]

theorem cancelTimer_kept (ids : s.thead.Pairwise fun a b => a.id < b.id) : cancelTimer (fun _ => true) cancel s =
      some { s with
        thead := s.thead.filter fun tmp => !cancel.hits tmp
        executed := s.executed ++
          if s.thead.any cancel.hits || blank cancel.cname then [] else [.cancelled (cancel.cname.getD [])] } := by
  have loop := @cancelLoop_eq s [] s.thead (fun _ => true) cancel rfl ids fun _ _ _ => rfl
  rw [cancelTimer, loop]
  cases s.thead.any cancel.hits <;> cases blank cancel.cname <;> simp

end Cancels

-- A CANCEL does what it is meant to, whatever becomes of freed memory, exactly when it has nothing to remove: the loop goes
-- on from the record that it has freed. With freed memory as it was, one empty string beside a constraint is what keeps the
-- timers from being removed.
theorem cancel_exact (cancel : Cancel) {s : Upssched} (ids : s.thead.Pairwise fun a b => a.id < b.id)
    (filled : ∀ tmp ∈ s.thead, tmp.Filled) :
    ((∀ kept, cancelTimer kept cancel s = some (cancel.served s)) ↔ ∀ tmp ∈ s.thead, cancel.meets tmp = false) ∧
      (cancelTimer (fun _ => true) cancel s = some (cancel.served s) ↔
        cancel.halfBlank = false ∨ ∀ tmp ∈ s.thead, cancel.meets tmp = false) := by
  have kept := @cancelTimer_kept cancel s ids
  have told {tmp : Timer} (member : tmp ∈ s.thead) := @hits_eq cancel tmp (filled tmp member)
  have apart : (∀ kept, cancelTimer kept cancel s = some (cancel.served s)) -> cancel.halfBlank = false ->
      ∀ tmp ∈ s.thead, cancel.meets tmp = false := fun exact_ whole tmp member =>
    Bool.eq_false_iff.mpr fun met => by
      have hit : cancel.hits tmp = true := by simp [told member, met, whole]
      have freed := exact_ fun _ => false
      rw [cancelTimer, cancelLoop_hit member hit] at freed
      cases freed
  have half : cancelTimer (fun _ => true) cancel s = some (cancel.served s) -> cancel.halfBlank = true ->
      ∀ tmp ∈ s.thead, cancel.meets tmp = false := fun exact_ half tmp member => by
    rw [kept] at exact_
    have thead := congrArg Upssched.thead (Option.some.inj exact_)
    have stays : tmp ∈ s.thead.filter fun tmp => !cancel.hits tmp :=
      List.mem_filter.mpr ⟨member, by simp [told member, half]⟩
    rw [show s.thead.filter (fun tmp => !cancel.hits tmp) = s.thead.filter fun tmp => !cancel.meets tmp from thead] at stays
    simpa using (List.mem_filter.mp stays).2
  refine ⟨⟨fun exact_ => ?_, fun none_ _ => cancelTimer_unmet none_⟩, fun exact_ => ?_, ?_⟩
  · cases blank_ : cancel.halfBlank with
    | false => exact apart exact_ blank_
    | true => exact half (exact_ _) blank_
  · cases blank_ : cancel.halfBlank with
    | false => exact Or.inl rfl
    | true => exact Or.inr (half exact_ blank_)
  · rintro (whole | none_)
    · have same : ∀ tmp ∈ s.thead, cancel.hits tmp = cancel.meets tmp := fun tmp member => by
        rw [told member, whole]
        exact Bool.and_true _
      have some_ : s.thead.any cancel.hits = s.thead.any cancel.meets := by
        rw [Bool.eq_iff_iff, List.any_eq_true, List.any_eq_true]
        exact exists_congr fun tmp => and_congr_right fun member => by rw [same tmp member]
      rw [kept, Cancel.served, some_, List.filter_congr fun tmp member => congrArg (! ·) (same tmp member)]
    · exact cancelTimer_unmet none_

def sampleTimer : Timer :=
  { id := 0, name := cstr "onbatt", etime := 130, upsnames := [cstr "ups"], notifytypes := [cstr "ONBATT"], notifymsgs := [] }

def sampleQueue : Upssched :=
  { Upssched.started with thead := [sampleTimer], nextId := 1 }

def sampleCancel (notifytype upsname : String) : Cancel :=
  { name := cstr "onbatt", cname := none, notifytype := cstr notifytype, upsname := cstr upsname, doCancelMatched := true }

theorem cancel_exact_sample : ((∀ kept, cancelTimer kept (sampleCancel "ONBATT" "other") sampleQueue =
          some ((sampleCancel "ONBATT" "other").served sampleQueue)) ↔
        ∀ tmp ∈ sampleQueue.thead, (sampleCancel "ONBATT" "other").meets tmp = false) ∧
      (cancelTimer (fun _ => true) (sampleCancel "ONBATT" "other") sampleQueue =
          some ((sampleCancel "ONBATT" "other").served sampleQueue) ↔
        (sampleCancel "ONBATT" "other").halfBlank = false ∨
          ∀ tmp ∈ sampleQueue.thead, (sampleCancel "ONBATT" "other").meets tmp = false) :=
  cancel_exact (sampleCancel "ONBATT" "other") (List.pairwise_singleton _ _) fun tmp member => by
    obtain rfl := List.mem_singleton.mp member
    exact ⟨by decide, by decide, by decide⟩

-- The removal reads the record that is gone; and an empty UPSNAME, which is no constraint, keeps the timer.
theorem cancel_inexact : cancelTimer (fun _ => false) (sampleCancel "ONBATT" "ups") sampleQueue = none ∧
      (sampleCancel "ONBATT" "").meets sampleTimer = true ∧
      cancelTimer (fun _ => true) (sampleCancel "ONBATT" "") sampleQueue = some sampleQueue := by
  decide

end Nut
