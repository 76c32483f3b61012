import Mathlib.Data.List.Induction
import Nut.Library.Checked
import Nut.Clients.Upssched

set_option autoImplicit false

namespace Nut

structure StringArray where
  bytes : Nat
  cells : List (Option CString)
  whole : cells.length = bytes / pointerSize

namespace StringArray

def calloc (count : Nat) : StringArray :=
  { bytes := count * pointerSize, cells := List.replicate count none, whole := by simp [pointerSize] }

-- `fresh` is what new memory happens to hold.
def realloc (fresh : Nat -> Option CString) (array : StringArray) (bytes : Nat) : StringArray :=
  { bytes, cells := (List.range (bytes / pointerSize)).map fun i => array.cells.getD i (fresh i)
    whole := by simp }

def write (array : StringArray) (index : Nat) (value : Option CString) : Checked StringArray :=
  if inside : index < array.cells.length then
    .ok { array with cells := array.cells.set index value, whole := by rw [List.length_set]; exact array.whole }
  else .error .outOfBounds

def scan (val : CString) : List (Option CString) -> Nat -> Checked (Nat × Bool)
  | [], _ => .error .outOfBounds
  | none :: _, count => .ok (count, false)
  | some text :: rest, count => if text = val then .ok (count + 1, true) else scan val rest (count + 1)

def Holds (array : Option StringArray) (texts : List CString) : Prop :=
  match array with
  | none => texts = []
  | some array => texts.map some ++ [none] <+: array.cells ∧ (texts.length + 1) * pointerSize ≤ array.bytes

end StringArray

open StringArray

def addEntry (fresh : Nat -> Option CString) (array : Option StringArray) (val : CString) :
    Checked (Option StringArray) :=
  if val = [] then .ok array
  else
    match array with
    | none => do
      let array <- (calloc 2).write 0 (some val)
      let array <- array.write 1 none
      .ok (some array)
    | some array => do
      let (count, found) <- scan val array.cells 0
      if found then .ok (some array)
      else
        let array <- (array.realloc fresh (count + 2)).write count (some val)
        let array <- array.write (count + 1) none
        .ok (some array)

-- `ttype_t` with its arrays.
structure TimerRecord where
  name : CString
  etime : Int
  upsnames : Option StringArray
  notifytypes : Option StringArray
  notifymsgs : Option StringArray

-- A call of `start_timer`; a string that is NULL is empty here.
structure StartCall where
  now : Int
  ofsstr : CString
  notifytype : CString
  upsname : CString
  notifymsg : CString

def StartCall.ofs (call : StartCall) : Int :=
  (strtol call.ofsstr).toInt

def StartCall.etime (call : StartCall) : Int :=
  call.now + call.ofs

def TimerRecord.attach (fresh : Nat -> Option CString) (call : StartCall) (tmp : TimerRecord) : Checked TimerRecord := do
  let notifytypes <- addEntry fresh tmp.notifytypes call.notifytype
  let notifymsgs <- addEntry fresh tmp.notifymsgs call.notifymsg
  let upsnames <- addEntry fresh tmp.upsnames call.upsname
  .ok { tmp with notifytypes, notifymsgs, upsnames }

def TimerRecord.new (name : CString) (call : StartCall) : TimerRecord :=
  { name, etime := call.etime, upsnames := none, notifytypes := none, notifymsgs := none }

def attachOrAppend (fresh : Nat -> Option CString) (name : CString) (call : StartCall) :
    List TimerRecord -> Option (List TimerRecord)
  | [] =>
    if call.etime > timeMax then none else ((TimerRecord.new name call).attach fresh call).toOption.map ([·])
  | tmp :: rest =>
    if tmp.name = name then (tmp.attach fresh call).toOption.map (· :: rest)
    else (attachOrAppend fresh name call rest).map (tmp :: ·)

def startShared (fresh : Nat -> Option CString) (name : CString) (thead : List TimerRecord) (call : StartCall) :
    Option (List TimerRecord) :=
  if call.ofs < 0 then some thead else attachOrAppend fresh name call thead

def distinct (vals : List CString) : List CString :=
  (vals.filter (· ≠ [])).eraseDups

def appendNew (vals : List CString) (val : CString) : List CString :=
  if val = [] ∨ val ∈ vals then vals else vals ++ [val]

theorem distinct_append (vals : List CString) (val : CString) :
    distinct (vals ++ [val]) = appendNew (distinct vals) val := by
  unfold distinct appendNew
  by_cases empty : val = []
  · simp [empty]
  · have kept : [val].filter (· ≠ []) = [val] := by simp [empty]
    rw [List.filter_append, kept, List.eraseDups_append]
    by_cases seen : val ∈ vals
    · simp [List.removeAll, seen, empty]
    · simp [List.removeAll, seen, empty, List.eraseDups_cons]

section Entries

variable {fresh : Nat -> Option CString} {array : StringArray} {val text : CString}

theorem write_outside {index : Nat} {value : Option CString} (outside : array.cells.length ≤ index) :
    array.write index value = .error .outOfBounds := dif_neg (Nat.not_lt.mpr outside)

def StringArray.single (val : CString) : StringArray :=
  { bytes := 2 * pointerSize, cells := [some val, none], whole := rfl }

theorem addEntry_empty (array : Option StringArray) : addEntry fresh array [] = .ok array := if_pos rfl

theorem addEntry_first (some_ : val ≠ []) : addEntry fresh none val = .ok (some (single val)) := by
  rw [addEntry, if_neg some_]
  rfl

theorem addEntry_again : addEntry fresh (some (single val)) val = .ok (some (single val)) := by
  unfold addEntry
  split
  · rfl
  · have found : scan val (single val).cells 0 = .ok (1, true) := if_pos rfl
    dsimp only
    rw [found]
    rfl

theorem realloc_short (count : Nat) : (array.realloc fresh (count + 2)).cells.length ≤ count := by
  rw [(array.realloc fresh (count + 2)).whole]
  show (count + 2) / pointerSize ≤ count
  rw [pointerSize]
  omega

theorem addEntry_second (some_ : val ≠ []) (other : text ≠ val) :
    addEntry fresh (some (single text)) val = .error .outOfBounds := by
  have counted : scan val (single text).cells 0 = .ok (1, false) := if_neg other
  rw [addEntry, if_neg some_]
  dsimp only
  rw [counted, ok_bind]
  show (((single text).realloc fresh (1 + 2)).write 1 (some val) >>= _) = _
  rw [write_outside (realloc_short 1)]
  rfl

def entries (fresh : Nat -> Option CString) (vals : List CString) : Checked (Option StringArray) :=
  vals.foldlM (addEntry fresh) none

theorem entries_append (vals : List CString) (val : CString) :
    entries fresh (vals ++ [val]) = entries fresh vals >>= fun array => addEntry fresh array val := by
  rw [entries, List.foldlM_append]
  exact bind_congr fun array => by rw [List.foldlM_cons]; exact bind_pure _

theorem entries_eq (vals : List CString) : distinct vals = [] ∧ entries fresh vals = .ok none ∨
      (∃ val, val ≠ [] ∧ distinct vals = [val] ∧ entries fresh vals = .ok (some (single val))) ∨
      2 ≤ (distinct vals).length ∧ entries fresh vals = .error .outOfBounds := by
  induction vals using List.reverseRecOn with
  | nil => exact Or.inl ⟨rfl, rfl⟩
  | append_singleton vals val ih =>
    rw [distinct_append, entries_append]
    by_cases empty : val = []
    · rw [empty]
      have same : appendNew (distinct vals) [] = distinct vals := if_pos (Or.inl rfl)
      have skip : (entries fresh vals >>= fun array => addEntry fresh array []) = entries fresh vals := by
        simp only [addEntry_empty]
        exact bind_pure _
      rw [same, skip]
      exact ih
    · obtain ⟨none_, made⟩ | ⟨first, some_, one, made⟩ | ⟨more, failed⟩ := ih
      · refine Or.inr (Or.inl ⟨val, empty, ?_, ?_⟩)
        · simp [none_, appendNew, empty]
        · rw [made, ok_bind, addEntry_first empty]
      · rw [one, made, ok_bind]
        by_cases same : first = val
        · rw [same]
          exact Or.inr (Or.inl ⟨val, empty, by simp [appendNew], addEntry_again⟩)
        · have known : ¬ (val = [] ∨ val ∈ [first]) := by simp [empty, Ne.symm same]
          rw [addEntry_second empty same, appendNew, if_neg known]
          exact Or.inr (Or.inr ⟨Nat.le_refl _, rfl⟩)
      · refine Or.inr (Or.inr ⟨Nat.le_trans more ?_, by rw [failed]; rfl⟩)
        unfold appendNew
        split
        · exact Nat.le_refl _
        · simp

end Entries

section Calls

variable {fresh : Nat -> Option CString} {name : CString} {thead : List TimerRecord}

def heededCalls (calls : List StartCall) : List StartCall :=
  calls.filter fun call => 0 ≤ call.ofs

theorem attach_ok {call : StartCall} {tmp after : TimerRecord} : tmp.attach fresh call = .ok after ↔
      after.name = tmp.name ∧ after.etime = tmp.etime ∧ addEntry fresh tmp.notifytypes call.notifytype = .ok after.notifytypes ∧
        addEntry fresh tmp.notifymsgs call.notifymsg = .ok after.notifymsgs ∧
        addEntry fresh tmp.upsnames call.upsname = .ok after.upsnames := by
  unfold TimerRecord.attach
  constructor
  · intro done
    obtain ⟨notifytypes, types, done⟩ := bind_eq_ok.mp done
    obtain ⟨notifymsgs, msgs, done⟩ := bind_eq_ok.mp done
    obtain ⟨upsnames, names, done⟩ := bind_eq_ok.mp done
    cases done
    exact ⟨rfl, rfl, types, msgs, names⟩
  · rintro ⟨sameName, sameTime, types, msgs, names⟩
    rw [types, msgs, names, <- sameName, <- sameTime]
    rfl

structure Attached (fresh : Nat -> Option CString) (name : CString) (etime : Int) (calls : List StartCall)
    (tmp : TimerRecord) : Prop where
  name : tmp.name = name
  etime : tmp.etime = etime
  notifytypes : entries fresh (calls.map StartCall.notifytype) = .ok tmp.notifytypes
  upsnames : entries fresh (calls.map StartCall.upsname) = .ok tmp.upsnames
  notifymsgs : entries fresh (calls.map StartCall.notifymsg) = .ok tmp.notifymsgs

theorem entries_snoc (calls : List StartCall) (call : StartCall) (field : StartCall -> CString) {array : Option StringArray} :
    entries fresh ((calls ++ [call]).map field) = .ok array ↔
      ∃ before, entries fresh (calls.map field) = .ok before ∧ addEntry fresh before (field call) = .ok array := by
  rw [List.map_append, List.map_singleton, entries_append, bind_eq_ok]

theorem attached_snoc {etime : Int} {calls : List StartCall} {call : StartCall} {after : TimerRecord} :
    Attached fresh name etime (calls ++ [call]) after ↔
      ∃ tmp, Attached fresh name etime calls tmp ∧ tmp.attach fresh call = .ok after := by
  constructor
  · intro attached
    obtain ⟨types, typesBefore, typesNext⟩ := (entries_snoc _ _ _).mp attached.notifytypes
    obtain ⟨names, namesBefore, namesNext⟩ := (entries_snoc _ _ _).mp attached.upsnames
    obtain ⟨msgs, msgsBefore, msgsNext⟩ := (entries_snoc _ _ _).mp attached.notifymsgs
    exact ⟨⟨name, etime, names, types, msgs⟩, ⟨rfl, rfl, typesBefore, namesBefore, msgsBefore⟩,
      attach_ok.mpr ⟨attached.name, attached.etime, typesNext, msgsNext, namesNext⟩⟩
  · rintro ⟨tmp, attached, next⟩
    obtain ⟨sameName, sameTime, types, msgs, names⟩ := attach_ok.mp next
    exact ⟨sameName.trans attached.name, sameTime.trans attached.etime, (entries_snoc _ _ _).mpr ⟨_, attached.notifytypes, types⟩,
      (entries_snoc _ _ _).mpr ⟨_, attached.upsnames, names⟩, (entries_snoc _ _ _).mpr ⟨_, attached.notifymsgs, msgs⟩⟩

theorem attached_new {call : StartCall} {tmp : TimerRecord} :
    Attached fresh name call.etime [call] tmp ↔ (TimerRecord.new name call).attach fresh call = .ok tmp := by
  have single := @attached_snoc fresh name call.etime [] call tmp
  rw [List.nil_append] at single
  rw [single]
  constructor
  · rintro ⟨⟨_, _, _, _, _⟩, ⟨rfl, rfl, types, names, msgs⟩, next⟩
    cases types
    cases names
    cases msgs
    exact next
  · exact fun next => ⟨_, ⟨rfl, rfl, rfl, rfl, rfl⟩, next⟩

theorem attachOrAppend_behind (new : ∀ tmp ∈ thead, tmp.name ≠ name) (call : StartCall) (rest : List TimerRecord) :
    attachOrAppend fresh name call (thead ++ rest) = (attachOrAppend fresh name call rest).map (thead ++ ·) := by
  induction thead with
  | nil =>
    simp only [List.nil_append]
    exact Option.map_id'.symm
  | cons tmp thead ih =>
    have later : ∀ other ∈ thead, other.name ≠ name := fun other member => new other (List.mem_cons_of_mem _ member)
    rw [List.cons_append, attachOrAppend, if_neg (new tmp List.mem_cons_self), ih later, Option.map_map]
    rfl

theorem toOption_map_some {α β : Type} {result : Checked α} {f : α -> β} {b : β} :
    result.toOption.map f = some b ↔ ∃ a, result = .ok a ∧ f a = b := by
  cases result with
  | error fault => simp [Except.toOption]
  | ok a => simp [Except.toOption]

theorem sharedRun_some (new : ∀ tmp ∈ thead, tmp.name ≠ name) (calls : List StartCall) {after : List TimerRecord} :
    calls.foldlM (startShared fresh name) thead = some after ↔ heededCalls calls = [] ∧ after = thead ∨
        ∃ first rest tmp, heededCalls calls = first :: rest ∧ first.etime ≤ timeMax ∧ after = thead ++ [tmp] ∧
          Attached fresh name first.etime (first :: rest) tmp := by
  induction calls using List.reverseRecOn generalizing after with
  | nil => simp [heededCalls, eq_comm]
  | append_singleton calls call ih =>
    have step : (calls ++ [call]).foldlM (startShared fresh name) thead = some after ↔
        ∃ before, calls.foldlM (startShared fresh name) thead = some before ∧ startShared fresh name before call = some after := by
      rw [List.foldlM_append]
      refine Option.bind_eq_some_iff.trans (exists_congr fun before => and_congr_right fun _ => ?_)
      simp only [List.foldlM_cons, List.foldlM_nil, bind_pure]
    rw [step]
    by_cases ignored : call.ofs < 0
    · have same : heededCalls (calls ++ [call]) = heededCalls calls := by simp [heededCalls, ignored]
      rw [same, <- ih]
      simp [startShared, ignored]
    · have more : heededCalls (calls ++ [call]) = heededCalls calls ++ [call] := by simp [heededCalls, Int.not_lt.mp ignored]
      rw [more]
      simp only [startShared, if_neg ignored]
      constructor
      · rintro ⟨before, ran, done⟩
        refine Or.inr ?_
        obtain ⟨none_, rfl⟩ | ⟨first, rest, tmp, some_, fits, rfl, attached⟩ := ih.mp ran
        · have behind := @attachOrAppend_behind fresh name before new call []
          rw [List.append_nil] at behind
          rw [behind, attachOrAppend] at done
          split_ifs at done with late
          · cases done
          · rw [Option.map_map, toOption_map_some] at done
            obtain ⟨tmp, made, rfl⟩ := done
            exact ⟨call, [], tmp, by rw [none_]; rfl, by omega, rfl, attached_new.mpr made⟩
        · rw [attachOrAppend_behind new, attachOrAppend, if_pos attached.name, Option.map_map, toOption_map_some] at done
          obtain ⟨next, made, rfl⟩ := done
          refine ⟨first, rest ++ [call], next, by rw [some_]; rfl, fits, rfl, ?_⟩
          exact (@attached_snoc fresh name first.etime (first :: rest) call next).mpr ⟨tmp, attached, made⟩
      · rintro (⟨none_, _⟩ | ⟨first, rest, tmp, split, fits, rfl, attached⟩)
        · simp at none_
        · cases known : heededCalls calls with
          | nil =>
            rw [known, List.nil_append, List.cons.injEq] at split
            obtain ⟨rfl, rfl⟩ := split
            refine ⟨thead, ih.mpr (Or.inl ⟨known, rfl⟩), ?_⟩
            have behind := @attachOrAppend_behind fresh name thead new call []
            rw [List.append_nil] at behind
            rw [behind, attachOrAppend, if_neg (by omega), Option.map_map, toOption_map_some]
            exact ⟨tmp, attached_new.mp attached, rfl⟩
          | cons head others =>
            rw [known, List.cons_append, List.cons.injEq] at split
            obtain ⟨rfl, rfl⟩ := split
            obtain ⟨before, earlier, next⟩ := (@attached_snoc fresh name head.etime (head :: others) call tmp).mp attached
            refine ⟨thead ++ [before], ih.mpr (Or.inr ⟨head, others, before, known, fits, rfl, earlier⟩), ?_⟩
            rw [attachOrAppend_behind new, attachOrAppend, if_pos earlier.name, Option.map_map, toOption_map_some]
            exact ⟨tmp, next, rfl⟩

end Calls

section Refines

variable {fresh : Nat -> Option CString}

theorem scan_eq (val : CString) (texts : List CString) (rest : List (Option CString)) (count : Nat) :
    ∃ last, scan val (texts.map some ++ none :: rest) count = .ok (last, decide (val ∈ texts)) := by
  induction texts generalizing count with
  | nil => exact ⟨count, rfl⟩
  | cons text texts ih =>
    rw [List.map_cons, List.cons_append, scan]
    by_cases same : text = val
    · exact ⟨count + 1, by simp [same]⟩
    · obtain ⟨last, later⟩ := ih (count + 1)
      refine ⟨last, ?_⟩
      rw [if_neg same, later]
      simp [Ne.symm same]

def Stores (array : Option StringArray) (texts : List CString) : Prop :=
  Holds array texts ∧ (texts = [] -> array = none)

theorem rel_bind {α β γ δ : Type} {r : α -> β -> Prop} {r' : γ -> δ -> Prop} {first : Checked α} {second : Option β}
    {next : α -> Checked γ} {next_ : β -> Option δ} (rel : Option.Rel r first.toOption second)
    (goes : ∀ a b, r a b -> Option.Rel r' (next a).toOption (next_ b)) :
    Option.Rel r' (first >>= next).toOption (second >>= next_) := by
  cases first with
  | error fault =>
    cases rel
    exact .none
  | ok a =>
    cases rel with
    | some same => exact goes _ _ same

theorem addEntry_refines {array : Option StringArray} {texts : List CString} (stores : Stores array texts)
    (val : CString) : Option.Rel Stores (addEntry fresh array val).toOption (addString texts val) := by
  by_cases empty : val = []
  · rw [empty, addEntry_empty, addString, if_pos (Or.inl rfl)]
    exact .some stores
  · cases array with
    | none =>
      have nothing : texts = [] := stores.1
      rw [addEntry_first empty, nothing, addString, if_neg (by simp [empty]), if_pos rfl]
      exact .some ⟨⟨List.prefix_refl _, Nat.le_refl _⟩, fun none_ => by cases none_⟩
    | some array =>
      obtain ⟨⟨⟨rest, cells⟩, room⟩, null⟩ := stores
      have some_ : texts ≠ [] := fun nothing => by cases null nothing
      obtain ⟨last, found⟩ := scan_eq val texts rest 0
      rw [List.append_assoc, List.singleton_append] at cells
      rw [addEntry, if_neg empty]
      dsimp only
      rw [<- cells, found, ok_bind]
      by_cases known : val ∈ texts
      · rw [decide_eq_true known, if_pos rfl, addString, if_pos (Or.inr known)]
        exact .some ⟨⟨⟨rest, by rw [List.append_assoc, List.singleton_append, cells]⟩, room⟩, fun none_ => absurd none_ some_⟩
      · -- There is no room for the entry, neither here nor there.
        have small : ¬ texts.length + 2 ≤ (texts.length + 2) / pointerSize := by
          unfold pointerSize
          omega
        rw [decide_eq_false known, if_neg Bool.false_ne_true, write_outside (realloc_short last), addString,
          if_neg (by simp [empty, known]), if_neg some_, if_neg small]
        exact .none

theorem addString_nil (val : CString) : addString [] val = some (firstString val) := by
  unfold addString firstString
  by_cases empty : val = [] <;> simp [empty]

structure Shows (record : TimerRecord) (tmp : Timer) : Prop where
  name : record.name = tmp.name
  etime : record.etime = tmp.etime
  upsnames : Stores record.upsnames tmp.upsnames
  notifytypes : Stores record.notifytypes tmp.notifytypes
  notifymsgs : Stores record.notifymsgs tmp.notifymsgs

theorem attach_refines {call : StartCall} {record : TimerRecord} {tmp : Timer} (shows : Shows record tmp) :
    Option.Rel Shows (record.attach fresh call).toOption (tmp.share call.notifytype call.upsname call.notifymsg) := by
  unfold TimerRecord.attach Timer.share
  refine rel_bind (addEntry_refines shows.notifytypes _) fun types types_ typesSame => ?_
  refine rel_bind (addEntry_refines shows.notifymsgs _) fun msgs msgs_ msgsSame => ?_
  refine rel_bind (addEntry_refines shows.upsnames _) fun names names_ namesSame => ?_
  exact .some ⟨shows.name, shows.etime, namesSame, typesSame, msgsSame⟩

theorem attach_new {name : CString} {call : StartCall} (id : Nat) :
    Option.Rel Shows ((TimerRecord.new name call).attach fresh call).toOption
      (some { id, name, etime := call.etime, upsnames := firstString call.upsname
              notifytypes := firstString call.notifytype, notifymsgs := firstString call.notifymsg }) := by
  have shows : Shows (TimerRecord.new name call)
      { id, name, etime := call.etime, upsnames := [], notifytypes := [], notifymsgs := [] } :=
    ⟨rfl, rfl, ⟨rfl, fun _ => rfl⟩, ⟨rfl, fun _ => rfl⟩, ⟨rfl, fun _ => rfl⟩⟩
  have attached := @attach_refines fresh call _ _ shows
  simpa [Timer.share, addString_nil] using attached

theorem attachOrAppend_refines {name : CString} {call : StartCall} {records : List TimerRecord} {timers : List Timer}
    (shows : List.Forall₂ Shows records timers) (id : Nat) : (∃ tmp ∈ timers, tmp.name = name) ∧
        Option.Rel (List.Forall₂ Shows) (attachOrAppend fresh name call records)
          (shareTimer name call.notifytype call.upsname call.notifymsg timers) ∨ (∀ tmp ∈ timers, tmp.name ≠ name) ∧
        Option.Rel (List.Forall₂ Shows) (attachOrAppend fresh name call records)
          (if call.etime > timeMax then none else some (timers ++
            [{ id, name, etime := call.etime, upsnames := firstString call.upsname
               notifytypes := firstString call.notifytype, notifymsgs := firstString call.notifymsg }])) := by
  induction shows with
  | nil =>
    refine Or.inr ⟨by simp, ?_⟩
    unfold attachOrAppend
    split
    · exact .none
    · have new := @attach_new fresh name call id
      revert new
      cases ((TimerRecord.new name call).attach fresh call).toOption with
      | none => exact fun new => by cases new
      | some record =>
        intro new
        cases new with
        | some same => exact .some (.cons same .nil)
  | @cons record tmp records timers first later ih =>
    rw [attachOrAppend, shareTimer]
    by_cases same : tmp.name = name
    · rw [if_pos (first.name.trans same), if_pos same]
      refine Or.inl ⟨⟨tmp, List.mem_cons_self, same⟩, ?_⟩
      have attached := @attach_refines fresh call record tmp first
      revert attached
      generalize (record.attach fresh call).toOption = made
      generalize tmp.share call.notifytype call.upsname call.notifymsg = shared
      intro attached
      cases attached with
      | none => exact .none
      | some shown => exact .some (.cons shown later)
    · rw [if_neg fun known => same (first.name.symm.trans known), if_neg same]
      generalize attachOrAppend fresh name call records = made at ih
      obtain ⟨⟨other, member, known⟩, rel⟩ | ⟨new, rel⟩ := ih
      · generalize shareTimer name call.notifytype call.upsname call.notifymsg timers = shared at rel
        refine Or.inl ⟨⟨other, List.mem_cons_of_mem _ member, known⟩, ?_⟩
        cases rel with
        | none => exact .none
        | some shown => exact .some (.cons first shown)
      · refine Or.inr ⟨List.forall_mem_cons.mpr ⟨same, new⟩, ?_⟩
        split at rel
        next late =>
          rw [if_pos late]
          cases rel
          exact .none
        next early =>
          rw [if_neg early]
          cases rel with
          | some shown => exact .some (.cons first shown)

-- `startTimer` is `start_timer` with its arrays as far as the queue is concerned: defined for the same calls, with the
-- strings that are in the arrays.
theorem startShared_refines {name : CString} {call : StartCall} {records : List TimerRecord} {s : Upssched}
    (shows : List.Forall₂ Shows records s.thead) : Option.Rel (List.Forall₂ Shows) (startShared fresh name records call)
      ((startTimer call.now name call.ofsstr call.notifytype call.upsname call.notifymsg true s).map Upssched.thead) := by
  unfold startShared
  by_cases bogus : call.ofs < 0
  · have ignored : startTimer call.now name call.ofsstr call.notifytype call.upsname call.notifymsg true s = some s :=
      if_pos bogus
    rw [if_pos bogus, ignored]
    exact .some shows
  · have running : ¬ (strtol call.ofsstr).toInt < 0 := bogus
    rw [if_neg bogus, startTimer, if_neg running]
    obtain ⟨known, rel⟩ | ⟨new, rel⟩ := @attachOrAppend_refines fresh name call records s.thead shows s.nextId
    · have found : (true && s.thead.any fun tmp => tmp.name == name) = true := by simpa using known
      rw [if_pos found, Option.map_map]
      simpa [Function.comp_def] using rel
    · have absent : ¬ (true && s.thead.any fun tmp => tmp.name == name) = true := by simpa using new
      rw [if_neg absent]
      split
      next late =>
        rw [if_pos (show call.etime > timeMax from late)] at rel
        exact rel
      next early =>
        rw [if_neg (show ¬ call.etime > timeMax from early)] at rel
        exact rel

end Refines

def SharedShown (fresh : Nat -> Option CString) (name : CString) (thead : List TimerRecord) (calls : List StartCall) : Prop :=
  ∃ after, calls.foldlM (startShared fresh name) thead = some after ∧
    (heededCalls calls ≠ [] -> ∃ tmp, after = thead ++ [tmp] ∧ tmp.name = name ∧
      Holds tmp.notifytypes (distinct ((heededCalls calls).map StartCall.notifytype)) ∧
      Holds tmp.upsnames (distinct ((heededCalls calls).map StartCall.upsname)) ∧
      Holds tmp.notifymsgs (distinct ((heededCalls calls).map StartCall.notifymsg)))

structure OneValue (calls : List StartCall) : Prop where
  notifytype : (distinct (calls.map StartCall.notifytype)).length ≤ 1
  upsname : (distinct (calls.map StartCall.upsname)).length ≤ 1
  notifymsg : (distinct (calls.map StartCall.notifymsg)).length ≤ 1
  etime : ∀ first, calls.head? = some first -> first.etime ≤ timeMax

section Shown

variable {fresh : Nat -> Option CString}

theorem entries_holds {vals : List CString} {array : Option StringArray} (made : entries fresh vals = .ok array) :
    (distinct vals).length ≤ 1 ∧ Holds array (distinct vals) := by
  obtain ⟨none_, equal⟩ | ⟨val, _, one, equal⟩ | ⟨_, failed⟩ := @entries_eq fresh vals
  · rw [equal] at made
    cases made
    rw [none_]
    exact ⟨Nat.zero_le _, rfl⟩
  · rw [equal] at made
    cases made
    rw [one]
    exact ⟨Nat.le_refl _, List.prefix_refl _, Nat.le_refl _⟩
  · rw [failed] at made
    cases made

theorem entries_ok {vals : List CString} (one : (distinct vals).length ≤ 1) : ∃ array, entries fresh vals = .ok array := by
  obtain ⟨_, equal⟩ | ⟨val, _, _, equal⟩ | ⟨more, _⟩ := @entries_eq fresh vals
  · exact ⟨none, equal⟩
  · exact ⟨some (single val), equal⟩
  · omega

end Shown

-- The arrays of a shared timer have room for all of its values exactly as long as there is one for each of them: with the
-- second one an array is reallocated to a number of bytes where a number of pointers is meant.
theorem shared_lists (fresh : Nat -> Option CString) {name : CString} {thead : List TimerRecord}
    (new : ∀ tmp ∈ thead, tmp.name ≠ name) (calls : List StartCall) :
    SharedShown fresh name thead calls ↔ OneValue (heededCalls calls) := by
  constructor
  · rintro ⟨after, ran, _⟩
    obtain ⟨none_, _⟩ | ⟨first, rest, tmp, some_, fits, _, attached⟩ := (sharedRun_some new calls).mp ran
    · rw [none_]
      exact ⟨Nat.zero_le _, Nat.zero_le _, Nat.zero_le _, fun first head => by cases head⟩
    · rw [some_]
      refine ⟨(entries_holds attached.notifytypes).1, (entries_holds attached.upsnames).1,
        (entries_holds attached.notifymsgs).1, fun head isHead => ?_⟩
      cases isHead
      exact fits
  · intro one
    cases known : heededCalls calls with
    | nil =>
      exact ⟨thead, (sharedRun_some new calls).mpr (Or.inl ⟨known, rfl⟩), fun some_ => absurd known some_⟩
    | cons first rest =>
      rw [known] at one
      obtain ⟨types, madeTypes⟩ := @entries_ok fresh _ one.notifytype
      obtain ⟨names, madeNames⟩ := @entries_ok fresh _ one.upsname
      obtain ⟨msgs, madeMsgs⟩ := @entries_ok fresh _ one.notifymsg
      let tmp : TimerRecord := ⟨name, first.etime, names, types, msgs⟩
      have attached : Attached fresh name first.etime (first :: rest) tmp := ⟨rfl, rfl, madeTypes, madeNames, madeMsgs⟩
      have ran := (sharedRun_some new calls).mpr (Or.inr ⟨first, rest, tmp, known, one.etime first rfl, rfl, attached⟩)
      refine ⟨thead ++ [tmp], ran, fun _ => ⟨tmp, rfl, rfl, ?_⟩⟩
      rw [known]
      exact ⟨(entries_holds madeTypes).2, (entries_holds madeNames).2, (entries_holds madeMsgs).2⟩

def onbattCall (upsname : String) : StartCall :=
  { now := 100, ofsstr := cstr "30", notifytype := cstr "ONBATT", upsname := cstr upsname, notifymsg := cstr "on battery" }

theorem shared_lists_sample : SharedShown (fun _ => none) (cstr "onbatt") [] [onbattCall "ups", onbattCall "ups"] ↔
      OneValue (heededCalls [onbattCall "ups", onbattCall "ups"]) := shared_lists _ (fun _ member => by cases member) _

-- The second UPS.
theorem shared_outside :
    ¬ ∀ (fresh : Nat -> Option CString) (name : CString) (calls : List StartCall), SharedShown fresh name [] calls := by
  intro all
  obtain ⟨after, ran, _⟩ := all (fun _ => none) (cstr "onbatt") [onbattCall "ups", onbattCall "second"]
  have failed : ([onbattCall "ups", onbattCall "second"].foldlM (startShared (fun _ => none) (cstr "onbatt")) []).isNone = true := by
    decide +kernel
  rw [ran] at failed
  cases failed

end Nut
