set_option autoImplicit false

namespace Nut

inductive Fault where
  | outOfBounds
  | nullPointer
  -- a loop of the model that was not given enough turns
  | unfinished
  deriving DecidableEq, Repr

abbrev Checked (α : Type) : Type :=
  Except Fault α

section Arrays

variable {α : Type}

def readAt (array : List α) (index : Nat) : Checked α :=
  match array[index]? with
  | some value => .ok value
  | none => .error .outOfBounds

def writeAt (array : List α) (index : Nat) (value : α) : Checked (List α) :=
  if index < array.length then .ok (array.set index value) else .error .outOfBounds

def overwrite (array values : List α) : Checked (List α) :=
  if values.length ≤ array.length then .ok (values ++ array.drop values.length) else .error .outOfBounds

variable {array : List α} {index : Nat}

@[simp] theorem ok_bind {β : Type} (value : α) (next : α -> Checked β) : ((.ok value : Checked α) >>= next) = next value :=
  rfl

theorem readAt_inside (inside : index < array.length) : readAt array index = .ok array[index] := by
  simp [readAt, inside]

theorem writeAt_inside (inside : index < array.length) (value : α) :
    writeAt array index value = .ok (array.set index value) := by
  simp [writeAt, inside]

theorem readAt_behind (front : List α) (value : α) (back : List α) :
    readAt (front ++ value :: back) front.length = .ok value := by
  simp [readAt]

theorem writeAt_behind (front : List α) (old value : α) (back : List α) :
    writeAt (front ++ old :: back) front.length value = .ok (front ++ value :: back) := by
  simp [writeAt]

theorem overwrite_fits {values : List α} (fits : values.length ≤ array.length) :
    overwrite array values = .ok (values ++ array.drop values.length) := if_pos fits

end Arrays

section Folds

variable {Error State Item : Type} {step : State -> Item -> Except Error State}

theorem bind_eq_ok {Value Result : Type} {first : Except Error Value} {next : Value -> Except Error Result} {result : Result} :
    (first >>= next) = .ok result ↔ ∃ value, first = .ok value ∧ next value = .ok result := by
  cases first with
  | error fault =>
    constructor
    · intro bound
      cases bound
    · rintro ⟨value, none_, _⟩
      cases none_
  | ok value =>
    constructor
    · intro bound
      exact ⟨value, rfl, bound⟩
    · rintro ⟨_, ⟨rfl⟩, bound⟩
      exact bound

def Settles {Value : Type} (Fails : Error -> Prop) (Gives : Value -> Prop) : Except Error Value -> Prop
  | .error error => Fails error
  | .ok value => Gives value

theorem settles_bind {Value Result : Type} {Fails : Error -> Prop} {Gives : Value -> Prop} {Last : Result -> Prop}
    {first : Except Error Value} {next : Value -> Except Error Result} (begun : Settles Fails Gives first)
    (goes : ∀ value, Gives value -> Settles Fails Last (next value)) : Settles Fails Last (first >>= next) := by
  cases first with
  | error error => exact begun
  | ok value => exact goes value begun

theorem settles_mono {Value : Type} {Fails Fails' : Error -> Prop} {Gives Gives' : Value -> Prop} {result : Except Error Value}
    (settles : Settles Fails Gives result) (fails : ∀ error, Fails error -> Fails' error)
    (gives : ∀ value, Gives value -> Gives' value) : Settles Fails' Gives' result := by
  cases result with
  | error error => exact fails error settles
  | ok value => exact gives value settles

theorem settles_and {Value : Type} {Fails Fails' : Error -> Prop} {Gives Gives' : Value -> Prop} {result : Except Error Value}
    (first : Settles Fails Gives result) (second : Settles Fails' Gives' result) :
    Settles (fun error => Fails error ∧ Fails' error) (fun value => Gives value ∧ Gives' value) result := by
  cases result with
  | error error => exact ⟨first, second⟩
  | ok value => exact ⟨first, second⟩

theorem foldlM_keeps {Keeps : State -> Prop} (keeps : ∀ state item after, Keeps state -> step state item = .ok after -> Keeps after)
    {items : List Item} {state after : State} (start : Keeps state) (done : items.foldlM step state = .ok after) : Keeps after := by
  induction items generalizing state with
  | nil =>
    cases done
    exact start
  | cons item items ih =>
    rw [List.foldlM_cons] at done
    obtain ⟨next, stepped, rest⟩ := bind_eq_ok.mp done
    exact ih (keeps state item next start stepped) rest

def FoldsWithin (step : State -> Item -> Except Error State) (Within : State -> Item -> Prop) : List Item -> State -> Prop
  | [], _ => True
  | item :: items, state => Within state item ∧ ∀ next, step state item = .ok next -> FoldsWithin step Within items next

instance FoldsWithin.decidable {Within : State -> Item -> Prop} [∀ state item, Decidable (Within state item)] :
    (items : List Item) -> (state : State) -> Decidable (FoldsWithin step Within items state)
  | [], _ => isTrue trivial
  | item :: items, state =>
    have : Decidable (∀ next, step state item = .ok next -> FoldsWithin step Within items next) :=
      match step state item with
      | .error _ => isTrue fun _ same => by cases same
      | .ok next =>
        match FoldsWithin.decidable items next with
        | isTrue within => isTrue fun _ same => by cases same; exact within
        | isFalse without => isFalse fun all => without (all next rfl)
    inferInstanceAs (Decidable (Within state item ∧ _))

def Alike {Value Other : Type} (Belong : Value -> Other -> Prop) : Except Error Value -> Except Error Other -> Prop
  | .ok value, .ok other => Belong value other
  | .error error, .error error_ => error = error_
  | _, _ => False

theorem alike_bind {Value Other Result Last : Type} {Belong : Value -> Other -> Prop} {Belong_ : Result -> Last -> Prop}
    {first : Except Error Value} {second : Except Error Other} {next : Value -> Except Error Result}
    {next_ : Other -> Except Error Last} (alike : Alike Belong first second)
    (goes : ∀ value other, first = .ok value -> Belong value other -> Alike Belong_ (next value) (next_ other)) :
    Alike Belong_ (first >>= next) (second >>= next_) := by
  cases first with
  | error error =>
    cases second with
    | error error_ => exact alike
    | ok other => cases alike
  | ok value =>
    cases second with
    | error error => cases alike
    | ok other => exact goes value other rfl alike

theorem foldlM_alike {Other : Type} {step_ : Other -> Item -> Except Error Other} {Within : State -> Item -> Prop}
    {Belong : State -> Other -> Prop} {items : List Item}
    (alike : ∀ state other, ∀ item ∈ items, Belong state other -> Within state item ->
      Alike Belong (step state item) (step_ other item))
    {state : State} {other : Other} (start : Belong state other) (within : FoldsWithin step Within items state) :
    Alike Belong (items.foldlM step state) (items.foldlM step_ other) := by
  induction items generalizing state other with
  | nil => exact start
  | cons item items ih =>
    rw [List.foldlM_cons, List.foldlM_cons]
    refine alike_bind (alike state other item List.mem_cons_self start within.1) fun next next_ stepped now => ?_
    exact ih (fun state other item member => alike state other item (List.mem_cons_of_mem _ member)) now (within.2 next stepped)

section Views

variable {Keeps : State -> Prop} {Fits : Item -> Prop}

theorem foldlM_view {Cell Part : Type} {view : State -> Cell} {pick : Item -> Option Part}
    {cellStep : Cell -> Part -> Except Error Cell}
    (keeps : ∀ state item after, Keeps state -> Fits item -> step state item = .ok after -> Keeps after)
    (own : ∀ state item after, Keeps state -> Fits item -> step state item = .ok after ->
      match pick item with
      | some part => cellStep (view state) part = .ok (view after)
      | none => view after = view state)
    {items : List Item} (fits : ∀ item ∈ items, Fits item) {state after : State} (start : Keeps state)
    (done : items.foldlM step state = .ok after) :
    (items.filterMap pick).foldlM cellStep (view state) = .ok (view after) := by
  induction items generalizing state with
  | nil =>
    cases done
    rfl
  | cons item items ih =>
    rw [List.foldlM_cons] at done
    obtain ⟨next, stepped, rest⟩ := bind_eq_ok.mp done
    have fit := fits item List.mem_cons_self
    have later := ih (fun each member => fits each (List.mem_cons_of_mem _ member)) (keeps state item next start fit stepped) rest
    have one := own state item next start fit stepped
    cases picked : pick item with
    | some part =>
      rw [picked] at one
      rw [List.filterMap_cons_some picked, List.foldlM_cons, one]
      exact later
    | none =>
      rw [picked] at one
      rw [List.filterMap_cons_none picked, <- one]
      exact later

theorem foldlM_happens {Happens : State -> Prop} {Causes : State -> Item -> Prop}
    (keeps : ∀ state item after, Keeps state -> Fits item -> step state item = .ok after -> Keeps after)
    (causes : ∀ state item after, Keeps state -> Fits item -> step state item = .ok after ->
      (Happens after ↔ Happens state ∨ Causes state item))
    {items : List Item} (fits : ∀ item ∈ items, Fits item) {state after : State} (start : Keeps state)
    (done : items.foldlM step state = .ok after) : Happens after ↔ Happens state ∨
      ∃ front item back before, items = front ++ item :: back ∧ front.foldlM step state = .ok before ∧ Causes before item := by
  induction items generalizing state with
  | nil =>
    cases done
    simp
  | cons item items ih =>
    rw [List.foldlM_cons] at done
    obtain ⟨next, stepped, rest⟩ := bind_eq_ok.mp done
    have fit := fits item List.mem_cons_self
    rw [ih (fun each member => fits each (List.mem_cons_of_mem _ member)) (keeps state item next start fit stepped) rest,
      causes state item next start fit stepped, or_assoc]
    apply or_congr_right
    constructor
    · rintro (first | ⟨front, each, back, before, rfl, reached, caused⟩)
      · exact ⟨[], item, items, state, rfl, rfl, first⟩
      · refine ⟨item :: front, each, back, before, rfl, ?_, caused⟩
        rw [List.foldlM_cons, stepped]
        exact reached
    · rintro ⟨front, each, back, before, split, reached, caused⟩
      cases front with
      | nil =>
        rw [List.nil_append, List.cons.injEq] at split
        cases reached
        exact .inl (split.1 ▸ caused)
      | cons head front =>
        rw [List.cons_append, List.cons.injEq] at split
        rw [List.foldlM_cons, <- split.1, stepped] at reached
        exact .inr ⟨front, each, back, before, split.2, reached, caused⟩

theorem foldlM_within (keeps : ∀ state item after, Keeps state -> Fits item -> step state item = .ok after -> Keeps after)
    {items : List Item} (fits : ∀ item ∈ items, Fits item) {state after : State} (start : Keeps state)
    (done : items.foldlM step state = .ok after) : Keeps after := by
  induction items generalizing state with
  | nil =>
    cases done
    exact start
  | cons item items ih =>
    rw [List.foldlM_cons] at done
    obtain ⟨next, stepped, rest⟩ := bind_eq_ok.mp done
    have next_ := keeps state item next start (fits item List.mem_cons_self) stepped
    exact ih (fun each member => fits each (List.mem_cons_of_mem _ member)) next_ rest

end Views

theorem filterMap_split {Part : Type} {pick : Item -> Option Part} {items : List Item} {front_ back_ : List Part} {part : Part}
    (split : items.filterMap pick = front_ ++ part :: back_) :
    ∃ front item back, items = front ++ item :: back ∧ pick item = some part ∧ front.filterMap pick = front_ := by
  induction items generalizing front_ with
  | nil => simp at split
  | cons item items ih =>
    cases picked : pick item with
    | none =>
      rw [List.filterMap_cons_none picked] at split
      obtain ⟨front, each, back, rfl, own, rest⟩ := ih split
      exact ⟨item :: front, each, back, rfl, own, by rw [List.filterMap_cons_none picked, rest]⟩
    | some first =>
      rw [List.filterMap_cons_some picked] at split
      cases front_ with
      | nil =>
        rw [List.nil_append, List.cons.injEq] at split
        exact ⟨[], item, items, rfl, picked.trans (congrArg some split.1), rfl⟩
      | cons head front_ =>
        rw [List.cons_append, List.cons.injEq] at split
        obtain ⟨front, each, back, rfl, own, rest⟩ := ih split.2
        refine ⟨item :: front, each, back, rfl, own, ?_⟩
        rw [List.filterMap_cons_some picked, rest, split.1]

theorem foldlM_stops {items : List Item} {state : State} {error : Error} (stops : items.foldlM step state = .error error) :
    ∃ front item back before, items = front ++ item :: back ∧ front.foldlM step state = .ok before ∧
      step before item = .error error := by
  induction items generalizing state with
  | nil => cases stops
  | cons item items ih =>
    cases stepped : step state item with
    | error other =>
      rw [List.foldlM_cons, stepped] at stops
      cases stops
      exact ⟨[], item, items, state, rfl, rfl, stepped⟩
    | ok next =>
      rw [List.foldlM_cons, stepped] at stops
      obtain ⟨front, each, back, before, rfl, reached, last⟩ := ih stops
      refine ⟨item :: front, each, back, before, rfl, ?_, last⟩
      rw [List.foldlM_cons, stepped]
      exact reached

end Folds

end Nut
