import Mathlib.Data.List.Basic

set_option autoImplicit false

section Runs

variable {σ α ι : Type} (perform : σ -> α -> σ)

-- `P` holds all along a run: in each state, with the actions that are still to come.
def Always (P : σ -> List α -> Prop) : σ -> List α -> Prop
  | s, [] => P s []
  | s, a :: rest => P s (a :: rest) ∧ Always P (perform s a) rest

instance Always.decidable (P : σ -> List α -> Prop) [∀ s actions, Decidable (P s actions)] (s : σ)
    (actions : List α) : Decidable (Always perform P s actions) :=
  match actions with
  | [] => inferInstanceAs (Decidable (P s []))
  | a :: rest =>
    have := Always.decidable P (perform s a) rest
    inferInstanceAs (Decidable (P s (a :: rest) ∧ Always perform P (perform s a) rest))

variable {perform}

theorem always_iff {P : σ -> List α -> Prop} {s : σ} {actions : List α} : Always perform P s actions ↔
      ∀ before after, actions = before ++ after -> P (before.foldl perform s) after := by
  induction actions generalizing s with
  | nil =>
    constructor
    · intro here before after split
      obtain ⟨rfl, rfl⟩ := List.append_eq_nil_iff.mp split.symm
      exact here
    · intro all
      exact all [] [] rfl
  | cons a rest ih =>
    constructor
    · rintro ⟨here, later⟩ before after split
      cases before with
      | nil =>
        rw [List.nil_append] at split
        exact split ▸ here
      | cons b before =>
        rw [List.cons_append] at split
        obtain ⟨rfl, rest⟩ := List.cons.inj split
        exact ih.mp later before after rest
    · intro all
      refine ⟨all [] (a :: rest) rfl, ih.mpr ?_⟩
      intro before after split
      exact all (a :: before) after (by rw [split, List.cons_append])

theorem always_mono {P Q : σ -> List α -> Prop} (weaker : ∀ s actions, P s actions -> Q s actions) {s : σ}
    {actions : List α} (always : Always perform P s actions) : Always perform Q s actions :=
  always_iff.mpr fun before after split => weaker _ _ (always_iff.mp always before after split)

-- `P` holds of each action in the state it is performed in.
def EachAction (P : σ -> α -> Prop) (s : σ) (actions : List α) : Prop :=
  match actions with
  | [] => True
  | a :: _ => P s a

instance EachAction.decidable (P : σ -> α -> Prop) [∀ s a, Decidable (P s a)] (s : σ) :
    (actions : List α) -> Decidable (EachAction P s actions)
  | [] => inferInstanceAs (Decidable True)
  | a :: _ => inferInstanceAs (Decidable (P s a))

theorem always_upto {P : σ -> α -> Prop} {s : σ} {before after : List α}
    (always : Always perform (EachAction P) s (before ++ after)) : Always perform (EachAction P) s before := by
  induction before generalizing s with
  | nil => exact trivial
  | cons a before ih => exact ⟨always.1, ih always.2⟩

theorem always_behind {P : σ -> List α -> Prop} {s : σ} {before after : List α}
    (always : Always perform P s (before ++ after)) : Always perform P (before.foldl perform s) after := by
  induction before generalizing s with
  | nil => exact always
  | cons a before ih => exact ih always.2

theorem always_last {P : σ -> α -> Prop} {s : σ} {before : List α} {a : α}
    (always : Always perform (EachAction P) s (before ++ [a])) : P (before.foldl perform s) a :=
  (always_behind always).1

theorem invariant_foldl {Inv : σ -> Prop} (step : ∀ s a, Inv s -> Inv (perform s a)) {s : σ} (start : Inv s)
    (actions : List α) : Inv (actions.foldl perform s) := by
  induction actions generalizing s with
  | nil => exact start
  | cons a rest ih => exact ih (step s a start)

theorem always_invariant {Inv : σ -> Prop} (step : ∀ s a, Inv s -> Inv (perform s a)) {s : σ} (start : Inv s)
    (actions : List α) : Always perform (fun s _ => Inv s) s actions :=
  always_iff.mpr fun before _ _ => invariant_foldl step start before

-- An invariant carries a fact about each action; both may rest on a condition on the actions.
theorem always_steps {Inv : σ -> Prop} {Q : σ -> α -> Prop} {Allowed : α -> Prop}
    (step : ∀ s a, Allowed a -> Inv s -> Q s a ∧ Inv (perform s a)) {s : σ} (start : Inv s) {actions : List α}
    (allowed : ∀ a ∈ actions, Allowed a) :
    Always perform (fun s actions => Inv s ∧ EachAction Q s actions) s actions := by
  induction actions generalizing s with
  | nil => exact ⟨start, trivial⟩
  | cons a rest ih =>
    obtain ⟨here, next⟩ := step s a (allowed a List.mem_cons_self) start
    exact ⟨⟨start, here⟩, ih next fun b member => allowed b (List.mem_cons_of_mem a member)⟩

theorem always_while {Inv : σ -> Prop} {Cond Q : σ -> α -> Prop} (step : ∀ s a, Inv s -> Cond s a -> Q s a ∧ Inv (perform s a))
    {s : σ} (start : Inv s) {actions : List α} (all : Always perform (EachAction Cond) s actions) :
    Always perform (EachAction Q) s actions := by
  induction actions generalizing s with
  | nil => exact trivial
  | cons a rest ih =>
    obtain ⟨here, next⟩ := step s a start all.1
    exact ⟨here, ih next all.2⟩

theorem foldl_beside {τ : Type} {spec : τ -> α -> τ} {R : σ -> τ -> Prop} {Cond : σ -> α -> Prop} {Allowed : α -> Prop}
    (step : ∀ s t a, Allowed a -> R s t -> Cond s a -> R (perform s a) (spec t a)) {s : σ} {t : τ} (start : R s t)
    {actions : List α} (allowed : ∀ a ∈ actions, Allowed a) (all : Always perform (EachAction Cond) s actions) :
    R (actions.foldl perform s) (actions.foldl spec t) := by
  induction actions generalizing s t with
  | nil => exact start
  | cons a rest ih =>
    have next := step s t a (allowed a List.mem_cons_self) start all.1
    exact ih next (fun b member => allowed b (List.mem_cons_of_mem a member)) all.2

theorem lockstep_iff {τ : Type} {spec : τ -> α -> τ} {P : σ -> τ -> Prop} {Good : σ -> τ -> α -> Prop} {Exact : τ -> α -> Prop}
    {Allowed : α -> Prop}
    (step : ∀ s v a, Allowed a -> P s v -> (Good s v a ↔ Exact v a) ∧ (Good s v a -> P (perform s a) (spec v a)))
    {s : σ} {v : τ} (start : P s v) {actions : List α} (allowed : ∀ a ∈ actions, Allowed a) :
    (∀ before a after, actions = before ++ a :: after -> Good (before.foldl perform s) (before.foldl spec v) a) ↔
      ∀ before a after, actions = before ++ a :: after -> Exact (before.foldl spec v) a := by
  induction actions generalizing s v with
  | nil => simp
  | cons first rest ih =>
    have here := step s v first (allowed first List.mem_cons_self) start
    have later (right : Good s v first) := ih (here.2 right) fun a member => allowed a (List.mem_cons_of_mem first member)
    have parts {Q : List α -> α -> Prop} : (∀ before a after, first :: rest = before ++ a :: after -> Q before a) ↔
        Q [] first ∧ ∀ before a after, rest = before ++ a :: after -> Q (first :: before) a := by
      constructor
      · intro all
        exact ⟨all [] first rest rfl, fun before a after split => all (first :: before) a after (by rw [split]; rfl)⟩
      · rintro ⟨head, tail⟩ before a after split
        cases before with
        | nil =>
          obtain ⟨rfl, rfl⟩ := List.cons.inj split
          exact head
        | cons b before =>
          obtain ⟨rfl, same⟩ := List.cons.inj split
          exact tail before a after same
    rw [parts, parts]
    simp only [List.foldl_nil, List.foldl_cons]
    constructor
    · rintro ⟨right, all⟩
      exact ⟨here.1.mp right, (later right).mp all⟩
    · rintro ⟨exact_, all⟩
      have right := here.1.mpr exact_
      exact ⟨right, (later right).mpr all⟩

variable (perform)

def runScript (script : σ -> List α) (s : σ) : σ :=
  (script s).foldl perform s

def thenScript (first second : σ -> List α) (s : σ) : List α :=
  first s ++ second (runScript perform first s)

def eachScript (script : ι -> σ -> List α) : List ι -> σ -> List α
  | [], _ => []
  | item :: items, s =>
    script item s ++ eachScript script items (runScript perform (script item) s)

variable {perform}

theorem mem_eachScript {Inv : σ -> Prop} (step : ∀ s a, Inv s -> Inv (perform s a))
    {script : ι -> σ -> List α} {items : List ι} {s : σ} (start : Inv s) {a : α}
    (member : a ∈ eachScript perform script items s) : ∃ item ∈ items, ∃ s, Inv s ∧ a ∈ script item s := by
  induction items generalizing s with
  | nil => cases member
  | cons item items ih =>
    obtain first | later := List.mem_append.mp member
    · exact ⟨item, by simp, s, start, first⟩
    · obtain ⟨other, inside, here⟩ := ih (invariant_foldl step start (script item s)) later
      exact ⟨other, by simp [inside], here⟩

theorem append_split {xs ys before after : List α} {a : α} (split : xs ++ ys = before ++ a :: after) :
    (∃ more, xs = before ++ a :: more ∧ after = more ++ ys) ∨
      ∃ upto, before = xs ++ upto ∧ ys = upto ++ a :: after := by
  obtain ⟨upto, first, second⟩ | ⟨more, first, second⟩ := List.append_eq_append_iff.mp split
  · exact Or.inr ⟨upto, first, second⟩
  · cases more with
    | nil => exact Or.inr ⟨[], by simpa using first.symm, by simpa using second.symm⟩
    | cons b more =>
      obtain ⟨rfl, rest⟩ := List.cons.inj second
      exact Or.inl ⟨more, first, rest⟩

theorem eachScript_split {script : ι -> σ -> List α} {items : List ι} {s : σ} {before after : List α} {a : α}
    (split : eachScript perform script items s = before ++ a :: after) :
    ∃ item earlier later upto more, items = earlier ++ item :: later ∧
      script item (runScript perform (eachScript perform script earlier) s) = upto ++ a :: more ∧ after = more ++
        eachScript perform script later (more.foldl perform (perform (before.foldl perform s) a)) := by
  induction items generalizing s before with
  | nil => simp [eachScript] at split
  | cons first items ih =>
    obtain ⟨more, here, rest⟩ | ⟨upto, rfl, rest⟩ := append_split split
    · refine ⟨first, [], items, before, more, rfl, here, ?_⟩
      rw [rest, runScript, here]
      simp
    · obtain ⟨item, earlier, later, upto', more, rfl, here, after_⟩ := ih rest
      refine ⟨item, first :: earlier, later, upto', more, rfl, ?_, ?_⟩
      · rw [<- here]
        simp [runScript, eachScript]
      · rw [List.foldl_append]
        exact after_

end Runs
