import Mathlib.Logic.Function.Basic
import Nut.Library.SearchTree

set_option autoImplicit false

structure TreeCell (α : Type) where
  value : α
  left : Option (List Bool)
  right : Option (List Bool)

abbrev TreeCells (α : Type) := List Bool -> Option (TreeCell α)

namespace SearchTree

variable {α : Type}

def link (place : List Bool) : SearchTree α -> Option (List Bool)
  | nil => none
  | node _ _ _ => some place

def cell (place : List Bool) : SearchTree α -> Option (TreeCell α)
  | nil => none
  | node left value right =>
    some { value, left := left.link (place ++ [false]), right := right.link (place ++ [true]) }

def subtree : SearchTree α -> List Bool -> SearchTree α
  | t, [] => t
  | nil, _ :: _ => nil
  | node left _ _, false :: path => left.subtree path
  | node _ _ right, true :: path => right.subtree path

def cells (t : SearchTree α) : TreeCells α :=
  fun place => (t.subtree place).cell place

end SearchTree

namespace TreeCells

variable {α : Type}

def collect (cells : TreeCells α) : Nat -> Option (List Bool) -> Option (SearchTree α)
  | _, none => some .nil
  | 0, some _ => none
  | fuel + 1, some place =>
    (cells place).bind fun cell =>
      (cells.collect fuel cell.left).bind fun left =>
        (cells.collect fuel cell.right).map fun right => .node left cell.value right

def leftmost (cells : TreeCells α) : Nat -> List Bool -> Option (List Bool)
  | 0, _ => none
  | fuel + 1, place =>
    (cells place).bind fun cell => cell.left.elim (some place) (cells.leftmost fuel)

def Spread (cells : TreeCells α) (place : List Bool) (t : SearchTree α) : Prop :=
  ∀ path, cells (place ++ path) = (t.subtree path).cell (place ++ path)

section Spread

variable {cells cells' : TreeCells α} {place : List Bool} {t left right : SearchTree α} {value : α}

theorem spread_cells (t : SearchTree α) : Spread t.cells [] t :=
  fun _ => rfl

theorem spread_frame (spread : Spread cells place t) (same : ∀ path, cells' (place ++ path) = cells (place ++ path)) :
    Spread cells' place t :=
  fun path => (same path).trans (spread path)

theorem spread_node (spread : Spread cells place (.node left value right)) :
    cells place = some { value, left := left.link (place ++ [false]), right := right.link (place ++ [true]) } ∧
      Spread cells (place ++ [false]) left ∧ Spread cells (place ++ [true]) right := by
  refine ⟨?_, fun path => ?_, fun path => ?_⟩
  · have here := spread []
    rwa [List.append_nil] at here
  · rw [List.append_assoc]
    exact spread (false :: path)
  · rw [List.append_assoc]
    exact spread (true :: path)

theorem collect_spread (spread : Spread cells place t) {fuel : Nat} (enough : t.toList.length ≤ fuel) :
    cells.collect fuel (t.link place) = some t := by
  induction t generalizing place fuel with
  | nil => cases fuel <;> rfl
  | node left value right ihLeft ihRight =>
    rw [SearchTree.toList_node, List.length_append, List.length_cons] at enough
    obtain ⟨here, onLeft, onRight⟩ := spread_node spread
    cases fuel with
    | zero => omega
    | succ fuel =>
      rw [SearchTree.link, collect, here, Option.bind_some]
      dsimp only
      rw [ihLeft onLeft (by omega), ihRight onRight (by omega)]
      rfl

theorem leftmost_spread (spread : Spread cells place (.node left value right)) {fuel : Nat} (enough : left.toList.length < fuel) :
    ∃ at_ first rest, cells.leftmost fuel place = some at_ ∧ Spread cells at_ (.node .nil first rest) ∧
      (SearchTree.node .nil first rest).toList.Sublist (SearchTree.node left value right).toList ∧
      (left = .nil -> at_ = place ∧ first = value ∧ rest = right) := by
  induction left generalizing place value right fuel with
  | nil =>
    cases fuel with
    | zero => omega
    | succ fuel =>
      obtain ⟨here, -, -⟩ := spread_node spread
      refine ⟨place, value, right, ?_, spread, List.Sublist.refl _, fun _ => ⟨rfl, rfl, rfl⟩⟩
      rw [leftmost, here]
      rfl
  | node far near behind ihFar _ =>
    rw [SearchTree.toList_node, List.length_append, List.length_cons] at enough
    cases fuel with
    | zero => omega
    | succ fuel =>
      obtain ⟨here, onLeft, -⟩ := spread_node spread
      have enough' : far.toList.length < fuel := by omega
      obtain ⟨at_, first, rest, found, there, inside, -⟩ := ihFar onLeft enough'
      refine ⟨at_, first, rest, ?_, there, inside.trans ?_, fun none_ => by cases none_⟩
      · rw [leftmost, here]
        exact found
      · rw [SearchTree.toList_node (.node far near behind)]
        exact List.sublist_append_left _ _

end Spread

end TreeCells
