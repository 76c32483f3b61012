import Nut.Clients.UpsmonFlags
import Nut.Common.StateMap
import Nut.Library.LinkedTree

set_option autoImplicit false

namespace Nut

open UpsPoll

def handledWords : List String :=
  ["OL", "OB", "LB", "RB", "CAL", "OFF", "BYPASS", "ECO", "ALARM", "OVER", "TRIM", "BOOST", "FSD", "HB", "CHRG", "DISCHRG"]

def handled (statword : CString) : Bool :=
  handledWords.any fun word => isStatword statword word

inductive OtherNotice where
  | other (words : CString)
  | notother
  deriving DecidableEq

structure AddingTokens where
  tokens : StTree
  ticks : Nat
  words : CString
  changed : Nat

-- `state_setinfo` comes to the same node from the root and from the node that was found.
def AddingTokens.word (clock : Nat -> Int) (s : AddingTokens) (statword : CString) : AddingTokens :=
  if handled statword then s
  else
    { tokens := (stateSetinfo (clock s.ticks) statword (cstr "1") s.tokens).1
      ticks := s.ticks + 1
      words := snprintfcat s.words smallbuf ((if s.words = [] then [] else [32]) ++ statword)
      changed := if (stateTreeFind s.tokens statword).isSome then s.changed else s.changed + 1 }

structure DroppingTokens where
  cells : TreeCells StNode
  root : Option (List Bool)
  changed : Nat

def DroppingTokens.drop (place : List Bool) (node : TreeCell StNode) (s : DroppingTokens) : Option DroppingTokens :=
  -- whatever is on the left, hang it off current right
  let hung := node.right.elim (some s.cells) fun right =>
    (s.cells right).map fun cell => Function.update s.cells right (some { cell with left := node.left })
  hung.bind fun cells =>
    -- whatever is on the right, hang it off current left
    let hung := node.left.elim (some cells) fun left =>
      (cells left).map fun cell => Function.update cells left (some { cell with right := node.right })
    hung.map fun cells =>
      { cells := Function.update cells place none
        root := if s.root = some place then node.left.or node.right else s.root
        changed := s.changed + 1 }

-- From left to right, by the right link that a node had when the walk came to it.
def dropTokens (cutoff : Int) : Nat -> Option (List Bool) -> DroppingTokens -> Option DroppingTokens
  | _, none, s => some s
  | 0, some _, _ => none
  | fuel + 1, some place, s =>
    (s.cells place).bind fun node =>
      if stTreeNodeCompareTimestamp node.value cutoff < 0 then
        (s.drop place node).bind fun s => dropTokens cutoff fuel node.right s
      else dropTokens cutoff fuel node.right s

def AddingTokens.dropping (added : AddingTokens) : DroppingTokens :=
  { cells := added.tokens.cells, root := added.tokens.link [], changed := added.changed }

def AddingTokens.drop (cutoff : Int) (added : AddingTokens) : Option DroppingTokens :=
  added.dropping.root.elim (some added.dropping) fun root =>
    (added.dropping.cells.leftmost added.tokens.toList.length root).bind fun first =>
      dropTokens cutoff added.tokens.toList.length (some first) added.dropping

-- `status_tokens` of a UPS. There are none once the links lead to a node that was freed, or are those of no tree.
structure OtherTokens where
  tokens : Option StTree
  ticks : Nat

def OtherTokens.added (clock : Nat -> Int) (s : OtherTokens) (tokens : StTree) (status : CString) : AddingTokens :=
  (status.splitOn 32).foldl (AddingTokens.word clock) { tokens, ticks := s.ticks + 1, words := [], changed := 0 }

def OtherTokens.parse (clock : Nat -> Int) (s : OtherTokens) (status : CString) : OtherTokens × List OtherNotice :=
  match s.tokens with
  | none => (s, [])
  | some tokens =>
    if status = [] then (s, [])
    else
      let added := s.added clock tokens status
      match added.drop (clock s.ticks) with
      | none => ({ tokens := none, ticks := added.ticks }, [])
      | some dropped =>
        let left := dropped.cells.collect added.tokens.toList.length dropped.root
        if dropped.changed = 0 then ({ tokens := left, ticks := added.ticks }, [])
        else if added.words ≠ [] then ({ tokens := left, ticks := added.ticks }, [.other added.words])
        else ({ tokens := left.map fun _ => .nil, ticks := added.ticks }, [.notother])

def OtherTokens.step (clock : Nat -> Int) (s : OtherTokens) (status : CString) : OtherTokens :=
  (s.parse clock status).1

def wordNamed (words : List CString) (word : CString) : Bool :=
  words.any fun statword => !handled statword && strcasecmp statword word == .eq

def otherNamed (status word : CString) : Bool :=
  wordNamed (status.splitOn 32) word

def OtherTokens.has (s : OtherTokens) (word : CString) : Bool :=
  s.tokens.any fun t => (stateTreeFind t word).isSome

structure TokensFollow (clock : Nat -> Int) (s : OtherTokens) (status : CString) : Prop where
  tree : ∃ t, (s.step clock status).tokens = some t ∧ Ordered t
  words : ∀ word, (s.step clock status).has word = otherNamed status word
  other : (∃ words, .other words ∈ (s.parse clock status).2) ↔
    (∃ word, (s.step clock status).has word ≠ s.has word) ∧ ∃ word, (s.step clock status).has word = true
  notother : .notother ∈ (s.parse clock status).2 ↔
    (∃ word, s.has word = true) ∧ ∀ word, (s.step clock status).has word = false

def otherWords (status : CString) : List CString :=
  (status.splitOn 32).filter fun statword => !handled statword

def topmost (words : List CString) (stale : StNode -> Bool) : Bool -> StTree -> Bool
  | behind, .nil => !behind || words.head?.all fun first => words.all fun word => strcasecmp word first ≠ .lt
  | behind, .node left node right =>
    if stale node then
      (if behind then left.toList.all stale else left = .nil) && words.all (fun word => strcasecmp word node.var ≠ .lt) &&
        topmost words stale true right
    else if behind then
      left.toList.all stale && words.all (fun word => strcasecmp word node.var ≠ .lt) && right.toList.all fun other => !stale other
    else (left.toList ++ right.toList).all fun other => !stale other

section Topmost

variable {words : List CString} {stale : StNode -> Bool} {behind : Bool} {left right : StTree} {node : StNode}

theorem topmost_stale (goes : stale node = true) : topmost words stale behind (.node left node right) = true ↔
      (if behind then ∀ other ∈ left.toList, stale other = true else left = .nil) ∧
        (∀ word ∈ words, strcasecmp word node.var ≠ .lt) ∧ topmost words stale true right = true := by
  cases behind <;> simp [topmost, goes, and_assoc]

theorem topmost_first (stays : stale node = false) : topmost words stale true (.node left node right) = true ↔
      (∀ other ∈ left.toList, stale other = true) ∧ (∀ word ∈ words, strcasecmp word node.var ≠ .lt) ∧
        ∀ other ∈ right.toList, stale other = false := by
  simp [topmost, stays, and_assoc]

theorem topmost_live (stays : stale node = false) : topmost words stale false (.node left node right) = true ↔
      (∀ other ∈ left.toList, stale other = false) ∧ ∀ other ∈ right.toList, stale other = false := by
  simp [topmost, stays]

theorem topmost_nil : topmost words stale true .nil = true ↔
    ∀ first ∈ words.head?, ∀ word ∈ words, strcasecmp word first ≠ .lt := by
  cases words with
  | nil => simp [topmost]
  | cons first rest => simp [topmost]

end Topmost

def StNode.older (cutoff : Int) (node : StNode) : Bool :=
  node.lastset < cutoff

def OtherTokens.vanishing (clock : Nat -> Int) (s : OtherTokens) (status word : CString) : Bool :=
  !otherNamed status word && s.tokens.any fun t => (stateTreeFind t word).any (StNode.older (clock s.ticks))

-- No link is left to a token that is freed.
def KeepsTree (clock : Nat -> Int) (s : OtherTokens) (status : CString) : Prop :=
  ∀ t ∈ s.tokens, topmost (otherWords status) (fun node => s.vanishing clock status node.var) false t = true

instance KeepsTree.decidable (clock : Nat -> Int) (s : OtherTokens) (status : CString) : Decidable (KeepsTree clock s status) :=
  inferInstanceAs (Decidable (∀ t ∈ s.tokens, topmost (otherWords status) (fun node => s.vanishing clock status node.var) false t = true))

structure Droppable (clock : Nat -> Int) (s : OtherTokens) (status : CString) : Prop where
  later : ∀ t ∈ s.tokens, ∀ node ∈ t.toList, otherNamed status node.var = false -> node.lastset < clock s.ticks
  spelt : otherWords status ≠ [] -> ∃ word ∈ otherWords status, word ≠ []
  shape : ∀ t ∈ s.tokens, topmost (otherWords status) (fun node => !otherNamed status node.var) false t = true

instance Droppable.decidable (clock : Nat -> Int) (s : OtherTokens) (status : CString) : Decidable (Droppable clock s status) :=
  decidable_of_iff
    ((∀ t ∈ s.tokens, ∀ node ∈ t.toList, otherNamed status node.var = false -> node.lastset < clock s.ticks) ∧
      (otherWords status ≠ [] -> ∃ word ∈ otherWords status, word ≠ []) ∧
      ∀ t ∈ s.tokens, topmost (otherWords status) (fun node => !otherNamed status node.var) false t = true)
    ⟨fun ⟨later, spelt, shape⟩ => ⟨later, spelt, shape⟩, fun ⟨later, spelt, shape⟩ => ⟨later, spelt, shape⟩⟩

section Walk

open TreeCells

variable {cutoff : Int} {s : DroppingTokens} {place : List Bool} {t left right : StTree} {node : StNode} {fuel : Nat}

theorem compareTimestamp_older (node : StNode) (cutoff : Int) :
    stTreeNodeCompareTimestamp node cutoff < 0 ↔ node.older cutoff = true := by
  unfold stTreeNodeCompareTimestamp StNode.older
  split_ifs with older newer <;> simp [older]

theorem dropTokens_kept {cell : TreeCell StNode} (here : s.cells place = some cell) (live : cell.value.older cutoff = false) :
    dropTokens cutoff (fuel + 1) (some place) s = dropTokens cutoff fuel cell.right s := by
  have kept : ¬ stTreeNodeCompareTimestamp cell.value cutoff < 0 := by
    rw [compareTimestamp_older, live]
    exact Bool.false_ne_true
  rw [dropTokens, here, Option.bind_some, if_neg kept]

theorem dropTokens_older {cell : TreeCell StNode} (here : s.cells place = some cell) (older : cell.value.older cutoff = true) :
    dropTokens cutoff (fuel + 1) (some place) s = (s.drop place cell).bind (dropTokens cutoff fuel cell.right) := by
  rw [dropTokens, here, Option.bind_some, if_pos ((compareTimestamp_older cell.value cutoff).mpr older)]

theorem dropTokens_live (spread : Spread s.cells place t) (enough : t.toList.length ≤ fuel)
    (live : ∀ node ∈ t.toList, node.older cutoff = false) : dropTokens cutoff fuel (t.link place) s = some s := by
  induction t generalizing place fuel with
  | nil => cases fuel <;> rfl
  | node left value right _ ih =>
    rw [SearchTree.toList_node, List.length_append, List.length_cons] at enough
    cases fuel with
    | zero => omega
    | succ fuel =>
      obtain ⟨here, -, onRight⟩ := spread_node spread
      rw [SearchTree.link, dropTokens_kept here (live value (by simp))]
      exact ih onRight (by omega) fun node member => live node (by simp [member])

structure Dropped (cutoff : Int) (nodes : List StNode) (s s' : DroppingTokens) (rest : StTree) : Prop where
  collected : ∀ {fuel : Nat}, rest.toList.length ≤ fuel -> s'.cells.collect fuel s'.root = some rest
  kept : rest.toList = nodes.filter fun node => !node.older cutoff
  changed : s'.changed = 0 ↔ s.changed = 0 ∧ ∀ node ∈ nodes, node.older cutoff = false

theorem drop_top {next : List Bool} {cell : TreeCell StNode} (root : s.root = some place) (there : s.cells next = some cell) :
    s.drop place { value := node, left := none, right := some next } =
      some { cells := Function.update (Function.update s.cells next (some { cell with left := none })) place none
             root := some next
             changed := s.changed + 1 } := by
  simp [DroppingTokens.drop, there, root]

theorem place_append_ne (place : List Bool) (turn : Bool) (path : List Bool) : place ++ turn :: path ≠ place := by
  intro same
  have length := congrArg List.length same
  rw [List.length_append, List.length_cons] at length
  omega

theorem filter_live {nodes : List StNode} (live : ∀ node ∈ nodes, node.older cutoff = false) :
    (nodes.filter fun node => !node.older cutoff) = nodes :=
  List.filter_eq_self.mpr fun node member => by rw [live node member]; rfl

theorem collect_top {cells : TreeCells StNode}
    (here : cells place = some { value := node, left := none, right := right.link (place ++ [true]) })
    (spread : Spread cells (place ++ [true]) right) (enough : right.toList.length < fuel) :
    cells.collect fuel (some place) = some (.node .nil node right) := by
  cases fuel with
  | zero => omega
  | succ fuel =>
    have none_ : cells.collect fuel none = some .nil := by cases fuel <;> rfl
    rw [TreeCells.collect, here, Option.bind_some]
    dsimp only
    rw [none_, Option.bind_some, collect_spread spread (by omega)]
    rfl

theorem dropped_live (root : s.root = some place)
    (here : s.cells place = some { value := node, left := none, right := right.link (place ++ [true]) })
    (spread : Spread s.cells (place ++ [true]) right) (live : ∀ other ∈ node :: right.toList, other.older cutoff = false) :
    Dropped cutoff (node :: right.toList) s s (.node .nil node right) := by
  constructor
  case collected =>
    intro fuel enough
    rw [SearchTree.toList_node, List.length_append, List.length_cons] at enough
    rw [root]
    exact collect_top here spread (by omega)
  case kept => exact (filter_live live).symm
  case changed => exact ⟨fun zero => ⟨zero, live⟩, And.left⟩

theorem Dropped.behind {nodes lost : List StNode} {s₁ s' : DroppingTokens} {rest : StTree}
    (dropped : Dropped cutoff nodes s₁ s' rest) (again : s₁.changed = s.changed + 1) {first : StNode} (older : first.older cutoff = true)
    (gone : ∀ other ∈ lost, other.older cutoff = true) : Dropped cutoff (first :: (lost ++ nodes)) s s' rest := by
  have dropsLost : (lost.filter fun node => !node.older cutoff) = [] :=
    List.filter_eq_nil_iff.mpr fun other member => by simp [gone other member]
  constructor
  case collected => exact dropped.collected
  case kept => rw [dropped.kept, List.filter_cons_of_neg (by simp [older]), List.filter_append, dropsLost, List.nil_append]
  case changed =>
    rw [dropped.changed, again]
    refine ⟨fun zero => absurd zero.1 (Nat.succ_ne_zero _), fun zero => ?_⟩
    rw [zero.2 first List.mem_cons_self] at older
    cases older

theorem topmost_behind {stale : StNode -> Bool} (top : topmost [] stale true (.node left node right) = true) :
    (∀ other ∈ left.toList, stale other = true) ∧ topmost [] stale true (.node .nil node right) = true := by
  cases goes : stale node with
  | true =>
    rw [topmost_stale goes] at top ⊢
    exact ⟨top.1, fun other member => absurd member List.not_mem_nil, top.2⟩
  | false =>
    rw [topmost_first goes] at top ⊢
    exact ⟨top.1, fun other member => absurd member List.not_mem_nil, top.2⟩

theorem dropTokens_stops (root : s.root = some place)
    (here : s.cells place = some { value := node, left := none, right := right.link (place ++ [true]) })
    (spread : Spread s.cells (place ++ [true]) right) (enough : right.toList.length < fuel)
    (top : topmost [] (StNode.older cutoff) true (.node .nil node right) = true) (stays : node.older cutoff = false) :
    dropTokens cutoff fuel (some place) s = some s ∧ Dropped cutoff (node :: right.toList) s s (.node .nil node right) := by
  have live : ∀ other ∈ node :: right.toList, other.older cutoff = false := by
    simpa [topmost, stays] using top
  refine ⟨?_, dropped_live root here spread live⟩
  cases fuel with
  | zero => omega
  | succ fuel =>
    rw [dropTokens_kept here stays]
    exact dropTokens_live spread (by omega) fun other member => live other (List.mem_cons_of_mem node member)

theorem dropTokens_behind (root : s.root = some place)
    (here : s.cells place = some { value := node, left := none, right := right.link (place ++ [true]) })
    (spread : Spread s.cells (place ++ [true]) right) (enough : right.toList.length < fuel)
    (top : topmost [] (StNode.older cutoff) true (.node .nil node right) = true) :
    ∃ s' rest, dropTokens cutoff fuel (some place) s = some s' ∧ Dropped cutoff (node :: right.toList) s s' rest := by
  induction right generalizing node place s fuel with
  | nil =>
    cases older : node.older cutoff with
    | false => exact ⟨s, _, dropTokens_stops root here spread enough top older⟩
    | true =>
      cases fuel with
      | zero => omega
      | succ fuel =>
        refine ⟨{ cells := Function.update s.cells place none, root := none, changed := s.changed + 1 }, .nil, ?_, ?_⟩
        · rw [dropTokens_older here older]
          simp [DroppingTokens.drop, SearchTree.link, root, dropTokens]
        · constructor
          case collected =>
            intro fuel _
            cases fuel <;> rfl
          case kept => simp [older]
          case changed => simp [older]
  | node left value right _ ih =>
    cases older : node.older cutoff with
    | false => exact ⟨s, _, dropTokens_stops root here spread enough top older⟩
    | true =>
      rw [SearchTree.toList_node, List.length_append, List.length_cons] at enough
      cases fuel with
      | zero => omega
      | succ fuel =>
        obtain ⟨there, -, onRight⟩ := spread_node spread
        have behind : topmost [] (StNode.older cutoff) true (.node left value right) = true := by
          simpa [topmost, older] using top
        obtain ⟨gone, top'⟩ := topmost_behind behind
        have onRight' : Spread (Function.update (Function.update s.cells (place ++ [true])
            (some { value, left := none, right := right.link (place ++ [true] ++ [true]) })) place none)
            (place ++ [true] ++ [true]) right := by
          refine spread_frame onRight fun path => ?_
          rw [Function.update_of_ne, Function.update_of_ne]
          · rw [List.append_assoc]
            exact place_append_ne _ _ _
          · rw [List.append_assoc, List.append_assoc]
            exact place_append_ne _ _ _
        have here' : Function.update (Function.update s.cells (place ++ [true])
            (some { value, left := none, right := right.link (place ++ [true] ++ [true]) })) place none (place ++ [true]) =
            some { value, left := none, right := right.link (place ++ [true] ++ [true]) } := by
          rw [Function.update_of_ne (place_append_ne _ _ _), Function.update_self]
        have enough' : right.toList.length < fuel := by omega
        obtain ⟨s', rest, run, dropped⟩ := @ih
          { cells := _, root := some (place ++ [true]), changed := s.changed + 1 } (place ++ [true]) value fuel
          rfl here' onRight' enough' top'
        refine ⟨s', rest, ?_, dropped.behind rfl older gone⟩
        rw [dropTokens_older here older, SearchTree.link, drop_top root there]
        exact run

theorem topmost_root {stale : StNode -> Bool} (top : topmost [] stale false (.node left node right) = true) :
    (stale node = true -> left = .nil ∧ topmost [] stale true (.node .nil node right) = true) ∧
      (stale node = false -> ∀ other ∈ (SearchTree.node left node right).toList, stale other = false) := by
  constructor
  · intro goes
    rw [topmost_stale goes] at top ⊢
    exact ⟨top.1, fun other member => absurd member List.not_mem_nil, top.2⟩
  · intro stays other member
    rw [topmost_live stays] at top
    rcases List.mem_append.mp member with inLeft | inside
    · exact top.1 other inLeft
    rcases List.mem_cons.mp inside with rfl | inRight
    · exact stays
    · exact top.2 other inRight

theorem drop_topmost {added : AddingTokens} (top : topmost [] (StNode.older cutoff) false added.tokens = true) :
    ∃ s' rest, added.drop cutoff = some s' ∧ Dropped cutoff added.tokens.toList added.dropping s' rest := by
  obtain ⟨t, ticks, words, changed⟩ := added
  have spread : Spread t.cells [] t := spread_cells t
  cases t with
  | nil =>
    refine ⟨_, .nil, rfl, ?_, rfl, ⟨fun zero => ⟨zero, by simp⟩, And.left⟩⟩
    intro fuel _
    cases fuel <;> rfl
  | node left node right =>
    have room : left.toList.length < (SearchTree.node left node right).toList.length := by
      rw [SearchTree.toList_node, List.length_append, List.length_cons]
      omega
    obtain ⟨first, value, rest, found, there, inside, near⟩ := leftmost_spread spread room
    obtain ⟨roots, stays⟩ := topmost_root top
    have walk : AddingTokens.drop cutoff { tokens := .node left node right, ticks, words, changed } =
        dropTokens cutoff (SearchTree.node left node right).toList.length (some first)
          { cells := (SearchTree.node left node right).cells, root := some [], changed } := by
      unfold AddingTokens.drop AddingTokens.dropping
      dsimp only
      rw [SearchTree.link, Option.elim_some, found, Option.bind_some]
    rw [walk]
    cases older : node.older cutoff with
    | true =>
      obtain ⟨rfl, top'⟩ := roots older
      obtain ⟨rfl, rfl, rfl⟩ := near rfl
      obtain ⟨here, -, onRight⟩ := spread_node there
      exact dropTokens_behind rfl here onRight (by simp) top'
    | false =>
      refine ⟨_, .node left node right, dropTokens_live there inside.length_le fun other member => ?_, ?_⟩
      · exact stays older other (inside.subset member)
      · constructor
        case collected => exact fun enough => collect_spread spread enough
        case kept => exact (filter_live (stays older)).symm
        case changed => exact ⟨fun zero => ⟨zero, stays older⟩, And.left⟩

end Walk

section Words

variable {clock : Nat -> Int} {t : StTree} {seen : List CString}

structure Added (cutoff : Int) (t : StTree) (ticks : Nat) (seen : List CString) (s : AddingTokens) : Prop where
  ordered : Ordered s.tokens
  read : ticks < s.ticks
  known : ∀ word, (stateTreeFind s.tokens word).isSome = ((stateTreeFind t word).isSome || wordNamed seen word)
  timed : ∀ node ∈ s.tokens.toList, if wordNamed seen node.var then cutoff ≤ node.lastset else node ∈ t.toList
  spelt : s.words = [] ↔ ∀ statword ∈ seen, handled statword = false -> statword = []
  changed : s.changed = 0 ↔ ∀ word, wordNamed seen word = true -> (stateTreeFind t word).isSome = true

variable {cutoff : Int} {ticks : Nat} {s : AddingTokens} {statword word : CString}

theorem wordNamed_append (seen : List CString) (statword word : CString) :
    wordNamed (seen ++ [statword]) word = (wordNamed seen word || (!handled statword && strcasecmp statword word == .eq)) := by
  rw [wordNamed, List.any_append, List.any_cons, List.any_nil, Bool.or_false]
  rfl

theorem wordNamed_handled (known : handled statword = true) (word : CString) :
    wordNamed (seen ++ [statword]) word = wordNamed seen word := by
  rw [wordNamed_append, known]
  simp

theorem wordNamed_same (unknown : handled statword = false) (same : strcasecmp statword word = .eq) :
    wordNamed (seen ++ [statword]) word = true := by
  rw [wordNamed_append, unknown, same]
  simp

theorem wordNamed_other (different : strcasecmp statword word ≠ .eq) :
    wordNamed (seen ++ [statword]) word = wordNamed seen word := by
  rw [wordNamed_append, beq_eq_false_iff_ne.mpr different]
  simp

theorem wordNamed_congr {other : CString} (same : strcasecmp word other = .eq) : wordNamed seen word = wordNamed seen other := by
  unfold wordNamed
  congr 1
  funext statword
  rw [Std.TransCmp.congr_right same]

theorem snprintfcat_nil (buf text : CString) :
    snprintfcat buf smallbuf ((if buf = [] then [] else [32]) ++ text) = [] ↔ buf = [] ∧ text = [] := by
  cases buf with
  | nil => simp [snprintfcat, smallbuf]
  | cons b rest =>
    unfold snprintfcat
    split <;> simp

theorem added_start (clock : Nat -> Int) (ordered : Ordered t) (ticks : Nat) :
    Added (clock ticks) t ticks [] { tokens := t, ticks := ticks + 1, words := [], changed := 0 } := by
  constructor
  case ordered => exact ordered
  case read => exact Nat.lt_succ_self ticks
  case known => exact fun word => (Bool.or_false _).symm
  case timed => exact fun node member => member
  case spelt => simp
  case changed => exact iff_of_true rfl fun word named => Bool.noConfusion named

theorem setinfo_same (ordered : Ordered t) (now : Int) (val : CString) (same : strcasecmp statword word = .eq) :
    ∃ node, stateTreeFind (stateSetinfo now statword val t).1 word = some node ∧ node.lastset = now := by
  have self := (StateOp.setinfo statword val).find_apply_self now ordered
  rw [<- stateTreeFind_congr same]
  change stateTreeFind (stateSetinfo now statword val t).1 statword = _ at self
  rw [self]
  cases found : stateTreeFind t (StateOp.setinfo statword val).var with
  | none => exact ⟨_, rfl, rfl⟩
  | some node =>
    simp only [Option.elim_some, StateOp.found, StNode.setinfo]
    split_ifs <;> exact ⟨_, rfl, rfl⟩

theorem setinfo_other (ordered : Ordered t) (now : Int) (val : CString) (different : strcasecmp statword word ≠ .eq) :
    stateTreeFind (stateSetinfo now statword val t).1 word = stateTreeFind t word :=
  (StateOp.setinfo statword val).find_apply_other now ordered different

theorem added_word (monotone : ∀ m n, m ≤ n -> clock m ≤ clock n) (added : Added (clock ticks) t ticks seen s)
    (statword : CString) : Added (clock ticks) t ticks (seen ++ [statword]) (s.word clock statword) := by
  unfold AddingTokens.word
  split
  case isTrue known =>
    constructor
    case ordered => exact added.ordered
    case read => exact added.read
    case known => simpa only [wordNamed_handled known] using added.known
    case timed => simpa only [wordNamed_handled known] using added.timed
    case spelt =>
      rw [added.spelt]
      simp [or_imp, forall_and, known]
    case changed => simpa only [wordNamed_handled known] using added.changed
  case isFalse unknown =>
    have unknown : handled statword = false := Bool.eq_false_iff.mpr unknown
    have ordered := ordered_setinfo added.ordered (clock s.ticks) statword (cstr "1")
    constructor
    case ordered => exact ordered
    case read => exact added.read.trans (Nat.lt_succ_self _)
    case known =>
      intro word
      by_cases same : strcasecmp statword word = .eq
      · obtain ⟨node, found, -⟩ := setinfo_same added.ordered (clock s.ticks) (cstr "1") same
        rw [found, wordNamed_same unknown same, Bool.or_true]
        rfl
      · rw [setinfo_other added.ordered _ _ same, wordNamed_other same]
        exact added.known word
    case timed =>
      intro node member
      have found := (mem_iff_find ordered).mp member
      by_cases same : strcasecmp statword node.var = .eq
      · obtain ⟨node', found', now⟩ := setinfo_same added.ordered (clock s.ticks) (cstr "1") same
        obtain rfl : node' = node := Option.some.inj (found'.symm.trans found)
        rw [wordNamed_same unknown same, if_pos rfl, now]
        exact monotone ticks s.ticks added.read.le
      · rw [setinfo_other added.ordered _ _ same] at found
        rw [wordNamed_other same]
        exact added.timed node ((mem_iff_find added.ordered).mpr found)
    case spelt =>
      rw [snprintfcat_nil, added.spelt]
      simp [or_imp, forall_and, unknown]
    case changed =>
      have here : wordNamed (seen ++ [statword]) statword = true := wordNamed_same unknown (strcasecmp_self statword)
      have before (word : CString) (named : wordNamed seen word = true) : wordNamed (seen ++ [statword]) word = true := by
        rw [wordNamed_append, named, Bool.true_or]
      have known := added.known statword
      by_cases found : (stateTreeFind s.tokens statword).isSome = true
      · rw [if_pos found, added.changed]
        rw [found] at known
        refine ⟨fun all word named => ?_, fun all word named => all word (before word named)⟩
        by_cases same : strcasecmp statword word = .eq
        · rw [<- stateTreeFind_congr same]
          rcases Bool.or_eq_true_iff.mp known.symm with old | again
          · exact old
          · exact all statword again
        · rw [wordNamed_other same] at named
          exact all word named
      · rw [if_neg found]
        refine ⟨fun zero => absurd zero (Nat.succ_ne_zero _), fun all => ?_⟩
        rw [all statword here, Bool.true_or] at known
        exact absurd known found

theorem added_words (monotone : ∀ m n, m ≤ n -> clock m ≤ clock n) (words : List CString)
    (added : Added (clock ticks) t ticks seen s) :
    Added (clock ticks) t ticks (seen ++ words) (words.foldl (AddingTokens.word clock) s) := by
  induction words generalizing seen s with
  | nil => rwa [List.append_nil]
  | cons statword rest ih =>
    rw [List.append_cons]
    exact ih (added_word monotone added statword)

end Words

theorem topmost_congr {words : List CString} {stale stale' : StNode -> Bool} {behind : Bool} {t : StTree}
    (same : ∀ node ∈ t.toList, stale node = stale' node) : topmost words stale behind t = topmost words stale' behind t := by
  have every {nodes : List StNode} {p q : StNode -> Bool} (alike : ∀ node ∈ nodes, p node = q node) : nodes.all p = nodes.all q := by
    rw [Bool.eq_iff_iff, List.all_eq_true, List.all_eq_true]
    exact forall₂_congr fun node member => by rw [alike node member]
  induction t generalizing behind with
  | nil => rfl
  | node left node right _ ih =>
    have onLeft (other : StNode) (member : other ∈ left.toList) := same other (by simp [member])
    have onRight (other : StNode) (member : other ∈ right.toList) := same other (by simp [member])
    have keptLeft := @every left.toList (fun other => !stale other) (fun other => !stale' other)
      fun other member => by rw [onLeft other member]
    have keptRight := @every right.toList (fun other => !stale other) (fun other => !stale' other)
      fun other member => by rw [onRight other member]
    unfold topmost
    rw [same node (by simp), ih onRight, every onLeft, List.all_append, List.all_append, keptLeft, keptRight]

section Inserting

variable {gone : CString -> Bool} {statword : CString} {now : Int} {val : CString} {words : List CString} {behind : Bool}
  {left right t : StTree} {node : StNode}

theorem setinfo_fst (now : Int) (statword val : CString) (t : StTree) :
    (stateSetinfo now statword val t).1 = t.alter StNode.var strcasecmp statword
      (fun node => ((StateOp.setinfo statword val).found now node).1) ((StateOp.setinfo statword val).missing now).1 :=
  (StateOp.setinfo statword val).apply_fst now t

theorem setinfo_lt (order : strcasecmp node.var statword = .lt) :
    (stateSetinfo now statword val (.node left node right)).1 = .node left node (stateSetinfo now statword val right).1 := by
  rw [setinfo_fst, setinfo_fst, SearchTree.alter, order]

theorem setinfo_gt (order : strcasecmp node.var statword = .gt) :
    (stateSetinfo now statword val (.node left node right)).1 = .node (stateSetinfo now statword val left).1 node right := by
  rw [setinfo_fst, setinfo_fst, SearchTree.alter, order]

theorem setinfo_eq (order : strcasecmp node.var statword = .eq) :
    ∃ node', node'.var = node.var ∧ (stateSetinfo now statword val (.node left node right)).1 = .node left node' right := by
  rw [setinfo_fst, SearchTree.alter, order]
  dsimp only
  cases changed : ((StateOp.setinfo statword val).found now node).1 with
  | none =>
    simp only [StateOp.found, StNode.setinfo] at changed
    split_ifs at changed
  | some node' => exact ⟨node', (StateOp.setinfo statword val).found_var now changed, rfl⟩

theorem live_setinfo (stays : gone statword = false) (ordered : Ordered t) (live : ∀ node ∈ t.toList, gone node.var = false) :
    ∀ node ∈ (stateSetinfo now statword val t).1.toList, gone node.var = false := by
  refine (StateOp.setinfo statword val).forall_apply now ordered (fun node node' here kept => ?_) (fun node made => ?_) live
  · rwa [(StateOp.setinfo statword val).found_var now kept]
  · rwa [(StateOp.setinfo statword val).missing_var now made]

theorem topmost_setinfo (stays : ∀ var, strcasecmp var statword = .eq -> gone var = false) (ordered : Ordered t)
    (top : topmost (statword :: words) (fun node => gone node.var) behind t = true) :
    topmost words (fun node => gone node.var) behind (stateSetinfo now statword val t).1 = true := by
  have here := stays statword (strcasecmp_self statword)
  induction t generalizing behind with
  | nil =>
    change topmost words (fun node => gone node.var) behind (.node .nil (StNode.fresh now statword val) .nil) = true
    have none_ (stale : Bool) : ∀ other ∈ (SearchTree.nil : StTree).toList, gone other.var = stale :=
      fun other member => absurd member List.not_mem_nil
    cases behind with
    | false => exact (topmost_live here).mpr ⟨none_ false, none_ false⟩
    | true =>
      rw [topmost_nil] at top
      have first := top statword rfl
      exact (topmost_first here).mpr ⟨none_ true, fun word member => first word (List.mem_cons_of_mem _ member), none_ false⟩
  | node left node right _ ih =>
    obtain ⟨orderedLeft, orderedRight, -, -⟩ := ordered
    have onLeft := @live_setinfo gone statword now val left here orderedLeft
    have onRight := @live_setinfo gone statword now val right here orderedRight
    have rest {bound : CString} (all : ∀ word ∈ statword :: words, strcasecmp word bound ≠ .lt) :
        ∀ word ∈ words, strcasecmp word bound ≠ .lt :=
      fun word member => all word (List.mem_cons_of_mem statword member)
    cases order : strcasecmp node.var statword with
    | lt =>
      rw [setinfo_lt order]
      cases goes : gone node.var with
      | true =>
        rw [topmost_stale goes] at top ⊢
        exact ⟨top.1, rest top.2.1, ih orderedRight top.2.2⟩
      | false =>
        cases behind with
        | false =>
          rw [topmost_live goes] at top ⊢
          exact ⟨top.1, onRight top.2⟩
        | true =>
          rw [topmost_first goes] at top ⊢
          exact ⟨top.1, rest top.2.1, onRight top.2.2⟩
    | gt =>
      rw [setinfo_gt order]
      have before : strcasecmp statword node.var = .lt := Std.OrientedCmp.gt_iff_lt.mp order
      cases goes : gone node.var with
      | true =>
        rw [topmost_stale goes] at top
        exact absurd before (top.2.1 statword List.mem_cons_self)
      | false =>
        cases behind with
        | false =>
          rw [topmost_live goes] at top ⊢
          exact ⟨onLeft top.1, top.2⟩
        | true =>
          rw [topmost_first goes] at top
          exact absurd before (top.2.1 statword List.mem_cons_self)
    | eq =>
      obtain ⟨node', same, changed⟩ := @setinfo_eq statword now val left right node order
      have goes : gone node.var = false := stays node.var order
      have goes' : gone node'.var = false := same ▸ goes
      rw [changed]
      cases behind with
      | false =>
        rw [topmost_live goes] at top
        exact (topmost_live goes').mpr top
      | true =>
        rw [topmost_first goes] at top
        rw [topmost_first goes', same]
        exact ⟨top.1, rest top.2.1, top.2.2⟩

theorem topmost_added {clock : Nat -> Int} (statwords : List CString) {s : AddingTokens} (ordered : Ordered s.tokens)
    (stays : ∀ statword ∈ statwords, handled statword = false -> ∀ var, strcasecmp var statword = .eq -> gone var = false)
    (top : topmost (statwords.filter fun statword => !handled statword) (fun node => gone node.var) behind s.tokens = true) :
    topmost [] (fun node => gone node.var) behind (statwords.foldl (AddingTokens.word clock) s).tokens = true := by
  induction statwords generalizing s with
  | nil => exact top
  | cons statword rest ih =>
    have later := fun word member => stays word (List.mem_cons_of_mem statword member)
    rw [List.foldl_cons, AddingTokens.word]
    cases known : handled statword with
    | true =>
      rw [List.filter_cons_of_neg (by simp [known])] at top
      exact ih ordered later top
    | false =>
      rw [List.filter_cons_of_pos (by simp [known])] at top
      exact ih (ordered_setinfo ordered _ statword _) later
        (topmost_setinfo (stays statword List.mem_cons_self known) ordered top)

end Inserting

section Steps

variable {clock : Nat -> Int} {s : OtherTokens} {t : StTree} {status : CString}

theorem added_status (monotone : ∀ m n, m ≤ n -> clock m ≤ clock n) (ordered : Ordered t) (status : CString) :
    Added (clock s.ticks) t s.ticks (status.splitOn 32) (s.added clock t status) :=
  added_words monotone (status.splitOn 32) (added_start clock ordered s.ticks)

theorem older_vanishing (monotone : ∀ m n, m ≤ n -> clock m ≤ clock n) (is : s.tokens = some t) (ordered : Ordered t) :
    ∀ node ∈ (s.added clock t status).tokens.toList, node.older (clock s.ticks) = s.vanishing clock status node.var := by
  intro node member
  have timed := (added_status monotone ordered status).timed node member
  rw [OtherTokens.vanishing, is, Option.any_some, otherNamed]
  cases named : wordNamed (status.splitOn 32) node.var with
  | true =>
    rw [named, if_pos rfl] at timed
    exact decide_eq_false (Int.not_lt.mpr timed)
  | false =>
    rw [named, if_neg Bool.false_ne_true] at timed
    rw [(mem_iff_find ordered).mp timed]
    rfl

theorem vanishing_later (is : s.tokens = some t) (ordered : Ordered t)
    (later : ∀ node ∈ t.toList, otherNamed status node.var = false -> node.lastset < clock s.ticks) :
    ∀ node ∈ t.toList, s.vanishing clock status node.var = !otherNamed status node.var := by
  intro node member
  rw [OtherTokens.vanishing, is, Option.any_some, (mem_iff_find ordered).mp member, Option.any_some]
  cases named : otherNamed status node.var with
  | true => rfl
  | false => exact decide_eq_true (later node member named)

theorem otherNamed_congr {word other : CString} (same : strcasecmp word other = .eq) :
    otherNamed status word = otherNamed status other := wordNamed_congr same

theorem find_kept {rest : StTree} (added : Added (clock s.ticks) t s.ticks (status.splitOn 32) (s.added clock t status))
    (ordered : Ordered rest)
    (kept : rest.toList = (s.added clock t status).tokens.toList.filter fun node => otherNamed status node.var) (word : CString) :
    (stateTreeFind rest word).isSome = otherNamed status word := by
  rw [Bool.eq_iff_iff, Option.isSome_iff_exists]
  constructor
  · rintro ⟨node, found⟩
    obtain ⟨member, same⟩ := (stateTreeFind_iff ordered).mp found
    rw [kept, List.mem_filter] at member
    rw [<- otherNamed_congr same]
    exact member.2
  · intro named
    have known := added.known word
    rw [show wordNamed (status.splitOn 32) word = true from named, Bool.or_true] at known
    obtain ⟨node, found⟩ := Option.isSome_iff_exists.mp known
    obtain ⟨member, same⟩ := (stateTreeFind_iff added.ordered).mp found
    refine ⟨node, (stateTreeFind_iff ordered).mpr ⟨?_, same⟩⟩
    rw [kept, List.mem_filter]
    exact ⟨member, (otherNamed_congr same).trans named⟩

theorem unchanged_iff (added : Added (clock s.ticks) t s.ticks (status.splitOn 32) (s.added clock t status)) :
    ((s.added clock t status).changed = 0 ∧ ∀ node ∈ (s.added clock t status).tokens.toList, otherNamed status node.var = true) ↔
      ∀ word, (stateTreeFind t word).isSome = otherNamed status word := by
  rw [added.changed]
  constructor
  · rintro ⟨old, stay⟩ word
    rw [Bool.eq_iff_iff]
    refine ⟨fun was => ?_, old word⟩
    have known := added.known word
    rw [was, Bool.true_or] at known
    obtain ⟨node, found⟩ := Option.isSome_iff_exists.mp known
    obtain ⟨member, same⟩ := (stateTreeFind_iff added.ordered).mp found
    rw [<- otherNamed_congr same]
    exact stay node member
  · intro alike
    refine ⟨fun word named => (alike word).trans named, fun node member => ?_⟩
    have known := added.known node.var
    rw [(mem_iff_find added.ordered).mp member, alike node.var] at known
    rcases Bool.or_eq_true_iff.mp known.symm with named | named <;> exact named

theorem otherNamed_of_mem {statword : CString} (listed : statword ∈ status.splitOn 32) (unknown : handled statword = false) :
    otherNamed status statword = true := by
  refine List.any_eq_true.mpr ⟨statword, listed, ?_⟩
  rw [unknown, strcasecmp_self]
  rfl

theorem parse_keeps (monotone : ∀ m n, m ≤ n -> clock m ≤ clock n) (is : s.tokens = some t) (ordered : Ordered t)
    (some_ : status ≠ []) (keeps : KeepsTree clock s status) : ∃ rest changed, Ordered rest ∧
      rest.toList = (s.added clock t status).tokens.toList.filter (fun node => !s.vanishing clock status node.var) ∧
      (changed = 0 ↔ (s.added clock t status).changed = 0 ∧
        ∀ node ∈ (s.added clock t status).tokens.toList, s.vanishing clock status node.var = false) ∧
      s.parse clock status =
        if changed = 0 then ({ tokens := some rest, ticks := (s.added clock t status).ticks }, [])
        else if (s.added clock t status).words ≠ [] then
          ({ tokens := some rest, ticks := (s.added clock t status).ticks }, [.other (s.added clock t status).words])
        else ({ tokens := some .nil, ticks := (s.added clock t status).ticks }, [.notother]) := by
  have older := @older_vanishing clock s t status monotone is ordered
  have top : topmost [] (fun node => s.vanishing clock status node.var) false (s.added clock t status).tokens = true := by
    refine @topmost_added (s.vanishing clock status) false clock (status.splitOn 32)
      { tokens := t, ticks := s.ticks + 1, words := [], changed := 0 } ordered (fun statword listed unknown var same => ?_)
      (keeps t is)
    rw [OtherTokens.vanishing, otherNamed_congr same, otherNamed_of_mem listed unknown]
    rfl
  rw [<- topmost_congr older] at top
  obtain ⟨s', rest, walk, dropped⟩ := drop_topmost top
  have kept : rest.toList = (s.added clock t status).tokens.toList.filter fun node => !s.vanishing clock status node.var :=
    dropped.kept.trans (List.filter_congr fun node member => by rw [older node member])
  have orderedRest : Ordered rest := by
    refine (SearchTree.ordered_iff_sorted StNode.var strcasecmp rest).mpr ?_
    rw [kept]
    exact ((SearchTree.ordered_iff_sorted StNode.var strcasecmp _).mp
      (added_status monotone ordered status).ordered).sublist List.filter_sublist
  have room : rest.toList.length ≤ (s.added clock t status).tokens.toList.length := by
    rw [kept]
    exact List.length_filter_le _ _
  refine ⟨rest, s'.changed, orderedRest, kept, ?_, ?_⟩
  · rw [dropped.changed]
    exact and_congr_right fun _ => forall₂_congr fun node member => by rw [older node member]
  · simp only [OtherTokens.parse, is, if_neg some_, walk, dropped.collected room, Option.map_some]

theorem parse_droppable (monotone : ∀ m n, m ≤ n -> clock m ≤ clock n) (is : s.tokens = some t) (ordered : Ordered t)
    (some_ : status ≠ []) (droppable : Droppable clock s status) : ∃ rest changed, Ordered rest ∧
      rest.toList = (s.added clock t status).tokens.toList.filter (fun node => otherNamed status node.var) ∧
      (changed = 0 ↔ ∀ word, (stateTreeFind t word).isSome = otherNamed status word) ∧ s.parse clock status =
        if changed = 0 then ({ tokens := some rest, ticks := (s.added clock t status).ticks }, [])
        else if (s.added clock t status).words ≠ [] then
          ({ tokens := some rest, ticks := (s.added clock t status).ticks }, [.other (s.added clock t status).words])
        else ({ tokens := some .nil, ticks := (s.added clock t status).ticks }, [.notother]) := by
  have added : Added (clock s.ticks) t s.ticks (status.splitOn 32) (s.added clock t status) :=
    added_status monotone ordered status
  have later := vanishing_later is ordered (droppable.later t is)
  have keeps : KeepsTree clock s status := by
    intro t' is'
    obtain rfl : t = t' := Option.some.inj (is.symm.trans is')
    rw [topmost_congr later]
    exact droppable.shape t is
  have goes : ∀ node ∈ (s.added clock t status).tokens.toList,
      s.vanishing clock status node.var = !otherNamed status node.var := by
    intro node member
    have timed := added.timed node member
    cases named : otherNamed status node.var with
    | true => rw [OtherTokens.vanishing, named, Bool.not_true, Bool.false_and]
    | false =>
      rw [if_neg (by rw [<- otherNamed, named]; exact Bool.false_ne_true)] at timed
      rw [later node timed, named]
  obtain ⟨rest, changed, orderedRest, kept, same, parse⟩ := parse_keeps monotone is ordered some_ keeps
  refine ⟨rest, changed, orderedRest, ?_, ?_, parse⟩
  · rw [kept]
    exact List.filter_congr fun node member => by rw [goes node member, Bool.not_not]
  · rw [same, <- unchanged_iff added]
    refine and_congr_right fun _ => forall₂_congr fun node member => ?_
    rw [goes node member, Bool.not_eq_false']

theorem otherNamed_none (none_ : ∀ statword ∈ status.splitOn 32, handled statword = true) (word : CString) :
    otherNamed status word = false := by
  refine Bool.eq_false_iff.mpr fun named => ?_
  obtain ⟨statword, listed, here⟩ := List.any_eq_true.mp named
  rw [none_ statword listed] at here
  cases here

theorem words_spelt (added : Added (clock s.ticks) t s.ticks (status.splitOn 32) (s.added clock t status))
    (droppable : Droppable clock s status) :
    (s.added clock t status).words = [] ↔ ∀ statword ∈ status.splitOn 32, handled statword = true := by
  rw [added.spelt]
  constructor
  · intro empty statword listed
    by_contra unknown
    have unknown := Bool.eq_false_iff.mpr unknown
    have other : statword ∈ otherWords status := List.mem_filter.mpr ⟨listed, by rw [unknown]; rfl⟩
    obtain ⟨word, inside, spelt⟩ := droppable.spelt (List.ne_nil_of_mem other)
    obtain ⟨there, here⟩ := List.mem_filter.mp inside
    exact spelt (empty word there (by simpa using here))
  · intro all statword listed unknown
    rw [all statword listed] at unknown
    cases unknown

theorem tokensFollow_of {t' : StTree} {ticks : Nat} {notices : List OtherNotice} (is : s.tokens = some t)
    (parse : s.parse clock status = ({ tokens := some t', ticks }, notices)) (ordered : Ordered t')
    (found : ∀ word, (stateTreeFind t' word).isSome = otherNamed status word)
    (other : (∃ words, .other words ∈ notices) ↔
      (∃ word, otherNamed status word ≠ (stateTreeFind t word).isSome) ∧ ∃ word, otherNamed status word = true)
    (notother : .notother ∈ notices ↔
      (∃ word, (stateTreeFind t word).isSome = true) ∧ ∀ word, otherNamed status word = false) : TokensFollow clock s status := by
  have before (word : CString) : s.has word = (stateTreeFind t word).isSome := by
    rw [OtherTokens.has, is]
    rfl
  have behind (word : CString) : (s.step clock status).has word = otherNamed status word := by
    rw [OtherTokens.step, parse]
    exact found word
  constructor
  case tree =>
    refine ⟨t', ?_, ordered⟩
    rw [OtherTokens.step, parse]
  case words => exact behind
  case other => simpa only [parse, behind, before] using other
  case notother => simpa only [parse, behind, before] using notother

theorem tokens_follow (monotone : ∀ m n, m ≤ n -> clock m ≤ clock n) (is : s.tokens = some t) (ordered : Ordered t)
    (some_ : status ≠ []) (droppable : Droppable clock s status) : TokensFollow clock s status := by
  have added : Added (clock s.ticks) t s.ticks (status.splitOn 32) (s.added clock t status) :=
    added_status monotone ordered status
  obtain ⟨rest, changed, orderedRest, kept, same, parse⟩ := parse_droppable monotone is ordered some_ droppable
  have found := find_kept added orderedRest kept
  by_cases unchanged : changed = 0
  · rw [if_pos unchanged] at parse
    have alike := same.mp unchanged
    refine tokensFollow_of is parse orderedRest found ?_ ?_
    · refine iff_of_false (fun ⟨_, said⟩ => List.not_mem_nil said) fun ⟨⟨word, differs⟩, _⟩ => ?_
      exact differs (alike word).symm
    · refine iff_of_false List.not_mem_nil fun ⟨⟨word, was⟩, gone⟩ => ?_
      rw [alike word, gone word] at was
      cases was
  rw [if_neg unchanged] at parse
  rw [same, not_forall] at unchanged
  obtain ⟨differs, unlike⟩ := unchanged
  by_cases words : (s.added clock t status).words = []
  · rw [if_neg (not_not.mpr words)] at parse
    have gone := otherNamed_none ((words_spelt added droppable).mp words)
    refine tokensFollow_of is parse trivial (fun word => (gone word).symm) ?_ ?_
    · refine iff_of_false (fun ⟨_, said⟩ => ?_) fun ⟨_, word, named⟩ => ?_
      · cases List.mem_singleton.mp said
      · rw [gone word] at named
        cases named
    · refine iff_of_true (List.mem_singleton.mpr rfl) ⟨⟨differs, ?_⟩, gone⟩
      rw [gone differs] at unlike
      exact Bool.not_eq_false _ ▸ unlike
  · rw [if_pos words] at parse
    rw [words_spelt added droppable] at words
    simp only [not_forall] at words
    obtain ⟨statword, listed, unknown⟩ := words
    have named := otherNamed_of_mem listed (Bool.eq_false_iff.mpr unknown)
    refine tokensFollow_of is parse orderedRest found ?_ ?_
    · exact iff_of_true ⟨_, List.mem_singleton.mpr rfl⟩ ⟨⟨differs, Ne.symm unlike⟩, statword, named⟩
    · refine iff_of_false (fun said => ?_) fun ⟨_, gone⟩ => ?_
      · cases List.mem_singleton.mp said
      · rw [gone statword] at named
        cases named

def OtherTokens.fresh (ticks : Nat) : OtherTokens :=
  { tokens := some .nil, ticks }

-- After each status the tree holds the words that no branch knows, in every run in which the walk comes to what disappears.
theorem tokens_track (monotone : ∀ m n, m ≤ n -> clock m ≤ clock n) (ticks : Nat) (statuses : List CString)
    (droppable : Always (OtherTokens.step clock) (EachAction fun s status => status ≠ [] -> Droppable clock s status)
      (.fresh ticks) statuses) :
    Always (OtherTokens.step clock) (EachAction fun s status => status ≠ [] -> TokensFollow clock s status)
      (.fresh ticks) statuses := by
  have run (s : OtherTokens) (tree : ∃ t, s.tokens = some t ∧ Ordered t) (statuses : List CString)
      (droppable : Always (OtherTokens.step clock) (EachAction fun s status => status ≠ [] -> Droppable clock s status) s
        statuses) :
      Always (OtherTokens.step clock) (EachAction fun s status => status ≠ [] -> TokensFollow clock s status) s statuses := by
    induction statuses generalizing s with
    | nil => exact trivial
    | cons status rest ih =>
      obtain ⟨t, is, ordered⟩ := tree
      have follow (some_ : status ≠ []) : TokensFollow clock s status :=
        tokens_follow monotone is ordered some_ (droppable.1 some_)
      refine ⟨follow, ih _ ?_ droppable.2⟩
      by_cases empty : status = []
      · have same : s.step clock status = s := by
          rw [OtherTokens.step, OtherTokens.parse, is, empty]
          rfl
        rw [same]
        exact ⟨t, is, ordered⟩
      · exact (follow empty).tree
  exact run _ ⟨.nil, rfl, trivial⟩ statuses droppable

end Steps

def UpsPoll.tenSeconds (n : Nat) : Int :=
  1000000000 * (1000 + 10 * n)

-- Two tokens come, and go one after the other.
theorem tokens_track_two :
    Always (OtherTokens.step tenSeconds) (EachAction fun s status => status ≠ [] -> TokensFollow tenSeconds s status) (.fresh 0)
      [cstr "OL ECOMODE", cstr "OL ecomode TEST", cstr "OL TEST", cstr "OL"] := by
  refine tokens_track (fun m n later => ?_) 0 _ (by decide +kernel)
  unfold tenSeconds
  omega

-- The token that disappears is on the left of the one that stays, and the link to it is not undone.
theorem token_dangling :
    ¬ Always (OtherTokens.step tenSeconds) (EachAction fun s status => status ≠ [] -> TokensFollow tenSeconds s status) (.fresh 0)
      [cstr "OL FOO BAR", cstr "OL FOO"] := by
  intro follow
  obtain ⟨t, is, -⟩ := (follow.2.1 (by decide)).tree
  have freed : (((OtherTokens.fresh 0).step tenSeconds (cstr "OL FOO BAR")).step tenSeconds (cstr "OL FOO")).tokens = none := by
    decide +kernel
  exact Option.some_ne_none t (is.symm.trans freed)

end Nut
