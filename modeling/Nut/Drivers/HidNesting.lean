import Mathlib.Logic.Relation
import Nut.Drivers.HidPaths
import Nut.Drivers.HidWalk

set_option autoImplicit false

namespace Nut

-- A turn of the loop of `HIDParse`: the parser with the item that is looked at, and the one behind the turn. A turn
-- that finds a field ends a call, and the next call goes on from there.
def turn (parser : HIDParser) : Option (HIDParser × HIDParser) :=
  if parser.pos < parser.reportDesc.length then
    match currentItem parser with
    | .ok (some read) =>
      match parseItem read with
      | .ok (.next next) => some (read, next)
      | .ok (.found next _ _) => some (read, next)
      | _ => none
    | _ => none
  else none

-- The turns that `HIDParse` makes without an error.
def Reaches (parser last : HIDParser) : Prop :=
  Relation.ReflTransGen (fun parser next => ∃ read, turn parser = some (read, next)) parser last

structure HIDPath.Whole (path : HIDPath) : Prop where
  node : path.node.length = pathSize
  size : path.size ≤ pathSize

def HIDParser.nodes (parser : HIDParser) : List UInt32 :=
  parser.data.path.nodes

structure Bracket where
  before : List UInt32
  usage : UInt32
  value : UInt32
  behind : List UInt32
  deriving DecidableEq, Repr

def Bracket.between (parser read closed : HIDParser) : Bracket :=
  { before := parser.nodes, usage := read.usageTab[0]?.getD 0, value := read.value, behind := closed.nodes }

inductive Nested : HIDParser -> List Bracket -> HIDParser -> Prop where
  | done (parser : HIDParser) : Nested parser [] parser
  | item {parser read next last : HIDParser} {brackets : List Bracket} (step : turn parser = some (read, next))
      (plain : itemTag read.item ≠ .collection ∧ itemTag read.item ≠ .endCollection)
      (later : Nested next brackets last) : Nested parser brackets last
  | collection {parser read opened inside readEnd closed last : HIDParser} {inner later : List Bracket}
      (opening : turn parser = some (read, opened)) (isCollection : itemTag read.item = .collection)
      (items : Nested opened inner inside) (closing : turn inside = some (readEnd, closed))
      (isEnd : itemTag readEnd.item = .endCollection) (behind : Nested closed later last) :
      Nested parser (.between parser read closed :: (inner ++ later)) last

def Fragment (parser : HIDParser) (bracket : Bracket) (inner : List Bracket) (closed : HIDParser) : Prop :=
  ∃ read opened inside readEnd, turn parser = some (read, opened) ∧ itemTag read.item = .collection ∧
    Nested opened inner inside ∧ turn inside = some (readEnd, closed) ∧ itemTag readEnd.item = .endCollection ∧
    bracket = .between parser read closed

-- A Collection leaves one or two nodes.
def openPath (nodes : List UInt32) (usage value : UInt32) : List UInt32 :=
  nodes ++ usage :: if value ≥ 0x80 then [0x00ff0000 ||| (value &&& 0x7f)] else []

-- End Collection takes the last node, and one more if that looks like an index.
def closePath (nodes : List UInt32) : List UInt32 :=
  if nodes.dropLast ≠ [] ∧ ∃ node ∈ nodes.getLast?, isIndexed node then nodes.dropLast.dropLast else nodes.dropLast

def Bracket.Restored (bracket : Bracket) : Prop :=
  bracket.behind = bracket.before

def Bracket.Plain (bracket : Bracket) : Prop :=
  bracket.value ≥ 0x80 ∨ ¬ isIndexed bracket.usage ∨ bracket.before = []

theorem isIndexed_index (value : UInt32) : isIndexed (0x00ff0000 ||| (value &&& 0x7f)) := by
  have word : (0x00ff0000#32 ||| (value.toBitVec &&& 0x7f#32)) &&& 0xffff0000#32 = 0x00ff0000#32 := by
    rw [BitVec.and_or_distrib_right, BitVec.and_assoc]
    simp
  exact UInt32.toBitVec_inj.mp word

theorem closePath_concat (front : List UInt32) (last : UInt32) :
    closePath (front ++ [last]) = if front ≠ [] ∧ isIndexed last then front.dropLast else front := by
  simp [closePath]

theorem closePath_openPath (nodes : List UInt32) (usage value : UInt32) :
    closePath (openPath nodes usage value) = nodes ↔ value ≥ 0x80 ∨ ¬ isIndexed usage ∨ nodes = [] := by
  unfold openPath
  by_cases index : value ≥ 0x80
  · have last : nodes ++ [usage, 0x00ff0000 ||| (value &&& 0x7f)] =
        (nodes ++ [usage]) ++ [0x00ff0000 ||| (value &&& 0x7f)] := by simp
    rw [if_pos index, last, closePath_concat, if_pos ⟨by simp, isIndexed_index value⟩, List.dropLast_concat]
    exact iff_of_true rfl (Or.inl index)
  · rw [if_neg index, closePath_concat]
    by_cases popped : nodes ≠ [] ∧ isIndexed usage
    · have shorter : nodes.dropLast ≠ nodes := fun same => by
        have lengths := congrArg List.length same
        have some_ := List.length_pos_iff.mpr popped.1
        rw [List.length_dropLast] at lengths
        omega
      rw [if_pos popped]
      exact iff_of_false shorter (by simp [index, popped])
    · rw [if_neg popped]
      refine iff_of_true rfl (Or.inr ?_)
      by_cases outermost : nodes = []
      · exact Or.inr outermost
      · exact Or.inl fun looks => popped ⟨outermost, looks⟩

section Items

variable {parser next : HIDParser}

theorem nodes_length {path : HIDPath} (whole : path.Whole) : path.nodes.length = path.size := by
  have length := whole.node
  have short := whole.size
  rw [HIDPath.nodes, List.length_take]
  omega

theorem pushNode_nodes (safe : parser.Safe) {pushed : HIDParser} {node : UInt32}
    (push : pushNode parser node = .ok (some pushed)) :
    ∃ path : HIDPath, pushed = { parser with data := { parser.data with path } } ∧
      path.nodes = parser.nodes ++ [node] ∧ path.Whole := by
  have nodes := safe.nodes
  unfold pushNode at push
  by_cases long : parser.data.path.size ≥ pathSize
  · simp [long, pure, Except.pure] at push
  · have room : parser.data.path.size < parser.data.path.node.length := by omega
    simp only [long, if_false, writeAt_inside room, bind, Except.bind, pure, Except.pure, Except.ok.injEq,
      Option.some.injEq] at push
    refine ⟨_, push.symm, ?_, by simp [nodes], by simp only; omega⟩
    simp only [HIDPath.nodes, HIDParser.nodes]
    rw [List.take_add_one, List.take_set_of_le (Nat.le_refl _), List.getElem?_set_self room, Option.toList_some]

theorem setPathSize_nodes {size : Nat} (shorter : size ≤ parser.data.path.size) :
    (setPathSize parser size).nodes = parser.nodes.take size := by
  simp only [HIDParser.nodes, setPathSize, HIDPath.nodes, List.take_take, Nat.min_eq_left shorter]

theorem collectionItem_nodes (safe : parser.Safe) (parsed : collectionItem parser = .ok (.next next)) :
    next.nodes = openPath parser.nodes (parser.usageTab[0]?.getD 0) parser.value := by
  have usages := safe.usages
  have first : parser.usageTab[0]?.getD 0 = parser.usageTab[0] := by
    rw [List.getElem?_eq_getElem usages, Option.getD_some]
  unfold collectionItem at parsed
  rw [readAt_inside usages] at parsed
  simp only [bind, Except.bind] at parsed
  cases push : pushNode parser parser.usageTab[0] with
  | error fault => simp [push] at parsed
  | ok pushed =>
    obtain _ | pushed := pushed
    · simp [push, pure, Except.pure] at parsed
    · obtain ⟨path, rfl, nodes, whole⟩ := pushNode_nodes safe push
      have inside := safe_pushed safe whole.node whole.size
      obtain ⟨usageTab, usageSize, unstacked, fewer, few⟩ := unstackUsage_ok inside
      have after := safe_unstacked inside fewer few
      simp only [push, unstacked] at parsed
      rw [first, openPath]
      by_cases index : parser.value ≥ 0x80
      · rw [if_pos index] at parsed
        rw [if_pos index]
        cases pushIndex : pushNode { parser with data := { parser.data with path }, usageTab, usageSize }
            (0x00ff0000 ||| (parser.value &&& 0x7f)) with
        | error fault => simp [pushIndex] at parsed
        | ok indexed =>
          obtain _ | indexed := indexed
          · simp [pushIndex, pure, Except.pure] at parsed
          · obtain ⟨longer, rfl, more, _⟩ := pushNode_nodes after pushIndex
            simp only [pushIndex, pure, Except.pure, Except.ok.injEq, ItemResult.next.injEq] at parsed
            rw [<- parsed]
            refine Eq.trans more ?_
            rw [show HIDParser.nodes _ = path.nodes from rfl, nodes, List.append_assoc]
            rfl
      · rw [if_neg index] at parsed
        rw [if_neg index]
        simp only [pure, Except.pure, Except.ok.injEq, ItemResult.next.injEq] at parsed
        rw [<- parsed]
        exact nodes

theorem endCollectionItem_nodes (safe : parser.Safe) (parsed : endCollectionItem parser = .ok (.next next)) :
    next.nodes = closePath parser.nodes := by
  have length : parser.nodes.length = parser.data.path.size := nodes_length ⟨safe.nodes, safe.path⟩
  have inside := safe.nodes
  have short := safe.path
  unfold endCollectionItem at parsed
  by_cases empty : parser.data.path.size = 0
  · simp [empty, pure, Except.pure] at parsed
  · have some_ : parser.nodes ≠ [] := List.length_pos_iff.mp (by omega)
    have split := (List.dropLast_append_getLast some_).symm
    have front : (setPathSize parser (parser.data.path.size - 1)).nodes = parser.nodes.dropLast := by
      rw [setPathSize_nodes (Nat.sub_le _ _), List.dropLast_eq_take, length]
    have shorter : (setPathSize parser (parser.data.path.size - 1 - 1)).nodes = parser.nodes.dropLast.dropLast := by
      rw [setPathSize_nodes (by omega), List.dropLast_eq_take, List.dropLast_eq_take, List.take_take, List.length_take,
        length]
      congr 1
      omega
    simp only [empty, if_false] at parsed
    rw [split, closePath_concat]
    by_cases deep : parser.data.path.size - 1 > 0
    · have room : parser.data.path.size - 1 < parser.data.path.node.length := by omega
      have last : parser.data.path.node[parser.data.path.size - 1] = parser.nodes.getLast some_ := by
        simp only [List.getLast_eq_getElem, length]
        simp only [HIDParser.nodes, HIDPath.nodes, List.getElem_take]
      have others : parser.nodes.dropLast ≠ [] := List.length_pos_iff.mp (by rw [List.length_dropLast]; omega)
      rw [if_pos deep, readAt_inside room, last] at parsed
      simp only [bind, Except.bind, pure, Except.pure] at parsed
      by_cases index : isIndexed (parser.nodes.getLast some_)
      · rw [if_pos (show parser.nodes.getLast some_ &&& 0xffff0000 = 0x00ff0000 from index), Except.ok.injEq,
          ItemResult.next.injEq] at parsed
        rw [<- parsed, if_pos ⟨others, index⟩]
        exact shorter
      · rw [if_neg (show ¬ parser.nodes.getLast some_ &&& 0xffff0000 = 0x00ff0000 from index), Except.ok.injEq,
          ItemResult.next.injEq] at parsed
        rw [<- parsed, if_neg fun popped => index popped.2]
        exact front
    · have none_ : parser.nodes.dropLast = [] := List.length_eq_zero_iff.mp (by rw [List.length_dropLast]; omega)
      rw [if_neg deep] at parsed
      simp only [pure, Except.pure, Except.ok.injEq, ItemResult.next.injEq] at parsed
      rw [<- parsed, if_neg (by simp [none_])]
      exact front

theorem fieldItem_nodes (safe : parser.Safe) (isField : itemTag parser.item = .field) {pData : HIDData} {ret : Nat}
    (parsed : fieldItem parser = .ok (.found next pData ret)) : next.nodes = parser.nodes ∧ pData.path.Whole := by
  have usages := safe.usages
  unfold fieldItem at parsed
  rw [readAt_inside usages] at parsed
  simp only [bind, Except.bind] at parsed
  generalize counted : (if parser.count = 0 then { parser with count := parser.reportCount } else parser) = started
    at parsed
  have startedSafe : started.Safe := by
    rw [<- counted]
    split
    · exact { safe with counting := fun _ => isField }
    · exact safe
  have same : started.nodes = parser.nodes := by
    rw [<- counted]
    split <;> rfl
  cases push : pushNode started parser.usageTab[0] with
  | error fault => simp [push] at parsed
  | ok pushed =>
    obtain _ | pushed := pushed
    · simp [push, pure, Except.pure] at parsed
    · obtain ⟨path, rfl, nodes, whole⟩ := pushNode_nodes startedSafe push
      obtain ⟨usageTab, usageSize, unstacked, _⟩ := unstackUsage_ok (safe_pushed startedSafe whole.node whole.size)
      simp only [push, unstacked, pure, Except.pure, Except.ok.injEq, ItemResult.found.injEq] at parsed
      obtain ⟨rfl, rfl, _⟩ := parsed
      generalize moved : setPathSize _ _ = last
      obtain ⟨_, _, ended, _⟩ := endOfField_eq last
      have front : path.nodes.take (path.size - 1) = parser.nodes := by
        rw [<- nodes_length whole, <- List.dropLast_eq_take, nodes, List.dropLast_concat, same]
      rw [ended, <- front, <- moved]
      exact ⟨setPathSize_nodes (Nat.sub_le _ _), whole⟩

theorem otherItem_nodes (safe : parser.Safe)
    (plain : itemTag parser.item ≠ .collection ∧ itemTag parser.item ≠ .endCollection)
    (parsed : parseItem parser = .ok (.next next)) : next.nodes = parser.nodes := by
  have global (tag : ItemTag) (value : UInt32) (size : Nat) :
      (globalItem value size parser.data tag).path = parser.data.path := by
    cases tag <;> simp only [globalItem]
    split <;> rfl
  unfold parseItem at parsed
  cases tag : itemTag parser.item
  case collection => exact absurd tag plain.1
  case endCollection => exact absurd tag plain.2
  case field =>
    simp only [tag] at parsed
    obtain past | ⟨_, _, _, found, _⟩ := fieldItem_ok safe tag
    · cases parsed.symm.trans past
    · cases parsed.symm.trans found
  case usage =>
    simp only [tag, usageItem] at parsed
    by_cases full : parser.usageSize ≥ parser.usageTab.length
    · simp [full, pure, Except.pure] at parsed
    · rw [if_neg full, writeAt_inside (by omega)] at parsed
      cases parsed
      rfl
  all_goals
    simp only [tag] at parsed
    cases parsed
    simp only [HIDParser.nodes, global]

end Items

section Turns

variable {parser read next : HIDParser}

theorem turn_cases (safe : parser.Safe) (step : turn parser = some (read, next)) :
    read.Safe ∧ read.nodes = parser.nodes ∧ next.Safe ∧
      (parseItem read = .ok (.next next) ∨ ∃ pData ret, parseItem read = .ok (.found next pData ret)) := by
  unfold turn at step
  by_cases more : parser.pos < parser.reportDesc.length
  · rw [if_pos more] at step
    obtain none_ | ⟨current, item, readSafe, _⟩ := currentItem_ok safe more
    · simp [none_] at step
    · have same : current.nodes = parser.nodes := by
        unfold currentItem at item
        split at item
        next =>
          obtain truncated | ⟨_, _, _, new, _⟩ := readItem_ok more
          · cases truncated.symm.trans item
          · cases new.symm.trans item
            rfl
        next =>
          cases item
          rfl
      simp only [item] at step
      cases parsed : parseItem current with
      | error fault => simp [parsed] at step
      | ok result =>
        obtain after | _ | ⟨after, pData, ret⟩ := result
        · simp only [parsed, Option.some.injEq, Prod.mk.injEq] at step
          obtain ⟨rfl, rfl⟩ := step
          exact ⟨readSafe, same, (parseItem_continues readSafe parsed).2.safe, Or.inl parsed⟩
        · simp [parsed] at step
        · simp only [parsed, Option.some.injEq, Prod.mk.injEq] at step
          obtain ⟨rfl, rfl⟩ := step
          exact ⟨readSafe, same, (parseItem_found readSafe parsed).2.2.1.safe, Or.inr ⟨pData, ret, parsed⟩⟩
  · simp [more] at step

theorem turn_safe (safe : parser.Safe) (step : turn parser = some (read, next)) : next.Safe :=
  (turn_cases safe step).2.2.1

theorem turn_opens (safe : parser.Safe) (step : turn parser = some (read, next))
    (isCollection : itemTag read.item = .collection) :
    next.nodes = openPath parser.nodes (read.usageTab[0]?.getD 0) read.value := by
  obtain ⟨readSafe, same, _, parsed | ⟨_, _, parsed⟩⟩ := turn_cases safe step
  · rw [parseItem, isCollection] at parsed
    rw [<- same, collectionItem_nodes readSafe parsed]
  · cases isCollection.symm.trans (parseItem_found readSafe parsed).2.1

theorem turn_closes (safe : parser.Safe) (step : turn parser = some (read, next))
    (isEnd : itemTag read.item = .endCollection) : next.nodes = closePath parser.nodes := by
  obtain ⟨readSafe, same, _, parsed | ⟨_, _, parsed⟩⟩ := turn_cases safe step
  · rw [parseItem, isEnd] at parsed
    rw [<- same, endCollectionItem_nodes readSafe parsed]
  · cases isEnd.symm.trans (parseItem_found readSafe parsed).2.1

theorem turn_keeps (safe : parser.Safe) (step : turn parser = some (read, next))
    (plain : itemTag read.item ≠ .collection ∧ itemTag read.item ≠ .endCollection) : next.nodes = parser.nodes := by
  obtain ⟨readSafe, same, _, parsed | ⟨_, _, parsed⟩⟩ := turn_cases safe step
  · rw [otherItem_nodes readSafe plain parsed, same]
  · obtain ⟨field, isField, _⟩ := parseItem_found readSafe parsed
    rw [(fieldItem_nodes readSafe isField field).1, same]

theorem reaches_safe {parser last : HIDParser} (reached : Reaches parser last) (safe : parser.Safe) : last.Safe := by
  induction reached with
  | refl => exact safe
  | tail _ step ih =>
    obtain ⟨read, step⟩ := step
    exact turn_safe ih step

theorem nested_restores {parser last : HIDParser} {brackets : List Bracket} (nested : Nested parser brackets last)
    (safe : parser.Safe) :
    last.Safe ∧ ((∀ bracket ∈ brackets, bracket.Restored) ↔ ∀ bracket ∈ brackets, bracket.Plain) ∧
      ((∀ bracket ∈ brackets, bracket.Plain) -> last.nodes = parser.nodes) := by
  induction nested with
  | done parser => exact ⟨safe, by simp, fun _ => rfl⟩
  | item step plain _ ih =>
    obtain ⟨lastSafe, iff, keeps⟩ := ih (turn_safe safe step)
    exact ⟨lastSafe, iff, fun all => (keeps all).trans (turn_keeps safe step plain)⟩
  | @collection parser read opened inside readEnd closed last inner later opening isCollection _ closing isEnd _ ih ih' =>
    obtain ⟨insideSafe, innerIff, innerKeeps⟩ := ih (turn_safe safe opening)
    obtain ⟨lastSafe, laterIff, laterKeeps⟩ := ih' (turn_safe insideSafe closing)
    -- The End Collection finds what its Collection has left.
    have own (fits : ∀ bracket ∈ inner, bracket.Plain) :
        (Bracket.between parser read closed).Restored ↔ (Bracket.between parser read closed).Plain := by
      have path : closed.nodes = closePath (openPath parser.nodes (read.usageTab[0]?.getD 0) read.value) := by
        rw [turn_closes insideSafe closing isEnd, innerKeeps fits, turn_opens safe opening isCollection]
      rw [Bracket.Restored, Bracket.between, path]
      exact closePath_openPath _ _ _
    simp only [List.forall_mem_cons, List.forall_mem_append]
    refine ⟨lastSafe, ⟨fun ⟨restored, inners, laters⟩ => ?_, fun ⟨plain, inners, laters⟩ => ?_⟩, fun ⟨plain, inners, laters⟩ => ?_⟩
    · have fits := innerIff.mp inners
      exact ⟨(own fits).mp restored, fits, laterIff.mp laters⟩
    · exact ⟨(own inners).mpr plain, innerIff.mpr inners, laterIff.mpr laters⟩
    · exact (laterKeeps laters).trans ((own inners).mpr plain)

end Turns

section Claims

variable {reportDesc : List UInt8} {parser closed : HIDParser} {bracket : Bracket} {inner : List Bracket}

-- A Collection and all inside it leave the path as it was exactly if none of them has a usage that looks like an index
-- and no index of its own, but for the outermost. With fitting ones inside, the same holds of the Collection alone.
theorem collections_nest (reached : Reaches (.start reportDesc) parser) (fragment : Fragment parser bracket inner closed) :
    ((closed.nodes = parser.nodes ∧ ∀ other ∈ inner, other.Restored) ↔ ∀ other ∈ bracket :: inner, other.Plain) ∧
      ((∀ other ∈ inner, other.Plain) -> (closed.nodes = parser.nodes ↔ bracket.Plain)) := by
  obtain ⟨read, opened, inside, readEnd, opening, isCollection, items, closing, isEnd, rfl⟩ := fragment
  have safe := reaches_safe reached (safe_start reportDesc)
  obtain ⟨_, all, _⟩ := nested_restores (.collection opening isCollection items closing isEnd (.done closed)) safe
  obtain ⟨_, inners, _⟩ := nested_restores items (turn_safe safe opening)
  rw [List.append_nil] at all
  have own : (Bracket.between parser read closed).Restored ↔ closed.nodes = parser.nodes := Iff.rfl
  rw [List.forall_mem_cons, own] at all
  refine ⟨all, fun fits => ⟨fun same => ?_, fun plain => ?_⟩⟩
  · exact all.mp ⟨same, inners.mpr fits⟩ _ List.mem_cons_self
  · exact (all.mpr (List.forall_mem_cons.mpr ⟨plain, fits⟩)).1

def turnItem (parser : HIDParser) : HIDParser :=
  ((turn parser).map Prod.fst).getD parser

def turnsOn : Nat -> HIDParser -> HIDParser
  | 0, parser => parser
  | turns + 1, parser => ((turn (turnsOn turns parser)).map Prod.snd).getD (turnsOn turns parser)

theorem turn_next {turns : Nat} (goes : (turn (turnsOn turns parser)).isSome = true) :
    turn (turnsOn turns parser) = some (turnItem (turnsOn turns parser), turnsOn (turns + 1) parser) := by
  obtain ⟨⟨read, next⟩, step⟩ := Option.isSome_iff_exists.mp goes
  rw [turnItem, turnsOn, step]
  rfl

theorem reaches_turnsOn {turns : Nat} (goes : ∀ k < turns, (turn (turnsOn k parser)).isSome = true) :
    Reaches parser (turnsOn turns parser) := by
  induction turns with
  | zero => exact .refl
  | succ turns ih =>
    have before := ih fun k less => goes k (Nat.lt_succ_of_lt less)
    exact before.tail ⟨_, turn_next (goes turns (Nat.lt_succ_self turns))⟩

def nestedDescriptor : List UInt8 :=
  [0x05, 0x84, 0x09, 0x04, 0xa1, 0x01, 0x09, 0x24, 0xa1, 0x80, 0x75, 0x08, 0x95, 0x01, 0x09, 0x40, 0xb1, 0x02, 0xc0, 0xc0]

theorem collections_nest_sample :
    (turnsOn 11 (.start nestedDescriptor)).nodes = (turnsOn 2 (.start nestedDescriptor)).nodes := by
  have goes : ∀ k < 11, (turn (turnsOn k (.start nestedDescriptor))).isSome = true := by decide +kernel
  have step (k : Nat) (before : k < 11) := turn_next (goes k before)
  have reached : Reaches (.start nestedDescriptor) (turnsOn 2 (.start nestedDescriptor)) :=
    reaches_turnsOn fun k before => goes k (by omega)
  have field : Nested (turnsOn 5 (.start nestedDescriptor)) [] (turnsOn 9 (.start nestedDescriptor)) :=
    .item (step 5 (by decide)) (by decide +kernel) (.item (step 6 (by decide)) (by decide +kernel)
      (.item (step 7 (by decide)) (by decide +kernel) (.item (step 8 (by decide)) (by decide +kernel) (.done _))))
  have indexed : Nested (turnsOn 3 (.start nestedDescriptor)) _ (turnsOn 10 (.start nestedDescriptor)) :=
    .item (step 3 (by decide)) (by decide +kernel) (.collection (step 4 (by decide)) (by decide +kernel) field
      (step 9 (by decide)) (by decide +kernel) (.done _))
  have fragment : Fragment (turnsOn 2 (.start nestedDescriptor)) _ _ (turnsOn 11 (.start nestedDescriptor)) :=
    ⟨_, _, _, _, step 2 (by decide), by decide +kernel, indexed, step 10 (by decide), by decide +kernel, rfl⟩
  exact ((collections_nest reached fragment).1.mpr (by unfold Bracket.Plain; decide +kernel)).1

def unnestedDescriptor : List UInt8 :=
  [0x05, 0x84, 0x09, 0x04, 0xa1, 0x01, 0x06, 0xff, 0x00, 0x09, 0x01, 0xa1, 0x02, 0xc0, 0xc0]

-- The End Collection of the outer one is then taken for one too many.
theorem collection_unnested :
    ∃ parser bracket closed, Reaches (.start unnestedDescriptor) parser ∧ Fragment parser bracket [] closed ∧
      parser.nodes = [0x00840004] ∧ closed.nodes = [] ∧ turn closed = none := by
  have goes : ∀ k < 7, (turn (turnsOn k (.start unnestedDescriptor))).isSome = true := by decide +kernel
  exact ⟨turnsOn 5 (.start unnestedDescriptor), _, turnsOn 7 (.start unnestedDescriptor),
    reaches_turnsOn fun k before => goes k (by omega),
    ⟨_, _, _, _, turn_next (goes 5 (by decide)), by decide +kernel, .done _, turn_next (goes 6 (by decide)),
      by decide +kernel, rfl⟩, by decide +kernel, by decide +kernel, by decide +kernel⟩

end Claims

end Nut
