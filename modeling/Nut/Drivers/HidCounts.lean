import Nut.Drivers.HidWalk

set_option autoImplicit false

namespace Nut

-- The fields that the calls of `HIDParse` find when they reach the end of the descriptor without an error, each with
-- the place where its item ends.
inductive Processed : HIDParser -> List (Nat × HIDData) -> Prop where
  | ended {parser : HIDParser} (atEnd : ¬ parser.pos < parser.reportDesc.length) : Processed parser []
  | next {parser read next : HIDParser} {fields : List (Nat × HIDData)} (more : parser.pos < parser.reportDesc.length)
      (item : currentItem parser = .ok (some read)) (parsed : parseItem read = .ok (.next next))
      (later : Processed next fields) : Processed parser fields
  | found {parser read next : HIDParser} {pData : HIDData} {ret : Nat} {fields : List (Nat × HIDData)}
      (more : parser.pos < parser.reportDesc.length) (item : currentItem parser = .ok (some read))
      (parsed : parseItem read = .ok (.found next pData ret)) (later : Processed next fields) :
      Processed parser ((next.pos, pData) :: fields)

inductive Calls : HIDParser -> List (Nat × HIDData) -> Prop where
  | last {parser : HIDParser} (atEnd : nextField (parser.reportDesc.length + 1) parser = .ok none) : Calls parser []
  | call {parser next : HIDParser} {pData : HIDData} {ret : Nat} {fields : List (Nat × HIDData)}
      (found : nextField (parser.reportDesc.length + 1) parser = .ok (some (next, pData, ret)))
      (later : Calls next fields) : Calls parser ((next.pos, pData) :: fields)

def processLoop : Nat -> HIDParser -> Option (List (Nat × HIDData))
  | 0, _ => none
  | turns + 1, parser =>
    if parser.pos < parser.reportDesc.length then
      match currentItem parser with
      | .ok (some read) =>
        match parseItem read with
        | .ok (.next next) => processLoop turns next
        | .ok (.found next pData _) => (processLoop turns next).map ((next.pos, pData) :: ·)
        | _ => none
      | _ => none
    else some []

theorem processed_of_loop {turns : Nat} {parser : HIDParser} {fields : List (Nat × HIDData)}
    (loop : processLoop turns parser = some fields) : Processed parser fields := by
  induction turns generalizing parser fields with
  | zero => simp [processLoop] at loop
  | succ turns ih =>
    rw [processLoop] at loop
    by_cases more : parser.pos < parser.reportDesc.length
    · rw [if_pos more] at loop
      cases item : currentItem parser with
      | error => simp [item] at loop
      | ok current =>
        obtain _ | read := current
        · simp [item] at loop
        · cases parsed : parseItem read with
          | error => simp [item, parsed] at loop
          | ok result =>
            obtain next | _ | ⟨next, pData, ret⟩ := result
            · simp only [item, parsed] at loop
              exact .next more item parsed (ih loop)
            · simp [item, parsed] at loop
            · simp only [item, parsed, Option.map_eq_some_iff] at loop
              obtain ⟨rest, later, rfl⟩ := loop
              exact .found more item parsed (ih later)
    · rw [if_neg more, Option.some.injEq] at loop
      subst loop
      exact .ended more

structure HidItem where
  item : UInt8
  value : UInt32
  stop : Nat
  deriving DecidableEq, Repr

def HIDParser.current (parser : HIDParser) : HidItem :=
  { item := parser.item, value := parser.value, stop := parser.pos }

def itemAt (reportDesc : List UInt8) (pos : Nat) : Option HidItem :=
  match readItem { HIDParser.start reportDesc with pos } with
  | .ok (some read) => some read.current
  | _ => none

-- The bytes of a long item are skipped.
def HidItem.next (item : HidItem) : Nat :=
  if itemTag item.item = .long then item.stop + (item.value &&& 0xff).toNat else item.stop

structure HidEnv where
  count : Nat
  size : Nat
  reportID : Nat
  upage : UInt16
  usages : List UInt32
  deriving DecidableEq, Repr

def HidEnv.start : HidEnv :=
  { count := 0, size := 0, reportID := 0, upage := 0, usages := [] }

def HidEnv.usage (env : HidEnv) (item : HidItem) : UInt32 :=
  if (item.item &&& 0x03) > 2 then item.value else (env.upage.toUInt32 <<< 16) ||| (item.value &&& 0xffff)

-- Usages are local: they are gone after a main item.
def HidEnv.after (env : HidEnv) (item : HidItem) : HidEnv :=
  match itemTag item.item with
  | .repCount => { env with count := item.value.toNat }
  | .repSize => { env with size := item.value.toNat }
  | .repID => { env with reportID := item.value.toNat }
  | .upage => { env with upage := item.value.toUInt16 }
  | .usage => { env with usages := env.usages ++ [env.usage item] }
  | .collection => { env with usages := [] }
  | .endCollection => { env with usages := [] }
  | .field => { env with usages := [] }
  | _ => env

structure MainItem where
  stop : Nat
  count : Nat
  size : Nat
  reportID : Nat
  type : UInt8
  usages : List UInt32
  deriving DecidableEq, Repr

def HidEnv.main (env : HidEnv) (item : HidItem) : MainItem :=
  { stop := item.stop, count := env.count, size := env.size, reportID := env.reportID, type := item.item &&& 0xfc,
    usages := env.usages }

def mainsLoop : Nat -> List UInt8 -> Nat -> HidEnv -> List MainItem
  | 0, _, _, _ => []
  | turns + 1, reportDesc, pos, env =>
    match itemAt reportDesc pos with
    | none => []
    | some item =>
      let later := mainsLoop turns reportDesc item.next (env.after item)
      if itemTag item.item = .field then env.main item :: later else later

def mains (reportDesc : List UInt8) : List MainItem :=
  mainsLoop (reportDesc.length + 1) reportDesc 0 .start

-- The usage of a field is the last node of its path.
def HIDData.usage (field : HIDData) : Option UInt32 :=
  field.path.node[field.path.size - 1]?

def itemFields (fields : List (Nat × HIDData)) (main : MainItem) : List HIDData :=
  (fields.filter fun field => field.1 = main.stop).map Prod.snd

structure Honoured (fields : List (Nat × HIDData)) (main : MainItem) : Prop where
  consecutive : ∃ before after, fields = before ++ (itemFields fields main).map (Prod.mk main.stop) ++ after
  count : (itemFields fields main).length = main.count
  sizes : ∀ field ∈ itemFields fields main, field.size.toNat = main.size
  usages : ((itemFields fields main).map HIDData.usage).take (min main.count main.usages.length) =
    (main.usages.map some).take (min main.count main.usages.length)

def Countable (length : Nat) (main : MainItem) : Prop :=
  main.size < 256 ∧ if main.stop < length then 1 ≤ main.count ∧ main.count ≤ 256 else main.count = 1

section Steps

variable {parser next : HIDParser} {env : HidEnv}

-- The parser has what the items announce, as far as its bytes can hold it.
structure HIDParser.Follows (parser : HIDParser) (env : HidEnv) : Prop where
  count : parser.reportCount.toNat = env.count % 256
  size : parser.data.size.toNat = env.size % 256
  reportID : parser.data.reportID.toNat = env.reportID % 256
  upage : parser.upage = env.upage
  usageSize : parser.usageSize = env.usages.length
  usageTab : ∃ spare, parser.usageTab = env.usages ++ List.replicate spare 0

theorem follows_start (reportDesc : List UInt8) : (HIDParser.start reportDesc).Follows .start where
  count := rfl
  size := rfl
  reportID := rfl
  upage := rfl
  usageSize := rfl
  usageTab := ⟨_, rfl⟩

theorem follows_reset (follows : parser.Follows env) (path : HIDPath) :
    (resetLocalState { parser with data := { parser.data with path } }).Follows { env with usages := [] } where
  count := follows.count
  size := follows.size
  reportID := follows.reportID
  upage := follows.upage
  usageSize := rfl
  usageTab := ⟨_, rfl⟩

theorem Follows.usage_first (safe : parser.Safe) (follows : parser.Follows env) :
    readAt parser.usageTab 0 = .ok (env.usages.headD 0) := by
  have some_ := safe.usages
  obtain ⟨spare, usageTab⟩ := follows.usageTab
  rw [readAt_inside some_]
  cases usages : env.usages with
  | nil => simp [usageTab, usages]
  | cons usage rest => simp [usageTab, usages]

theorem unstackLoop_shift (usages before : List UInt32) (first : UInt32) (spare : Nat) :
    unstackLoop (usages.length + 1) before.length (before ++ first :: (usages ++ List.replicate spare 0)) =
      .ok (before ++ (usages ++ List.replicate (spare + 1) 0)) := by
  induction usages generalizing before first with
  | nil =>
    have behind : usageBehind (before ++ first :: ([] ++ List.replicate spare 0)) before.length = .ok 0 := by
      unfold usageBehind
      split
      next inside =>
        rw [readAt_inside inside]
        simp [List.getElem_append_right]
      next => rfl
    rw [List.length_nil, unstackLoop, behind, ok_bind, writeAt_behind, ok_bind, unstackLoop]
    rfl
  | cons usage rest ih =>
    have behind : usageBehind (before ++ first :: (usage :: rest ++ List.replicate spare 0)) before.length =
        .ok usage := by
      have inside : before.length + 1 < (before ++ first :: (usage :: rest ++ List.replicate spare 0)).length := by
        simp
      rw [usageBehind, if_pos inside, readAt_inside inside]
      simp [List.getElem_append_right]
    have later := ih (before ++ [usage]) usage
    rw [List.length_append, List.length_singleton] at later
    rw [List.length_cons, unstackLoop, behind, ok_bind, writeAt_behind, ok_bind]
    simpa using later

theorem unstackUsage_follows (follows : parser.Follows env) :
    ∃ usageTab usageSize, unstackUsage parser = .ok { parser with usageTab, usageSize } ∧
      HIDParser.Follows { parser with usageTab, usageSize } { env with usages := env.usages.tail } ∧
      usageTab.length = parser.usageTab.length ∧ usageSize ≤ parser.usageSize := by
  obtain ⟨spare, usageTab⟩ := follows.usageTab
  have size := follows.usageSize
  unfold unstackUsage
  cases usages : env.usages with
  | nil =>
    rw [usages] at usageTab size
    have none_ : ¬ parser.usageSize > 0 := by simp [size]
    refine ⟨parser.usageTab, parser.usageSize, by simp [none_, pure, Except.pure], ?_, rfl, Nat.le_refl _⟩
    exact ⟨follows.count, follows.size, follows.reportID, follows.upage, size, spare, usageTab⟩
  | cons usage rest =>
    rw [usages] at usageTab size
    have some_ : parser.usageSize > 0 := by simp [size]
    have shift := unstackLoop_shift rest [] usage spare
    rw [List.length_nil, List.nil_append, List.nil_append, <- List.cons_append, <- usageTab, <- List.length_cons (a := usage),
      <- size] at shift
    refine ⟨rest ++ List.replicate (spare + 1) 0, parser.usageSize - 1, ?_, ?_, ?_, Nat.sub_le _ _⟩
    · simp [some_, shift, bind, Except.bind, pure, Except.pure]
    · exact ⟨follows.count, follows.size, follows.reportID, follows.upage, by simp [size], spare + 1, rfl⟩
    · simp [usageTab]
      omega

theorem collectionItem_next (safe : parser.Safe) (parsed : collectionItem parser = .ok (.next next)) :
    ∃ path, next = resetLocalState { parser with data := { parser.data with path } } := by
  have usages := safe.usages
  unfold collectionItem at parsed
  rw [readAt_inside usages] at parsed
  simp only [bind, Except.bind] at parsed
  obtain none_ | ⟨path, pushed, nodes, _, short⟩ := pushNode_ok safe parser.usageTab[0]
  · simp [none_, pure, Except.pure] at parsed
  · have inside := safe_pushed safe nodes short
    obtain ⟨usageTab, usageSize, unstacked, length, few⟩ := unstackUsage_ok inside
    have after := safe_unstacked inside length few
    simp only at length
    have reset (path : HIDPath) : resetLocalState { parser with data := { parser.data with path }, usageTab, usageSize } =
        resetLocalState { parser with data := { parser.data with path } } := by
      simp only [resetLocalState, length]
    simp only [pushed, unstacked] at parsed
    by_cases index : parser.value ≥ 0x80
    · rw [if_pos index] at parsed
      obtain none_ | ⟨path', pushed', _⟩ := pushNode_ok after (0x00ff0000 ||| (parser.value &&& 0x7f))
      · simp [none_, pure, Except.pure] at parsed
      · simp only [pushed', pure, Except.pure, Except.ok.injEq, ItemResult.next.injEq] at parsed
        exact ⟨path', by rw [<- parsed, reset]⟩
    · rw [if_neg index] at parsed
      simp only [pure, Except.pure, Except.ok.injEq, ItemResult.next.injEq] at parsed
      exact ⟨path, by rw [<- parsed, reset]⟩

theorem endCollectionItem_next (parsed : endCollectionItem parser = .ok (.next next)) :
    ∃ path, next = resetLocalState { parser with data := { parser.data with path } } := by
  unfold endCollectionItem at parsed
  by_cases empty : parser.data.path.size = 0
  · simp [empty, pure, Except.pure] at parsed
  · simp only [empty, if_false] at parsed
    by_cases deep : parser.data.path.size - 1 > 0
    · rw [if_pos deep] at parsed
      cases read : readAt parser.data.path.node (parser.data.path.size - 1) with
      | error => simp [read, bind, Except.bind] at parsed
      | ok node =>
        simp only [read, bind, Except.bind, pure, Except.pure] at parsed
        by_cases index : node &&& 0xffff0000 = 0x00ff0000
        · rw [if_pos index, Except.ok.injEq, ItemResult.next.injEq] at parsed
          exact ⟨_, parsed.symm⟩
        · rw [if_neg index, Except.ok.injEq, ItemResult.next.injEq] at parsed
          exact ⟨_, parsed.symm⟩
    · rw [if_neg deep] at parsed
      simp only [pure, Except.pure, Except.ok.injEq, ItemResult.next.injEq] at parsed
      exact ⟨_, parsed.symm⟩

theorem usageItem_next (follows : parser.Follows env) (parsed : usageItem parser = .ok (.next next)) :
    next.Follows { env with usages := env.usages ++ [env.usage parser.current] } ∧ next.count = parser.count ∧
      next.pos = parser.pos := by
  obtain ⟨spare, usageTab⟩ := follows.usageTab
  unfold usageItem at parsed
  by_cases full : parser.usageSize ≥ parser.usageTab.length
  · simp [full, pure, Except.pure] at parsed
  · have room : parser.usageSize < parser.usageTab.length := by omega
    rw [if_neg full] at parsed
    simp only [writeAt_inside room, bind, Except.bind, pure, Except.pure, Except.ok.injEq, ItemResult.next.injEq] at parsed
    subst parsed
    refine ⟨⟨follows.count, follows.size, follows.reportID, follows.upage, by simp [follows.usageSize], spare - 1, ?_⟩, rfl, rfl⟩
    rw [usageTab, follows.usageSize, List.length_append, List.length_replicate] at room
    obtain ⟨spare, rfl⟩ : ∃ other, spare = other + 1 := ⟨spare - 1, by omega⟩
    simp only [usageTab, follows.usageSize, HidEnv.usage, HIDParser.current, follows.upage]
    simp [List.replicate_succ, List.set_append_right]

theorem parseItem_next (safe : parser.Safe) (follows : parser.Follows env)
    (parsed : parseItem parser = .ok (.next next)) :
    next.Follows (env.after parser.current) ∧ next.count = parser.count ∧ next.pos = parser.current.next := by
  have reset (path : HIDPath) (same : next = resetLocalState { parser with data := { parser.data with path } }) :
      next.Follows { env with usages := [] } ∧ next.count = parser.count ∧ next.pos = parser.pos := by
    subst same
    exact ⟨follows_reset follows path, rfl, rfl⟩
  have own : itemTag parser.current.item = itemTag parser.item := rfl
  unfold parseItem at parsed
  unfold HidEnv.after HidItem.next
  rw [own]
  generalize tag : itemTag parser.item = kind at parsed ⊢
  cases kind
  case usage => exact usageItem_next follows parsed
  case collection =>
    obtain ⟨path, same⟩ := collectionItem_next safe parsed
    exact reset path same
  case endCollection =>
    obtain ⟨path, same⟩ := endCollectionItem_next parsed
    exact reset path same
  case field =>
    obtain past | ⟨_, _, _, found, _⟩ := fieldItem_ok safe tag
    · cases parsed.symm.trans past
    · cases parsed.symm.trans found
  case repSize =>
    cases parsed
    exact ⟨{ follows with size := by simp [globalItem, HIDParser.current] }, rfl, rfl⟩
  case repID =>
    cases parsed
    exact ⟨{ follows with reportID := by simp [globalItem, HIDParser.current] }, rfl, rfl⟩
  case repCount =>
    cases parsed
    exact ⟨{ follows with count := by simp [HIDParser.current] }, rfl, rfl⟩
  case upage =>
    cases parsed
    exact ⟨{ follows with upage := rfl }, rfl, rfl⟩
  case logMax =>
    cases parsed
    refine ⟨{ follows with size := ?_, reportID := ?_ }, rfl, rfl⟩
    · simp only [globalItem]
      split <;> exact follows.size
    · simp only [globalItem]
      split <;> exact follows.reportID
  all_goals
    cases parsed
    exact ⟨{ follows with }, rfl, rfl⟩

theorem pushNode_usage (nodes : parser.data.path.node.length = pathSize) {pushed : HIDParser} {node : UInt32}
    (push : pushNode parser node = .ok (some pushed)) :
    ∃ path : HIDPath, pushed = { parser with data := { parser.data with path } } ∧
      path.node[path.size - 1]? = some node := by
  unfold pushNode at push
  by_cases long : parser.data.path.size ≥ pathSize
  · simp [long, pure, Except.pure] at push
  · have room : parser.data.path.size < parser.data.path.node.length := by omega
    simp only [long, if_false, writeAt_inside room, bind, Except.bind, pure, Except.pure, Except.ok.injEq,
      Option.some.injEq] at push
    exact ⟨_, push.symm, by simp [room]⟩

theorem follows_endOfField (follows : parser.Follows env) :
    (endOfField parser).Follows { env with usages := if parser.count = 0 then [] else env.usages } := by
  unfold endOfField
  split
  · exact follows_reset follows parser.data.path
  · exact follows

theorem count_endOfField (parser : HIDParser) : (endOfField parser).count = parser.count := by
  unfold endOfField
  split <;> rfl

theorem fieldItem_found (safe : parser.Safe) (follows : parser.Follows env) {pData : HIDData} {ret : Nat}
    (parsed : fieldItem parser = .ok (.found next pData ret)) :
    pData.size.toNat = env.size % 256 ∧ pData.reportID.toNat = env.reportID % 256 ∧ pData.type = parser.item &&& 0xfc ∧
      pData.usage = some (env.usages.headD 0) ∧ next.Follows { env with usages := if next.count = 0 then [] else env.usages.tail } := by
  unfold fieldItem at parsed
  rw [Follows.usage_first safe follows] at parsed
  simp only [bind, Except.bind] at parsed
  generalize counted : (if parser.count = 0 then { parser with count := parser.reportCount } else parser) = started
    at parsed
  have same : started = { parser with count := if parser.count = 0 then parser.reportCount else parser.count } := by
    rw [<- counted]
    split <;> simp_all
  have startedFollows : started.Follows env := by
    rw [same]
    exact { follows with }
  have nodes : started.data.path.node.length = pathSize := by
    rw [same]
    exact safe.nodes
  cases push : pushNode started (env.usages.headD 0) with
  | error =>
    rw [push] at parsed
    cases parsed
  | ok pushed =>
    obtain _ | pushed := pushed
    · rw [push] at parsed
      cases parsed
    · obtain ⟨path, rfl, last⟩ := pushNode_usage nodes push
      have pushedFollows : HIDParser.Follows { started with data := { started.data with path } } env :=
        { startedFollows with }
      obtain ⟨usageTab, usageSize, unstacked, unstackedFollows, _⟩ := unstackUsage_follows pushedFollows
      simp only [push, unstacked, pure, Except.pure, Except.ok.injEq, ItemResult.found.injEq] at parsed
      obtain ⟨rfl, rfl, _⟩ := parsed
      rw [count_endOfField]
      refine ⟨startedFollows.size, startedFollows.reportID, by rw [same], last,
        @follows_endOfField _ { env with usages := env.usages.tail } ?_⟩
      exact { unstackedFollows with }

theorem readItem_current {other : HIDParser} (reportDesc : other.reportDesc = parser.reportDesc)
    (pos : other.pos = parser.pos) :
    (readItem other).map (Option.map HIDParser.current) = (readItem parser).map (Option.map HIDParser.current) := by
  unfold readItem
  rw [reportDesc, pos]
  cases readAt parser.reportDesc parser.pos with
  | error => rfl
  | ok item =>
    simp only [ok_bind]
    split
    next => rfl
    next => cases readValueLoop parser.reportDesc (parser.pos + 1) (itemSize item) 0 0 <;> rfl

theorem itemAt_of_read {read : HIDParser} (item : readItem parser = .ok (some read)) :
    itemAt parser.reportDesc parser.pos = some read.current := by
  have same := @readItem_current parser { HIDParser.start parser.reportDesc with pos := parser.pos } rfl rfl
  rw [item] at same
  unfold itemAt
  cases found : readItem { HIDParser.start parser.reportDesc with pos := parser.pos } with
  | error => simp [found, Except.map] at same
  | ok result =>
    obtain _ | other := result
    · simp [found, Except.map] at same
    · simpa [found, Except.map] using same

theorem itemAt_between {reportDesc : List UInt8} {pos : Nat} {item : HidItem} (found : itemAt reportDesc pos = some item) :
    pos < item.stop ∧ item.stop ≤ reportDesc.length := by
  unfold itemAt at found
  by_cases more : pos < reportDesc.length
  · obtain truncated | ⟨_, _, stop, read, further, within⟩ := @readItem_ok { HIDParser.start reportDesc with pos } more
    · simp [truncated] at found
    · simp only [read, Option.some.injEq] at found
      rw [<- found]
      exact ⟨further, within⟩
  · have atEnd : readItem { HIDParser.start reportDesc with pos } = .error .outOfBounds := by
      simp [readItem, readAt, HIDParser.start, more, bind, Except.bind]
    simp [atEnd] at found

theorem itemAt_further {reportDesc : List UInt8} {pos : Nat} {item : HidItem} (found : itemAt reportDesc pos = some item) :
    pos < item.stop := (itemAt_between found).1

theorem next_stop (item : HidItem) : item.stop ≤ item.next := by
  unfold HidItem.next
  split <;> omega

end Steps

structure Repeats (count : Nat) (main : MainItem) (block : List HIDData) : Prop where
  count : block.length = count
  sizes : ∀ field ∈ block, field.size.toNat = main.size % 256
  reports : ∀ field ∈ block, field.reportID.toNat = main.reportID % 256 ∧ field.type = main.type
  usages : ∀ (j : Nat) (field : HIDData), block[j]? = some field -> field.usage = some (main.usages.getD j 0)

def repetitions (length : Nat) (main : MainItem) : Nat :=
  if main.stop < length then (if main.count % 256 = 0 then 256 else main.count % 256) else 1

-- All the repetitions, or as many as were found before the end, with nothing behind them.
def AllFound (complete : Bool) (count all : Nat) (rest : List (Nat × HIDData)) : Prop :=
  count = all ∨ complete = false ∧ count ≤ all ∧ rest = []

inductive Blocks (length : Nat) (complete : Bool) : List MainItem -> List (Nat × HIDData) -> Prop where
  | nil : Blocks length complete [] []
  | stopped (early : complete = false) (items : List MainItem) : Blocks length complete items []
  | cons {main : MainItem} {items : List MainItem} {count : Nat} {block : List HIDData} {rest : List (Nat × HIDData)}
      (repeats : Repeats count main block) (whole : AllFound complete count (repetitions length main) rest)
      (later : Blocks length complete items rest) :
      Blocks length complete (main :: items) (block.map (Prod.mk main.stop) ++ rest)

-- The fields that are found until the end, or until something else stops the calls.
inductive Walked (complete : Bool) : HIDParser -> List (Nat × HIDData) -> Prop where
  | stopped {parser : HIDParser} (early : complete = false) : Walked complete parser []
  | ended {parser : HIDParser} (atEnd : ¬ parser.pos < parser.reportDesc.length) : Walked complete parser []
  | next {parser read next : HIDParser} {fields : List (Nat × HIDData)} (more : parser.pos < parser.reportDesc.length)
      (item : currentItem parser = .ok (some read)) (parsed : parseItem read = .ok (.next next))
      (later : Walked complete next fields) : Walked complete parser fields
  | found {parser read next : HIDParser} {pData : HIDData} {ret : Nat} {fields : List (Nat × HIDData)}
      (more : parser.pos < parser.reportDesc.length) (item : currentItem parser = .ok (some read))
      (parsed : parseItem read = .ok (.found next pData ret)) (later : Walked complete next fields) :
      Walked complete parser ((next.pos, pData) :: fields)

theorem Processed.walked {parser : HIDParser} {fields : List (Nat × HIDData)} (run : Processed parser fields)
    (complete : Bool) : Walked complete parser fields := by
  induction run with
  | ended atEnd => exact .ended atEnd
  | next more item parsed _ ih => exact .next more item parsed ih
  | found more item parsed _ ih => exact .found more item parsed ih

section Run

variable {parser : HIDParser} {env : HidEnv} {fields : List (Nat × HIDData)}

theorem repeats_nil (main : MainItem) : Repeats 0 main [] where
  count := rfl
  sizes := by simp
  reports := by simp
  usages := by simp

theorem repeats_cons {count : Nat} {main : MainItem} {left : List UInt32} {field : HIDData} {block : List HIDData}
    (rest : Repeats count { main with usages := left } block) (own : field.size.toNat = main.size % 256)
    (report : field.reportID.toNat = main.reportID % 256 ∧ field.type = main.type)
    (usage : field.usage = some (main.usages.headD 0)) (taken : count = 0 ∨ left = main.usages.tail) :
    Repeats (count + 1) main (field :: block) where
  count := by rw [List.length_cons, rest.count]
  sizes := by
    rw [List.forall_mem_cons]
    exact ⟨own, rest.sizes⟩
  reports := by
    rw [List.forall_mem_cons]
    exact ⟨report, rest.reports⟩
  usages := by
    intro j other index
    cases j with
    | zero =>
      obtain rfl : field = other := by simpa using index
      rw [usage]
      cases main.usages <;> rfl
    | succ j =>
      rw [List.getElem?_cons_succ] at index
      obtain ⟨inside, _⟩ := List.getElem?_eq_some_iff.mp index
      have used : left = main.usages.tail := taken.resolve_left (by have := rest.count; omega)
      have own := rest.usages j other index
      rw [used] at own
      rw [own]
      cases main.usages <;> simp

-- The repetitions that are still to come: none at the end of the descriptor.
def HIDParser.pending (parser : HIDParser) : Nat :=
  if parser.pos < parser.reportDesc.length then parser.count.toNat else 0

def HIDParser.settled (parser : HIDParser) (env : HidEnv) : HidEnv :=
  if parser.count = 0 then env else { env with usages := [] }

def Continued (complete : Bool) (parser : HIDParser) (env : HidEnv) (turns : Nat) (fields : List (Nat × HIDData)) :
    Prop :=
  ∃ count block rest, fields = block.map (Prod.mk parser.pos) ++ rest ∧
    Repeats count (env.main parser.current) block ∧ AllFound complete count parser.pending rest ∧
    Blocks parser.reportDesc.length complete (mainsLoop turns parser.reportDesc parser.pos (parser.settled env)) rest

theorem pending_zero (new : parser.count = 0) : parser.pending = 0 := by
  unfold HIDParser.pending
  rw [new]
  split <;> rfl

theorem continued_new {complete : Bool} {turns : Nat} (new : parser.count = 0) :
    Continued complete parser env turns fields ↔
      Blocks parser.reportDesc.length complete (mainsLoop turns parser.reportDesc parser.pos env) fields := by
  have settled : parser.settled env = env := if_pos new
  have none_ := pending_zero new
  constructor
  · rintro ⟨count, block, rest, rfl, repeats, whole, blocks⟩
    have few : count = 0 := by
      obtain all | ⟨_, some_, _⟩ := whole <;> omega
    have empty : block = [] := List.eq_nil_of_length_eq_zero (repeats.count.trans few)
    rw [settled] at blocks
    simpa [empty] using blocks
  · intro blocks
    exact ⟨0, [], fields, rfl, repeats_nil _, Or.inl none_.symm, by rwa [settled]⟩

theorem mainsLoop_over {reportDesc : List UInt8} {turns pos : Nat} (atEnd : ¬ pos < reportDesc.length) (env : HidEnv) :
    mainsLoop turns reportDesc pos env = [] := by
  obtain _ | turns := turns
  · rfl
  · have none_ : itemAt reportDesc pos = none := by
      simp [itemAt, readItem, readAt, HIDParser.start, atEnd, bind, Except.bind]
    rw [mainsLoop, none_]

theorem mainsLoop_item {reportDesc : List UInt8} {pos : Nat} {item : HidItem} (found : itemAt reportDesc pos = some item)
    (turns : Nat) (env : HidEnv) : mainsLoop (turns + 1) reportDesc pos env =
      (if itemTag item.item = .field then [env.main item] else []) ++
      mainsLoop turns reportDesc item.next (env.after item) := by
  rw [mainsLoop, found]
  simp only
  split <;> rfl

theorem readItem_safe (safe : parser.Safe) (new : parser.count = 0) (more : parser.pos < parser.reportDesc.length)
    {read : HIDParser} (item : readItem parser = .ok (some read)) :
    read.Safe ∧ read.reportDesc = parser.reportDesc ∧ read.count = 0 ∧ ∀ env, parser.Follows env -> read.Follows env := by
  obtain truncated | ⟨_, _, _, got, _⟩ := readItem_ok more
  · cases item.symm.trans truncated
  · cases item.symm.trans got
    exact ⟨{ safe with counting := fun counting => absurd new counting }, rfl, new, fun env follows => { follows with }⟩

theorem continued_found {complete : Bool} (safe : parser.Safe) (follows : parser.Follows env) {next : HIDParser}
    {pData : HIDData} {ret turns : Nat} (parsed : parseItem parser = .ok (.found next pData ret))
    (later : Continued complete next { env with usages := if next.count = 0 then [] else env.usages.tail } turns fields) :
    ∃ count block rest, (next.pos, pData) :: fields = block.map (Prod.mk parser.pos) ++ rest ∧
      Repeats count (env.main parser.current) block ∧ AllFound complete count (next.pending + 1) rest ∧
      Blocks parser.reportDesc.length complete
        (mainsLoop turns parser.reportDesc parser.pos { env with usages := [] }) rest := by
  obtain ⟨field, _, continues, pos, item, _⟩ := parseItem_found safe parsed
  obtain ⟨size, reportID, type, usage, _⟩ := fieldItem_found safe follows field
  obtain ⟨count, block, rest, rfl, repeats, whole, blocks⟩ := later
  refine ⟨count + 1, pData :: block, rest, by rw [pos]; rfl, ?_, ?_, ?_⟩
  · have same : HidEnv.main { env with usages := if next.count = 0 then [] else env.usages.tail } next.current =
        { env.main parser.current with usages := if next.count = 0 then [] else env.usages.tail } := by
      simp [HidEnv.main, HIDParser.current, pos, item]
    rw [same] at repeats
    refine repeats_cons repeats size ⟨reportID, type⟩ usage ?_
    by_cases last : next.count = 0
    · have none_ := pending_zero last
      left
      obtain all | ⟨_, some_, _⟩ := whole <;> omega
    · exact Or.inr (if_neg last)
  · obtain all | ⟨early, few, none_⟩ := whole
    · exact Or.inl (by omega)
    · exact Or.inr ⟨early, by omega, none_⟩
  · have settled : next.settled { env with usages := if next.count = 0 then [] else env.usages.tail } =
        { env with usages := [] } := by
      unfold HIDParser.settled
      split <;> rfl
    rw [settled, continues.reportDesc, pos] at blocks
    exact blocks

theorem pending_first {read next : HIDParser} (follows : read.Follows env) (reportDesc : next.reportDesc = read.reportDesc)
    (pos : next.pos = read.pos) (count : next.count = read.reportCount - 1) :
    next.pending + 1 = repetitions read.reportDesc.length (env.main read.current) := by
  unfold HIDParser.pending repetitions HidEnv.main HIDParser.current
  rw [reportDesc, pos, <- follows.count]
  have small := read.reportCount.toNat_lt
  split
  next =>
    rw [count, UInt8.toNat_sub]
    simp only [UInt8.reduceToNat]
    split <;> omega
  next => rfl

theorem pending_repeated {next : HIDParser} (more : parser.pos < parser.reportDesc.length)
    (reportDesc : next.reportDesc = parser.reportDesc) (pos : next.pos = parser.pos) (counting : parser.count ≠ 0)
    (count : next.count = parser.count - 1) : next.pending + 1 = parser.pending := by
  unfold HIDParser.pending
  have small := parser.count.toNat_lt
  have some_ : parser.count.toNat ≠ 0 := fun zero => counting (UInt8.toNat_inj.mp zero)
  rw [reportDesc, pos, if_pos more, if_pos more, count, UInt8.toNat_sub]
  simp only [UInt8.reduceToNat]
  omega

theorem walked_continued {complete : Bool} (run : Walked complete parser fields) {turns : Nat} (safe : parser.Safe)
    (follows : parser.Follows env) (enough : parser.reportDesc.length - parser.pos < turns) :
    Continued complete parser env turns fields := by
  induction run generalizing env turns with
  | stopped early => exact ⟨0, [], [], rfl, repeats_nil _, Or.inr ⟨early, Nat.zero_le _, rfl⟩, .stopped early _⟩
  | @ended parser atEnd =>
    refine ⟨0, [], [], rfl, repeats_nil _, ?_, ?_⟩
    · rw [HIDParser.pending, if_neg atEnd]
      exact Or.inl rfl
    · rw [mainsLoop_over atEnd]
      exact .nil
  | @next parser read next fields more item parsed later ih =>
    by_cases new : parser.count = 0
    · rw [currentItem, if_pos new] at item
      obtain ⟨turns, rfl⟩ : ∃ other, turns = other + 1 := ⟨turns - 1, by omega⟩
      have here := itemAt_of_read item
      have further : parser.pos < read.pos := itemAt_further here
      obtain ⟨readSafe, same, readNew, keeps⟩ := readItem_safe safe new more item
      have readFollows := keeps env follows
      obtain ⟨notField, continues⟩ := parseItem_continues readSafe parsed
      obtain ⟨nextFollows, nextNew, pos⟩ := parseItem_next readSafe readFollows parsed
      have position := continues.pos
      have length : next.reportDesc = parser.reportDesc := continues.reportDesc.trans same
      have rest := @ih _ turns continues.safe nextFollows (by rw [length]; omega)
      rw [continued_new (nextNew.trans readNew), length, pos] at rest
      have tag : ¬ itemTag read.current.item = .field := notField
      rw [continued_new new, mainsLoop_item here, if_neg tag]
      exact rest
    · -- A repetition is a field.
      rw [currentItem, if_neg new, Except.ok.injEq, Option.some.injEq] at item
      subst item
      exact absurd (safe.counting new) (parseItem_continues safe parsed).1
  | @found parser read next pData ret fields more item parsed later ih =>
    by_cases new : parser.count = 0
    · rw [currentItem, if_pos new] at item
      obtain ⟨turns, rfl⟩ : ∃ other, turns = other + 1 := ⟨turns - 1, by omega⟩
      have here := itemAt_of_read item
      have further : parser.pos < read.pos := itemAt_further here
      obtain ⟨readSafe, same, readNew, keeps⟩ := readItem_safe safe new more item
      have readFollows := keeps env follows
      obtain ⟨field, isField, continues, pos, _, counted⟩ := parseItem_found readSafe parsed
      obtain ⟨_, _, _, _, nextFollows⟩ := fieldItem_found readSafe readFollows field
      have length : next.reportDesc = parser.reportDesc := continues.reportDesc.trans same
      obtain ⟨count, block, rest, split_, repeats, whole, blocks⟩ := continued_found readSafe readFollows parsed
        (@ih _ turns continues.safe nextFollows (by rw [length]; omega))
      rw [if_pos readNew] at counted
      rw [pending_first readFollows continues.reportDesc pos counted] at whole
      rw [same] at whole blocks
      have tag : itemTag read.current.item = .field := isField
      have behind : read.current.next = read.pos := if_neg (by rw [tag]; decide)
      have after : env.after read.current = { env with usages := [] } := by simp [HidEnv.after, tag]
      rw [continued_new new, mainsLoop_item here, if_pos tag, behind, after, split_]
      exact .cons repeats whole blocks
    · rw [currentItem, if_neg new, Except.ok.injEq, Option.some.injEq] at item
      subst item
      obtain ⟨field, _, continues, pos, _, counted⟩ := parseItem_found safe parsed
      obtain ⟨_, _, _, _, nextFollows⟩ := fieldItem_found safe follows field
      obtain ⟨count, block, rest, split_, repeats, whole, blocks⟩ := continued_found safe follows parsed
        (@ih _ turns continues.safe nextFollows (by rw [continues.reportDesc, pos]; exact enough))
      rw [if_neg new] at counted
      rw [pending_repeated more continues.reportDesc pos new counted] at whole
      have settled : parser.settled env = { env with usages := [] } := if_neg new
      exact ⟨count, block, rest, split_, repeats, whole, by rwa [settled]⟩

end Run

section Places

variable {reportDesc : List UInt8} {env : HidEnv} {turns pos : Nat}

theorem mainsLoop_stop : ∀ main ∈ mainsLoop turns reportDesc pos env, pos < main.stop ∧ main.stop ≤ reportDesc.length := by
  induction turns generalizing pos env with
  | zero => simp [mainsLoop]
  | succ turns ih =>
    cases here : itemAt reportDesc pos with
    | none => simp [mainsLoop, here]
    | some item =>
      have between := itemAt_between here
      have behind := next_stop item
      rw [mainsLoop_item here]
      intro main member
      obtain own | later := List.mem_append.mp member
      · split at own
        · rw [List.mem_singleton.mp own]
          exact between
        · cases own
      · have := ih main later
        omega

theorem mainsLoop_ordered :
    (mainsLoop turns reportDesc pos env).Pairwise fun first second => first.stop < second.stop := by
  induction turns generalizing pos env with
  | zero => simp [mainsLoop]
  | succ turns ih =>
    cases here : itemAt reportDesc pos with
    | none => simp [mainsLoop, here]
    | some item =>
      have behind := next_stop item
      rw [mainsLoop_item here]
      split
      · rw [List.singleton_append, List.pairwise_cons]
        refine ⟨fun main member => ?_, ih⟩
        have later := (mainsLoop_stop main member).1
        change item.stop < main.stop
        omega
      · exact ih

variable {length : Nat} {items : List MainItem} {fields : List (Nat × HIDData)}

theorem blocks_stop {complete : Bool} (blocks : Blocks length complete items fields) : ∀ field ∈ fields, ∃ main ∈ items, main.stop = field.1 := by
  induction blocks with
  | nil => simp
  | stopped => simp
  | @cons main items count block rest repeats whole later ih =>
    intro field member
    obtain own | other := List.mem_append.mp member
    · obtain ⟨data, _, rfl⟩ := List.mem_map.mp own
      exact ⟨main, List.mem_cons_self, rfl⟩
    · obtain ⟨there, inside, same⟩ := ih field other
      exact ⟨there, List.mem_cons_of_mem main inside, same⟩

theorem blocks_split (blocks : Blocks length true items fields)
    (ordered : items.Pairwise fun first second => first.stop < second.stop) {main : MainItem} (member : main ∈ items) :
    ∃ before block after, fields = before ++ block.map (Prod.mk main.stop) ++ after ∧
      Repeats (repetitions length main) main block ∧
      (∀ field ∈ before, field.1 ≠ main.stop) ∧ ∀ field ∈ after, field.1 ≠ main.stop := by
  induction blocks with
  | nil => cases member
  | stopped early => cases early
  | @cons first items count block rest repeats whole later ih =>
    rw [List.pairwise_cons] at ordered
    obtain rfl | inside := List.mem_cons.mp member
    · rw [whole.resolve_right fun ⟨early, _⟩ => by cases early] at repeats
      refine ⟨[], block, rest, rfl, repeats, by simp, fun field there => ?_⟩
      obtain ⟨other, among, same⟩ := blocks_stop later field there
      have := ordered.1 other among
      omega
    · obtain ⟨before, own, after, rfl, ownRepeats, front, back⟩ := ih ordered.2 inside
      refine ⟨block.map (Prod.mk first.stop) ++ before, own, after, by simp, ownRepeats, fun field there => ?_, back⟩
      obtain left | right := List.mem_append.mp there
      · obtain ⟨data, _, rfl⟩ := List.mem_map.mp left
        have := ordered.1 main inside
        simp only
        omega
      · exact front field right

theorem itemFields_split {main : MainItem} {before after : List (Nat × HIDData)} {block : List HIDData}
    (front : ∀ field ∈ before, field.1 ≠ main.stop) (back : ∀ field ∈ after, field.1 ≠ main.stop) :
    itemFields (before ++ block.map (Prod.mk main.stop) ++ after) main = block := by
  have none_ {others : List (Nat × HIDData)} (apart : ∀ field ∈ others, field.1 ≠ main.stop) :
      (others.filter fun field => field.1 = main.stop) = [] := by
    rw [List.filter_eq_nil_iff]
    intro field member same
    exact apart field member (by simpa using same)
  unfold itemFields
  rw [List.filter_append, List.filter_append, none_ front, none_ back, List.filter_map]
  simp [Function.comp_def]

theorem repeats_usages {count : Nat} {main : MainItem} {block : List HIDData} (repeats : Repeats count main block) :
    (block.map HIDData.usage).take (min count main.usages.length) =
      (main.usages.map some).take (min count main.usages.length) := by
  have length := repeats.count
  apply List.ext_getElem?
  intro j
  by_cases small : j < min count main.usages.length
  · have inBlock : j < block.length := by omega
    have inUsages : j < main.usages.length := by omega
    have own := repeats.usages j block[j] (List.getElem?_eq_getElem inBlock)
    rw [List.getElem?_take_of_lt small, List.getElem?_take_of_lt small, List.getElem?_map, List.getElem?_map,
      List.getElem?_eq_getElem inBlock, List.getElem?_eq_getElem inUsages, Option.map_some, Option.map_some, own]
    simp [inUsages]
  · rw [List.getElem?_eq_none (by simp; omega), List.getElem?_eq_none (by simp; omega)]

theorem repetitions_pos (length : Nat) (main : MainItem) : 0 < repetitions length main := by
  unfold repetitions
  split
  next => split <;> omega
  next => omega

theorem repetitions_eq_iff (length : Nat) (main : MainItem) : repetitions length main = main.count ↔
    if main.stop < length then 1 ≤ main.count ∧ main.count ≤ 256 else main.count = 1 := by
  unfold repetitions
  split
  next => split <;> omega
  next => omega

theorem honoured_iff (blocks : Blocks length true items fields)
    (ordered : items.Pairwise fun first second => first.stop < second.stop) {main : MainItem} (member : main ∈ items) :
    Honoured fields main ↔ Countable length main := by
  obtain ⟨before, block, after, rfl, repeats, front, back⟩ := blocks_split blocks ordered member
  have own := @itemFields_split main before after block front back
  unfold Countable
  rw [<- repetitions_eq_iff]
  constructor
  · rintro ⟨_, count, sizes, _⟩
    rw [own] at count sizes
    refine ⟨?_, by rw [<- count, repeats.count]⟩
    -- There is a field to look at.
    have some_ : 0 < block.length := by
      rw [repeats.count]
      exact repetitions_pos length main
    have first := sizes block[0] (List.getElem_mem some_)
    have byte := repeats.sizes block[0] (List.getElem_mem some_)
    omega
  · rintro ⟨size, count⟩
    have all := repeats_usages repeats
    refine ⟨⟨before, after, by rw [own]⟩, by rw [own, repeats.count, count], fun field inside => ?_, ?_⟩
    · rw [own] at inside
      rw [repeats.sizes field inside, Nat.mod_eq_of_lt size]
    · rw [own]
      rw [count] at all
      exact all

end Places

section Claims

variable {reportDesc : List UInt8} {fields : List (Nat × HIDData)}

theorem walked_blocks {complete : Bool} (run : Walked complete (.start reportDesc) fields) :
    Blocks reportDesc.length complete (mains reportDesc) fields := by
  have continued := walked_continued run (safe_start reportDesc) (follows_start reportDesc)
    (Nat.lt_succ_self reportDesc.length)
  exact (continued_new rfl).mp continued

theorem counts_honoured (run : Processed (.start reportDesc) fields) {main : MainItem} (member : main ∈ mains reportDesc) :
    Honoured fields main ↔ Countable reportDesc.length main :=
  honoured_iff (walked_blocks (run.walked true)) mainsLoop_ordered member

def countedDescriptor : List UInt8 :=
  [0x05, 0x84, 0x09, 0x04, 0xa1, 0x01, 0x75, 0x08, 0x95, 0x02, 0x09, 0x40, 0x09, 0x41, 0xb1, 0x02, 0xc0]

theorem counts_honoured_sample :
    ∃ fields, Processed (.start countedDescriptor) fields ∧ ∀ main ∈ mains countedDescriptor, Honoured fields main := by
  have done : (processLoop 20 (.start countedDescriptor)).isSome = true := by decide +kernel
  obtain ⟨fields, loop⟩ := Option.isSome_iff_exists.mp done
  have run := processed_of_loop loop
  have only : mains countedDescriptor = [{ stop := 16, count := 2, size := 8, reportID := 0, type := 0xb0, usages := [0x00840040, 0x00840041] }] := by
    decide +kernel
  refine ⟨fields, run, fun main member => (counts_honoured run member).mpr ?_⟩
  rw [only, List.mem_singleton] at member
  rw [member]
  exact ⟨by decide, by decide⟩

def zeroCountDescriptor : List UInt8 :=
  [0x05, 0x84, 0x09, 0x04, 0xa1, 0x01, 0x75, 0x08, 0x95, 0x00, 0x09, 0x40, 0xb1, 0x02, 0xc0]

def lastItemDescriptor : List UInt8 :=
  [0x05, 0x84, 0x09, 0x04, 0xa1, 0x01, 0x75, 0x08, 0x95, 0x02, 0x09, 0x40, 0x09, 0x41, 0xb1, 0x02]

theorem not_honoured {main : MainItem} {turns found : Nat} (only : mains reportDesc = [main])
    (loop : (processLoop turns (.start reportDesc)).map List.length = some found)
    (apart : ¬ Countable reportDesc.length main) :
    ∃ fields, Processed (.start reportDesc) fields ∧ fields.length = found ∧
      ∃ main ∈ mains reportDesc, ¬ Honoured fields main := by
  obtain ⟨fields, some_, length⟩ := Option.map_eq_some_iff.mp loop
  have run := processed_of_loop some_
  have member : main ∈ mains reportDesc := by rw [only]; exact List.mem_singleton_self main
  refine ⟨fields, run, length, main, member, fun honoured => apart ?_⟩
  exact (honoured_iff (walked_blocks (run.walked true)) mainsLoop_ordered member).mp honoured

theorem counts_not_honoured : (∃ fields, Processed (.start zeroCountDescriptor) fields ∧ fields.length = 256 ∧
      ∃ main ∈ mains zeroCountDescriptor, ¬ Honoured fields main) ∧
    ∃ fields, Processed (.start lastItemDescriptor) fields ∧ fields.length = 1 ∧
      ∃ main ∈ mains lastItemDescriptor, ¬ Honoured fields main :=
  ⟨@not_honoured _ { stop := 14, count := 0, size := 8, reportID := 0, type := 0xb0, usages := [0x00840040] } 300 256 (by decide +kernel)
      (by decide +kernel) (by unfold Countable; decide),
    @not_honoured _ { stop := 16, count := 2, size := 8, reportID := 0, type := 0xb0, usages := [0x00840040, 0x00840041] } 20 1 (by decide +kernel)
      (by decide +kernel) (by unfold Countable; decide)⟩

end Claims

end Nut
