import Nut.Drivers.Hidparser

set_option autoImplicit false

namespace Nut

-- What keeps the walk over a descriptor inside its arrays.
structure HIDParser.Safe (parser : HIDParser) : Prop where
  usages : 0 < parser.usageTab.length
  stacked : parser.usageSize ≤ parser.usageTab.length
  nodes : parser.data.path.node.length = pathSize
  path : parser.data.path.size ≤ pathSize
  counting : parser.count ≠ 0 -> itemTag parser.item = .field

theorem safe_start (reportDesc : List UInt8) : (HIDParser.start reportDesc).Safe where
  usages := by simp only [HIDParser.start, usageTabSize, List.length_replicate]; omega
  stacked := Nat.zero_le _
  nodes := rfl
  path := Nat.zero_le _
  counting := by simp [HIDParser.start]

-- What a turn leaves to do: bytes, and repetitions of the field.
def HIDParser.budget (parser : HIDParser) : Nat :=
  256 * (parser.reportDesc.length - parser.pos) + parser.count.toNat

section Items

variable {parser : HIDParser}

theorem readValueLoop_ok {reportDesc : List UInt8} {pos count i : Nat} {value : UInt32}
    (inside : pos + i + count ≤ reportDesc.length) : ∃ read, readValueLoop reportDesc pos count i value = .ok read := by
  induction count generalizing i value with
  | zero => exact ⟨value, rfl⟩
  | succ count ih =>
    have here : pos + i < reportDesc.length := by omega
    obtain ⟨read, loop⟩ := @ih (i + 1) (value + (reportDesc[pos + i].toUInt32 <<< UInt32.ofNat (8 * i))) (by omega)
    refine ⟨read, ?_⟩
    rw [readValueLoop, readAt_inside here]
    exact loop

theorem readItem_ok (inside : parser.pos < parser.reportDesc.length) : readItem parser = .ok none ∨
      ∃ item value pos, readItem parser = .ok (some { parser with item, value, pos }) ∧ parser.pos < pos ∧
        pos ≤ parser.reportDesc.length := by
  unfold readItem
  rw [readAt_inside inside]
  generalize parser.reportDesc[parser.pos] = item
  by_cases truncated : itemSize item > parser.reportDesc.length - (parser.pos + 1)
  · exact Or.inl (by simp [truncated, bind, Except.bind, pure, Except.pure])
  · obtain ⟨value, loop⟩ := @readValueLoop_ok parser.reportDesc (parser.pos + 1) (itemSize item) 0 0 (by omega)
    refine Or.inr ⟨item, value, parser.pos + 1 + itemSize item, ?_, by omega, by omega⟩
    simp [truncated, bind, Except.bind, pure, Except.pure, loop]

theorem unstackLoop_ok {count j : Nat} {usageTab : List UInt32} (inside : j + count ≤ usageTab.length) :
    ∃ usages, unstackLoop count j usageTab = .ok usages ∧ usages.length = usageTab.length := by
  induction count generalizing j usageTab with
  | zero => exact ⟨usageTab, rfl, rfl⟩
  | succ count ih =>
    have here : j < usageTab.length := by omega
    have next : ∃ usage, usageBehind usageTab j = .ok usage := by
      unfold usageBehind
      split
      next later => exact ⟨_, readAt_inside later⟩
      next => exact ⟨0, rfl⟩
    obtain ⟨usage, read⟩ := next
    obtain ⟨usages, loop, length⟩ := @ih (j + 1) (usageTab.set j usage) (by rw [List.length_set]; omega)
    refine ⟨usages, ?_, by rw [length, List.length_set]⟩
    simp only [unstackLoop, read, writeAt_inside here, bind, Except.bind]
    exact loop

theorem unstackUsage_ok (safe : parser.Safe) :
    ∃ usageTab usageSize, unstackUsage parser = .ok { parser with usageTab, usageSize } ∧
      usageTab.length = parser.usageTab.length ∧ usageSize ≤ parser.usageTab.length := by
  unfold unstackUsage
  have stacked := safe.stacked
  by_cases some_ : parser.usageSize > 0
  · obtain ⟨usageTab, loop, length⟩ := @unstackLoop_ok parser.usageSize 0 parser.usageTab (by omega)
    refine ⟨usageTab, parser.usageSize - 1, ?_, length, by omega⟩
    simp [some_, loop, bind, Except.bind, pure, Except.pure]
  · exact ⟨parser.usageTab, parser.usageSize, by simp [some_, pure, Except.pure], rfl, stacked⟩

theorem pushNode_ok (safe : parser.Safe) (node : UInt32) : pushNode parser node = .ok none ∨
      ∃ path : HIDPath, pushNode parser node = .ok (some { parser with data := { parser.data with path } }) ∧
        path.node.length = pathSize ∧ 0 < path.size ∧ path.size ≤ pathSize := by
  unfold pushNode
  have nodes := safe.nodes
  by_cases long : parser.data.path.size ≥ pathSize
  · exact Or.inl (by simp [long, pure, Except.pure])
  · have room : parser.data.path.size < parser.data.path.node.length := by omega
    refine Or.inr ⟨{ size := parser.data.path.size + 1, node := parser.data.path.node.set parser.data.path.size node },
      ?_, by simp [nodes], Nat.succ_pos _, by simp only; omega⟩
    simp [long, writeAt_inside room, bind, Except.bind, pure, Except.pure]

structure Continues (parser next : HIDParser) : Prop where
  safe : next.Safe
  reportDesc : next.reportDesc = parser.reportDesc
  pos : parser.pos ≤ next.pos

theorem safe_resetLocalState (safe : parser.Safe) : (resetLocalState parser).Safe where
  usages := by simpa [resetLocalState] using safe.usages
  stacked := Nat.zero_le _
  nodes := safe.nodes
  path := safe.path
  counting := safe.counting

theorem safe_setPathSize (safe : parser.Safe) {size : Nat} (short : size ≤ pathSize) : (setPathSize parser size).Safe :=
  { safe with path := short, nodes := safe.nodes }

theorem safe_pushed (safe : parser.Safe) {path : HIDPath} (nodes : path.node.length = pathSize)
    (short : path.size ≤ pathSize) : HIDParser.Safe { parser with data := { parser.data with path } } :=
  { safe with nodes := nodes, path := short }

theorem safe_unstacked (safe : parser.Safe) {usageTab : List UInt32} {usageSize : Nat}
    (length : usageTab.length = parser.usageTab.length) (few : usageSize ≤ parser.usageTab.length) :
    HIDParser.Safe { parser with usageTab, usageSize } :=
  { safe with usages := by rw [length]; exact safe.usages, stacked := by rw [length]; exact few }

theorem usageItem_ok (safe : parser.Safe) :
    usageItem parser = .ok .over ∨ ∃ next, usageItem parser = .ok (.next next) ∧ Continues parser next := by
  unfold usageItem
  by_cases full : parser.usageSize ≥ parser.usageTab.length
  · exact Or.inl (by simp [full, pure, Except.pure])
  · have room : parser.usageSize < parser.usageTab.length := by omega
    refine Or.inr ⟨_, by simp only [full, if_false, writeAt_inside room, bind, Except.bind, pure, Except.pure]; rfl, ?_⟩
    exact ⟨safe_unstacked safe (by rw [List.length_set]) (by omega), rfl, Nat.le_refl _⟩

theorem collectionItem_ok (safe : parser.Safe) :
    collectionItem parser = .ok .over ∨ ∃ next, collectionItem parser = .ok (.next next) ∧ Continues parser next := by
  have usages := safe.usages
  unfold collectionItem
  rw [readAt_inside usages]
  simp only [bind, Except.bind]
  obtain none_ | ⟨path, pushed, nodes, _, short⟩ := pushNode_ok safe parser.usageTab[0]
  · simp [none_, pure, Except.pure]
  · have inside := safe_pushed safe nodes short
    obtain ⟨usageTab, usageSize, unstacked, length, few⟩ := unstackUsage_ok inside
    have after := safe_unstacked inside length few
    simp only [pushed, unstacked]
    split
    next =>
      obtain none_ | ⟨path', pushed', nodes', _, short'⟩ := pushNode_ok after (0x00ff0000 ||| (parser.value &&& 0x7f))
      · simp [none_, pure, Except.pure]
      · simp only [pushed', pure, Except.pure]
        exact Or.inr ⟨_, rfl, safe_resetLocalState (safe_pushed after nodes' short'), rfl, Nat.le_refl _⟩
    next => exact Or.inr ⟨_, rfl, safe_resetLocalState after, rfl, Nat.le_refl _⟩

theorem endCollectionItem_ok (safe : parser.Safe) : endCollectionItem parser = .ok .over ∨
      ∃ next, endCollectionItem parser = .ok (.next next) ∧ Continues parser next := by
  have path := safe.path
  have nodes := safe.nodes
  have popped {size : Nat} (short : size ≤ pathSize) : Continues parser (resetLocalState (setPathSize parser size)) :=
    ⟨safe_resetLocalState (safe_setPathSize safe short), rfl, Nat.le_refl _⟩
  unfold endCollectionItem
  by_cases empty : parser.data.path.size = 0
  · exact Or.inl (by simp [empty, pure, Except.pure])
  · simp only [empty, if_false]
    split
    next =>
      rw [readAt_inside (by omega)]
      simp only [bind, Except.bind]
      split <;> exact Or.inr ⟨_, rfl, popped (by omega)⟩
    next => exact Or.inr ⟨_, rfl, popped (by omega)⟩

theorem endOfField_eq (parser : HIDParser) :
    ∃ usageTab usageSize, endOfField parser = { parser with usageTab, usageSize } ∧
      usageTab.length = parser.usageTab.length ∧ usageSize ≤ parser.usageSize := by
  unfold endOfField
  split
  · exact ⟨_, 0, rfl, List.length_replicate, Nat.zero_le _⟩
  · exact ⟨_, _, rfl, rfl, Nat.le_refl _⟩

theorem fieldItem_ok (safe : parser.Safe) (isField : itemTag parser.item = .field) : fieldItem parser = .ok .over ∨
      ∃ next pData ret, fieldItem parser = .ok (.found next pData ret) ∧ Continues parser next ∧
        next.pos = parser.pos ∧ next.item = parser.item ∧ ret ≤ 1 ∧
        next.count = (if parser.count = 0 then parser.reportCount else parser.count) - 1 := by
  have usages := safe.usages
  unfold fieldItem
  rw [readAt_inside usages]
  simp only [bind, Except.bind]
  generalize counted : (if parser.count = 0 then { parser with count := parser.reportCount } else parser) = started
  have startedSafe : started.Safe := by
    rw [<- counted]
    split
    · exact { safe with counting := fun _ => isField }
    · exact safe
  have same : started = { parser with count := if parser.count = 0 then parser.reportCount else parser.count } := by
    rw [<- counted]
    split <;> simp_all
  obtain none_ | ⟨path, pushed, nodes, _, short⟩ := pushNode_ok startedSafe parser.usageTab[0]
  · simp [none_, pure, Except.pure]
  · have inside := safe_pushed startedSafe nodes short
    obtain ⟨usageTab, usageSize, unstacked, length, few⟩ := unstackUsage_ok inside
    have left : path.size - 1 ≤ pathSize := by omega
    simp only [pushed, unstacked, pure, Except.pure]
    generalize moved : setPathSize _ _ = last
    obtain ⟨usageTab', usageSize', ended, length', few'⟩ := endOfField_eq last
    subst moved
    rw [ended]
    subst same
    simp only [setPathSize] at length few length' few'
    have usageRet : (if parser.usageTab[0] ≠ 0 then 1 else 0) ≤ 1 := by split <;> omega
    exact Or.inr ⟨_, _, _, rfl, ⟨⟨by simp only; omega, by simp only; omega, nodes, left, fun _ => isField⟩, rfl,
      Nat.le_refl _⟩, rfl, rfl, usageRet, rfl⟩

theorem parseItem_ok (safe : parser.Safe) : parseItem parser = .ok .over ∨
      (itemTag parser.item ≠ .field ∧ ∃ next, parseItem parser = .ok (.next next) ∧ Continues parser next) ∨
      (itemTag parser.item = .field ∧ parseItem parser = fieldItem parser) := by
  have same (next : HIDParser) (usageTab : next.usageTab = parser.usageTab) (usageSize : next.usageSize = parser.usageSize)
      (path : next.data.path = parser.data.path) (count : next.count = parser.count) (item : next.item = parser.item)
      (reportDesc : next.reportDesc = parser.reportDesc) (pos : parser.pos ≤ next.pos) : Continues parser next :=
    ⟨⟨by rw [usageTab]; exact safe.usages, by rw [usageTab, usageSize]; exact safe.stacked,
      by rw [path]; exact safe.nodes, by rw [path]; exact safe.path, by rw [count, item]; exact safe.counting⟩,
      reportDesc, pos⟩
  have global (tag : ItemTag) (value : UInt32) (size : Nat) :
      (globalItem value size parser.data tag).path = parser.data.path := by
    cases tag <;> simp only [globalItem]
    split <;> rfl
  unfold parseItem
  cases tag : itemTag parser.item
  case field => exact Or.inr (Or.inr ⟨rfl, rfl⟩)
  case usage => exact (usageItem_ok safe).imp_right fun next => Or.inl ⟨by simp, next⟩
  case collection => exact (collectionItem_ok safe).imp_right fun next => Or.inl ⟨by simp, next⟩
  case endCollection => exact (endCollectionItem_ok safe).imp_right fun next => Or.inl ⟨by simp, next⟩
  all_goals
    refine Or.inr (Or.inl ⟨by simp, _, rfl, same _ rfl rfl ?_ rfl rfl rfl ?_⟩)
    · first | rfl | exact global _ _ _
    · simp

theorem parseItem_continues (safe : parser.Safe) {next : HIDParser} (parsed : parseItem parser = .ok (.next next)) :
    itemTag parser.item ≠ .field ∧ Continues parser next := by
  obtain past | ⟨notField, other, found, continues⟩ | ⟨isField, field⟩ := parseItem_ok safe
  · cases parsed.symm.trans past
  · cases parsed.symm.trans found
    exact ⟨notField, continues⟩
  · obtain past | ⟨_, _, _, found, _⟩ := fieldItem_ok safe isField
    · cases (parsed.symm.trans field).trans past
    · cases (parsed.symm.trans field).trans found

theorem parseItem_found (safe : parser.Safe) {next : HIDParser} {pData : HIDData} {ret : Nat}
    (parsed : parseItem parser = .ok (.found next pData ret)) :
    fieldItem parser = .ok (.found next pData ret) ∧ itemTag parser.item = .field ∧ Continues parser next ∧
      next.pos = parser.pos ∧ next.item = parser.item ∧
      next.count = (if parser.count = 0 then parser.reportCount else parser.count) - 1 := by
  obtain past | ⟨_, _, found, _⟩ | ⟨isField, field⟩ := parseItem_ok safe
  · cases parsed.symm.trans past
  · cases parsed.symm.trans found
  · rw [field] at parsed
    obtain past | ⟨_, _, _, found, continues, pos, item, _, count⟩ := fieldItem_ok safe isField
    · cases parsed.symm.trans past
    · cases parsed.symm.trans found
      exact ⟨parsed, isField, continues, pos, item, count⟩

theorem currentItem_ok (safe : parser.Safe) (more : parser.pos < parser.reportDesc.length) :
    currentItem parser = .ok none ∨ ∃ read, currentItem parser = .ok (some read) ∧ read.Safe ∧
      read.reportDesc = parser.reportDesc ∧ read.pos ≤ parser.reportDesc.length := by
  unfold currentItem
  split
  next new =>
    obtain truncated | ⟨item, value, pos, read, _, inside⟩ := readItem_ok more
    · exact Or.inl truncated
    · exact Or.inr ⟨_, read, { safe with counting := fun counting => absurd new counting }, rfl, inside⟩
  next => exact Or.inr ⟨parser, rfl, safe, rfl, Nat.le_of_lt more⟩

end Items

theorem nextField_ok {turns : Nat} {parser : HIDParser} (safe : parser.Safe)
    (enough : parser.reportDesc.length - parser.pos < turns) :
    nextField turns parser = .ok none ∨
      ∃ next pData ret, nextField turns parser = .ok (some (next, pData, ret)) ∧ next.Safe ∧
        next.reportDesc = parser.reportDesc ∧ next.budget < parser.budget ∧ ret ≤ 1 := by
  induction turns generalizing parser with
  | zero => omega
  | succ turns ih =>
    unfold nextField
    by_cases more : parser.pos < parser.reportDesc.length
    · simp only [more, if_true]
      by_cases new : parser.count = 0
      · -- A new item takes at least one byte.
        simp only [currentItem, new, if_true]
        obtain truncated | ⟨item, value, pos, read, further, inside⟩ := readItem_ok more
        · simp [truncated, bind, Except.bind, pure, Except.pure]
        · have readSafe : HIDParser.Safe { parser with item, value, pos } :=
            { safe with counting := fun counting => absurd new counting }
          simp only [read, bind, Except.bind]
          obtain past | ⟨_, next, parsed, continues⟩ | ⟨isField, parsed⟩ := parseItem_ok readSafe
          · simp [past, pure, Except.pure]
          · simp only [parsed]
            have length := continues.reportDesc
            have position := continues.pos
            simp only at length position
            obtain none_ | ⟨last, pData, ret, found, lastSafe, same, less, few⟩ :=
              ih continues.safe (by rw [length]; omega)
            · exact Or.inl none_
            · have repetitions := next.count.toNat_lt
              refine Or.inr ⟨last, pData, ret, found, lastSafe, same.trans length, Nat.lt_trans less ?_, few⟩
              simp only [HIDParser.budget, length]
              omega
          · simp only [parsed]
            obtain past | ⟨next, pData, ret, found, continues, position, _, few, _⟩ := fieldItem_ok readSafe isField
            · simp [past, pure, Except.pure]
            · have repetitions := next.count.toNat_lt
              have length := continues.reportDesc
              simp only at length position
              simp only [found, pure, Except.pure]
              refine Or.inr ⟨_, _, _, rfl, continues.safe, length, ?_, few⟩
              simp only [HIDParser.budget, length, position]
              omega
      · simp only [currentItem, new, if_false, bind, Except.bind]
        have isField := safe.counting new
        obtain past | ⟨notField, _⟩ | ⟨_, parsed⟩ := parseItem_ok safe
        · simp [past, pure, Except.pure]
        · exact absurd isField notField
        · simp only [parsed]
          obtain past | ⟨next, pData, ret, found, continues, position, _, few, count⟩ := fieldItem_ok safe isField
          · simp [past, pure, Except.pure]
          · simp only [found, pure, Except.pure]
            have length := continues.reportDesc
            have one : 1 ≤ parser.count := by
              rw [UInt8.le_iff_toNat_le]
              have := fun zero => new (UInt8.toNat_inj.mp zero)
              simp at this ⊢
              omega
            have fewer := UInt8.toNat_sub_of_le _ _ one
            rw [if_neg new] at count
            refine Or.inr ⟨_, _, _, rfl, continues.safe, length, ?_, few⟩
            simp only [HIDParser.budget, length, position, count, fewer]
            have := UInt8.le_iff_toNat_le.mp one
            simp at this ⊢
            omega
    · simp [more, pure, Except.pure]

end Nut
