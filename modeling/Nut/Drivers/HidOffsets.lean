import Mathlib.Tactic.Ring
import Nut.Drivers.HidCounts
import Nut.Drivers.HidLayout

set_option autoImplicit false

namespace Nut

-- The bits that the items before `main` announce for its report.
def bitsBefore (items : List MainItem) (main : MainItem) : Nat :=
  ((items.filter fun other => other.stop < main.stop ∧ other.reportID = main.reportID ∧ other.type = main.type).map
    fun other => other.count * other.size).sum

-- The field is a repetition of the item as the descriptor has it, behind all the bits that are announced before it.
structure AsDeclared (items : List MainItem) (main : MainItem) (repetition : Nat) (field : HIDData) : Prop where
  reportID : field.reportID.toNat = main.reportID
  type : field.type = main.type
  size : field.size.toNat = main.size
  declared : repetition < main.count
  offset : field.offset.toNat = bitsBefore items main + repetition * main.size

structure LaidOut (items : List MainItem) (fields : List (Nat × HIDData)) (result : Checked HIDDesc) : Prop where
  sums : ∀ before stop field after, fields = before ++ (stop, field) :: after ->
    ∃ main ∈ items, main.stop = stop ∧ AsDeclared items main (itemFields before main).length field
  apart : ∀ before field between other after, fields = before ++ field :: between ++ other :: after ->
    other.2.report = field.2.report -> field.2.offset.toNat + field.2.size.toNat ≤ other.2.offset.toNat
  covered : ∀ desc, result = .ok desc -> ∀ field ∈ fields, desc.Covers field.2

-- What the bytes of a field can say of the repetition: an ID of 0 has no row that keeps its offset.
structure Placeable (items : List MainItem) (main : MainItem) (repetition : Nat) : Prop where
  reportID : main.reportID < 256
  size : main.size < 256
  count : 1 ≤ main.count
  offset : bitsBefore items main + repetition * main.size < 256
  numbered : main.reportID = 0 -> bitsBefore items main + repetition * main.size = 0

def assignedAt (reportDesc : List UInt8) : List (Nat × HIDData) :=
  (declaredLoop (parseTurns reportDesc) (.start reportDesc) 0).take (assignedFields reportDesc).length

def storedAt (reportDesc : List UInt8) : List (Nat × HIDData) :=
  ((assignedAt reportDesc).map Prod.fst).zip (parseFields reportDesc).1

def MainItem.report (main : MainItem) : UInt8 × UInt8 :=
  (UInt8.ofNat main.reportID, main.type)

section Bits

variable {length : Nat} {report : UInt8 × UInt8}

def foundBits (length : Nat) (items : List MainItem) (report : UInt8 × UInt8) : Nat :=
  ((items.filter fun main => main.report = report).map fun main => repetitions length main * (main.size % 256)).sum

theorem bitsOf_add (first second : List HIDData) :
    bitsOf (first ++ second) report = bitsOf first report + bitsOf second report := by
  simp [bitsOf, List.filter_append]

theorem repeats_report {count : Nat} {main : MainItem} {block : List HIDData} (repeats : Repeats count main block) :
    ∀ field ∈ block, field.report = main.report := by
  intro field member
  obtain ⟨id, type⟩ := repeats.reports field member
  refine Prod.ext (UInt8.toNat_inj.mp ?_) type
  rw [HIDData.report, MainItem.report, id, UInt8.toNat_ofNat']

theorem bitsOf_same {size : Nat} {block : List HIDData} (sizes : ∀ field ∈ block, field.size.toNat = size)
    {own : UInt8 × UInt8} (reports : ∀ field ∈ block, field.report = own) :
    bitsOf block report = if own = report then block.length * size else 0 := by
  induction block with
  | nil => simp [bitsOf]
  | cons field block ih =>
    rw [List.forall_mem_cons] at sizes reports
    have rest := ih sizes.2 reports.2
    have first : bitsOf [field] report = if own = report then size else 0 := by
      by_cases same : own = report <;> simp [bitsOf, reports.1, sizes.1, same]
    rw [<- List.singleton_append, bitsOf_add, first, rest]
    split
    next =>
      rw [List.length_append, List.length_singleton]
      ring
    next => rfl

theorem foundBits_cons (main : MainItem) (items : List MainItem) : foundBits length (main :: items) report =
      (if main.report = report then repetitions length main * (main.size % 256) else 0) + foundBits length items report := by
  unfold foundBits
  by_cases same : main.report = report <;> simp [same]

theorem repetitions_bits {main : MainItem} (inside : main.stop < length) (some_ : 1 ≤ main.count) (small : main.size < 256) :
    ∃ turns, main.count * main.size = repetitions length main * (main.size % 256) + 256 * turns := by
  obtain ⟨times, counted⟩ : ∃ times, main.count = repetitions length main + 256 * times := by
    unfold repetitions
    rw [if_pos inside]
    split
    · exact ⟨main.count / 256 - 1, by omega⟩
    · exact ⟨main.count / 256, by omega⟩
  refine ⟨times * main.size, ?_⟩
  rw [Nat.mod_eq_of_lt small, counted]
  ring

theorem foundBits_short {items : List MainItem}
    (each : ∀ main ∈ items, main.stop < length ∧ 1 ≤ main.count ∧ main.size < 256) :
    ∃ turns, ((items.filter fun main => main.report = report).map fun main => main.count * main.size).sum =
      foundBits length items report + 256 * turns := by
  induction items with
  | nil => exact ⟨0, rfl⟩
  | cons main items ih =>
    rw [List.forall_mem_cons] at each
    obtain ⟨⟨inside, some_, small⟩, rest⟩ := each
    obtain ⟨turns, own⟩ := repetitions_bits inside some_ small
    obtain ⟨others, sum⟩ := ih rest
    rw [foundBits_cons]
    by_cases same : main.report = report
    · refine ⟨turns + others, ?_⟩
      simp only [same, decide_true, List.filter_cons_of_pos, List.map_cons, List.sum_cons, sum, own, if_true]
      ring
    · refine ⟨others, ?_⟩
      simp [same, sum]

theorem bitsBefore_split {earlier later : List MainItem} {main : MainItem} (small : main.reportID < 256)
    (ordered : (earlier ++ main :: later).Pairwise fun first second => first.stop < second.stop)
    (ids : ∀ other ∈ earlier, other.reportID < 256) : bitsBefore (earlier ++ main :: later) main =
      ((earlier.filter fun other => other.report = main.report).map fun other => other.count * other.size).sum := by
  obtain ⟨_, fromMain, before⟩ := List.pairwise_append.mp ordered
  have behind := (List.pairwise_cons.mp fromMain).1
  have others : (main :: later).filter (fun other => other.stop < main.stop ∧ other.reportID = main.reportID ∧
      other.type = main.type) = [] := by
    rw [List.filter_eq_nil_iff]
    intro other member same
    obtain rfl | inside := List.mem_cons.mp member
    · simp at same
    · have := behind other inside
      simp only [decide_eq_true_eq] at same
      omega
  unfold bitsBefore
  rw [List.filter_append, others, List.append_nil]
  congr 2
  refine List.filter_congr fun other member => ?_
  have first := before other member main List.mem_cons_self
  have id := ids other member
  have same : UInt8.ofNat other.reportID = UInt8.ofNat main.reportID ↔ other.reportID = main.reportID := by
    rw [<- UInt8.toNat_inj, UInt8.toNat_ofNat', UInt8.toNat_ofNat', Nat.mod_eq_of_lt id, Nat.mod_eq_of_lt small]
  simp [MainItem.report, same, first]

end Bits

section Places

variable {length : Nat} {complete : Bool} {items : List MainItem} {fields : List (Nat × HIDData)}

-- Where a field stands: a repetition of `main`, behind all those of the items before.
structure Spot (length : Nat) (earlier : List MainItem) (main : MainItem) (before : List (Nat × HIDData))
    (field : HIDData) : Prop where
  reportID : field.reportID.toNat = main.reportID % 256
  type : field.type = main.type
  size : field.size.toNat = main.size % 256
  few : (itemFields before main).length < repetitions length main
  bits : ∀ report, bitsOf (before.map Prod.snd) report = foundBits length earlier report +
    if main.report = report then (itemFields before main).length * (main.size % 256) else 0
  visited : ∀ other ∈ earlier, ∃ found ∈ before, found.1 = other.stop

theorem itemFields_own (main : MainItem) (block : List HIDData) :
    itemFields (block.map (Prod.mk main.stop)) main = block := by
  simp [itemFields, List.filter_map, Function.comp_def]

theorem itemFields_apart {main : MainItem} {stop : Nat} (apart : stop ≠ main.stop) (block : List HIDData)
    (rest : List (Nat × HIDData)) : itemFields (block.map (Prod.mk stop) ++ rest) main = itemFields rest main := by
  simp [itemFields, List.filter_append, List.filter_map, Function.comp_def, apart]

theorem blocks_spot (blocks : Blocks length complete items fields)
    (ordered : items.Pairwise fun first second => first.stop < second.stop) {before after : List (Nat × HIDData)}
    {stop : Nat} {field : HIDData} (split : fields = before ++ (stop, field) :: after) :
    ∃ earlier main later, items = earlier ++ main :: later ∧ main.stop = stop ∧
      Spot length earlier main before field := by
  induction blocks generalizing before with
  | nil => simp at split
  | stopped => simp at split
  | @cons main items count block rest repeats all later ih =>
    rw [List.pairwise_cons] at ordered
    have place : (∃ middle, before = block.map (Prod.mk main.stop) ++ middle ∧ rest = middle ++ (stop, field) :: after) ∨
        ∃ more, block.map (Prod.mk main.stop) = before ++ (stop, field) :: more := by
      obtain behind | ⟨middle, inBlock, last⟩ := List.append_eq_append_iff.mp split
      · exact Or.inl behind
      · cases middle with
        | nil => exact Or.inl ⟨[], by simpa using inBlock.symm, by simpa using last.symm⟩
        | cons found more =>
          obtain ⟨rfl, _⟩ := List.cons.inj last
          exact Or.inr ⟨more, inBlock⟩
    obtain ⟨middle, inRest, last⟩ | ⟨more, inBlock⟩ := place
    · -- The field is behind this block, which is therefore complete.
      have filled : count = repetitions length main := by
        obtain filled | ⟨_, _, none_⟩ := all
        · exact filled
        · simp [none_] at last
      obtain ⟨earlier, own, behind, rfl, here, spot⟩ := ih ordered.2 last
      have apart : main.stop ≠ own.stop := by
        have := ordered.1 own (by simp)
        omega
      have same : itemFields before own = itemFields middle own := by
        rw [inRest, itemFields_apart apart]
      refine ⟨main :: earlier, own, behind, rfl, here, spot.reportID, spot.type, spot.size, by rw [same]; exact spot.few,
        fun report => ?_, fun other member => ?_⟩
      · have sizes := @bitsOf_same report _ _ repeats.sizes _ (repeats_report repeats)
        rw [inRest, List.map_append, bitsOf_add, spot.bits report, List.map_map, foundBits_cons]
        change bitsOf (block.map id) report + _ = _
        rw [List.map_id, sizes, repeats.count, filled, <- inRest, same]
        omega
      · obtain rfl | inside := List.mem_cons.mp member
        · have some_ : 0 < block.length := by
            rw [repeats.count, filled]
            exact repetitions_pos length other
          exact ⟨(other.stop, block[0]), by simp [inRest], rfl⟩
        · obtain ⟨found, there, stop_⟩ := spot.visited other inside
          exact ⟨found, by simp [inRest, there], stop_⟩
    · obtain ⟨first, others, rfl, front, back⟩ := List.map_eq_append_iff.mp inBlock
      obtain ⟨own, others, rfl, here, _⟩ := List.map_eq_cons_iff.mp back
      obtain ⟨rfl, rfl⟩ := Prod.mk.inj here
      have member : own ∈ first ++ own :: others := by simp
      have found : itemFields before main = first := by rw [<- front, itemFields_own]
      have counted := repeats.count
      rw [List.length_append, List.length_cons] at counted
      have within : count ≤ repetitions length main := by
        obtain filled | ⟨_, few, _⟩ := all
        · omega
        · exact few
      refine ⟨[], main, items, rfl, rfl, (repeats.reports own member).1, (repeats.reports own member).2,
        repeats.sizes own member, by rw [found]; omega, fun report => ?_, by simp⟩
      have sizes := @bitsOf_same report _ first (fun field inside => repeats.sizes field (List.mem_append_left _ inside)) _
        fun field inside => repeats_report repeats field (List.mem_append_left _ inside)
      rw [<- front, List.map_map, itemFields_own]
      change bitsOf (first.map id) report = _
      rw [List.map_id, sizes, foundBits, List.filter_nil, List.map_nil, List.sum_nil, Nat.zero_add]

-- The calls of `HIDParse` are a walk that ends where one of them finds nothing more.
theorem nextField_walked {turns : Nat} {parser next : HIDParser} {pData : HIDData} {ret : Nat}
    (found : nextField turns parser = .ok (some (next, pData, ret))) (later : Walked false next fields) :
    Walked false parser ((next.pos, pData) :: fields) := by
  induction turns generalizing parser with
  | zero => cases found
  | succ turns ih =>
    rw [nextField] at found
    by_cases more : parser.pos < parser.reportDesc.length
    · rw [if_pos more] at found
      cases item : currentItem parser with
      | error => simp [item, bind, Except.bind] at found
      | ok current =>
        obtain _ | read := current
        · simp [item, bind, Except.bind, pure, Except.pure] at found
        · cases parsed : parseItem read with
          | error => simp [item, parsed, bind, Except.bind] at found
          | ok result =>
            simp only [item, parsed, bind, Except.bind, pure, Except.pure] at found
            obtain next_ | _ | ⟨next_, pData_, ret_⟩ := result
            · exact .next more item parsed (ih found)
            · cases found
            · cases found
              exact .found more item parsed later
    · rw [if_neg more] at found
      cases found

theorem declared_walked (turns : Nat) (parser : HIDParser) (nitems : Nat) :
    Walked false parser (declaredLoop turns parser nitems) := by
  induction turns generalizing parser nitems with
  | zero => exact .stopped rfl
  | succ turns ih =>
    rw [declaredLoop]
    split
    · split
      next next pData ret found => exact nextField_walked found (ih next (nitems + ret))
      next => exact .stopped rfl
    · exact .stopped rfl

theorem assigned_spot {reportDesc : List UInt8} {before after : List (Nat × HIDData)} {stop : Nat} {field : HIDData}
    (split : assignedAt reportDesc = before ++ (stop, field) :: after) :
    ∃ earlier main later, mains reportDesc = earlier ++ main :: later ∧ main.stop = stop ∧
      Spot reportDesc.length earlier main before field := by
  have blocks := walked_blocks (declared_walked (parseTurns reportDesc) (.start reportDesc) 0)
  have whole := List.take_append_drop (assignedFields reportDesc).length
    (declaredLoop (parseTurns reportDesc) (.start reportDesc) 0)
  rw [assignedAt] at split
  rw [split, List.append_assoc, List.cons_append] at whole
  exact blocks_spot blocks mainsLoop_ordered whole.symm

end Places

section Layout

variable {reportDesc : List UInt8} {before after : List (Nat × HIDData)} {stop : Nat} {field : HIDData}

def erased : Nat × HIDData -> Nat × HIDData :=
  Prod.map id HIDData.unplaced

theorem servedFields_take (rows : List (UInt8 × UInt8)) (declared : List HIDData) :
    declared.take (servedFields rows declared).length = servedFields rows declared := by
  induction declared generalizing rows with
  | nil => rfl
  | cons field rest ih =>
    rw [servedFields]
    split
    · rw [List.length_cons, List.take_succ_cons, ih]
    · rfl

theorem assignedAt_fields (reportDesc : List UInt8) : (assignedAt reportDesc).map Prod.snd = assignedFields reportDesc := by
  rw [assignedAt, List.map_take]
  exact servedFields_take [] (declaredFields reportDesc)

theorem stored_erased (reportDesc : List UInt8) :
    (storedAt reportDesc).map erased = (assignedAt reportDesc).map erased := by
  have assigned : (parseFields reportDesc).1.map HIDData.unplaced = (assignedFields reportDesc).map HIDData.unplaced :=
    (parseFields_ok reportDesc).assigned
  have pairs := List.zip_unzip (assignedAt reportDesc)
  rw [List.unzip_fst, List.unzip_snd] at pairs
  rw [storedAt, erased, <- List.zip_map_right, assigned, <- assignedAt_fields, List.zip_map_right, pairs]

theorem storedAt_fields (reportDesc : List UInt8) : (storedAt reportDesc).map Prod.snd = (parseFields reportDesc).1 := by
  have assigned : (parseFields reportDesc).1.map HIDData.unplaced = (assignedFields reportDesc).map HIDData.unplaced :=
    (parseFields_ok reportDesc).assigned
  have length := congrArg List.length assigned
  rw [List.length_map, List.length_map, <- assignedAt_fields, List.length_map] at length
  exact List.map_snd_zip (by simp [length])

theorem cut_erased {here there : List (Nat × HIDData)} (same : here.map erased = there.map erased)
    (split : there = before ++ (stop, field) :: after) :
    ∃ before' field' after', here = before' ++ (stop, field') :: after' ∧ before'.map erased = before.map erased ∧
      field'.unplaced = field.unplaced := by
  rw [split, List.map_append, List.map_cons] at same
  obtain ⟨before', rest, rfl, first, second⟩ := List.map_eq_append_iff.mp same
  obtain ⟨⟨stop', field'⟩, after', rfl, third, _⟩ := List.map_eq_cons_iff.mp second
  obtain ⟨rfl, data⟩ := Prod.mk.inj third
  exact ⟨before', field', after', rfl, first, data⟩

theorem bitsOf_unplaced (fields : List HIDData) (report : UInt8 × UInt8) :
    bitsOf (fields.map HIDData.unplaced) report = bitsOf fields report := by
  simp only [bitsOf, List.filter_map, List.map_map]
  rfl

theorem bitsOf_erased {first second : List (Nat × HIDData)} (same : first.map erased = second.map erased)
    (report : UInt8 × UInt8) : bitsOf (first.map Prod.snd) report = bitsOf (second.map Prod.snd) report := by
  have data := congrArg (List.map Prod.snd) same
  rw [List.map_map, List.map_map] at data
  rw [<- bitsOf_unplaced, <- bitsOf_unplaced (second.map Prod.snd), List.map_map, List.map_map]
  exact congrArg (bitsOf · report) data

theorem itemFields_erased {first second : List (Nat × HIDData)} (same : first.map erased = second.map erased)
    (main : MainItem) : (itemFields first main).length = (itemFields second main).length := by
  have counted (fields : List (Nat × HIDData)) :
      (itemFields fields main).length = ((fields.map erased).map Prod.fst).count main.stop := by
    rw [itemFields, List.length_map, List.map_map, List.count, List.countP_map, List.countP_eq_length_filter]
    rfl
  rw [counted, counted, same]

theorem Spot.erase {length : Nat} {earlier : List MainItem} {main : MainItem} {before' : List (Nat × HIDData)}
    {field' : HIDData} (spot : Spot length earlier main before field) (same : before'.map erased = before.map erased)
    (data : field'.unplaced = field.unplaced) : Spot length earlier main before' field' := by
  have parts : field'.reportID = field.reportID ∧ field'.type = field.type ∧ field'.size = field.size := by
    obtain ⟨_, _, _, _, _, _⟩ := field
    obtain ⟨_, _, _, _, _, _⟩ := field'
    simp_all [HIDData.unplaced]
  have index := itemFields_erased same main
  refine ⟨by rw [parts.1, spot.reportID], by rw [parts.2.1, spot.type], by rw [parts.2.2, spot.size],
    by rw [index]; exact spot.few, fun report => by rw [bitsOf_erased same, index, spot.bits], fun other member => ?_⟩
  obtain ⟨found, there, here⟩ := spot.visited other member
  have stops := congrArg (List.map Prod.fst) same
  rw [List.map_map, List.map_map] at stops
  have listed : found.1 ∈ before'.map (Prod.fst ∘ erased) := by
    rw [stops]
    exact List.mem_map.mpr ⟨found, there, rfl⟩
  obtain ⟨found', there', stop_⟩ := List.mem_map.mp listed
  exact ⟨found', there', by rw [<- here, <- stop_]; rfl⟩

theorem Spot.report {length : Nat} {earlier : List MainItem} {main : MainItem}
    (spot : Spot length earlier main before field) : field.report = main.report := by
  refine Prod.ext (UInt8.toNat_inj.mp ?_) spot.type
  rw [HIDData.report, MainItem.report, spot.reportID, UInt8.toNat_ofNat']

theorem stored_spot (split : storedAt reportDesc = before ++ (stop, field) :: after) :
    ∃ earlier main later, mains reportDesc = earlier ++ main :: later ∧ main.stop = stop ∧
      Spot reportDesc.length earlier main before field ∧
      field.offset.toNat = if field.reportID = 0 then 0 else bitsOf (before.map Prod.snd) field.report % 256 := by
  obtain ⟨before', field', after', there, same, data⟩ := cut_erased (stored_erased reportDesc).symm split
  obtain ⟨earlier, main, later, items, here, spot⟩ := assigned_spot there
  have fields : (parseFields reportDesc).1 = before.map Prod.snd ++ field :: after.map Prod.snd := by
    rw [<- storedAt_fields, split, List.map_append, List.map_cons]
  have offset := (parseFields_ok reportDesc).offsets _ _ _ fields
  rw [List.nil_append] at offset
  exact ⟨earlier, main, later, items, here, spot.erase same.symm data.symm, offset⟩

theorem stop_unique {earlier later : List MainItem} {main other : MainItem}
    (items : mains reportDesc = earlier ++ main :: later) (member : other ∈ mains reportDesc)
    (same : other.stop = main.stop) : other = main := by
  have ordered : (mains reportDesc).Pairwise fun first second => first.stop < second.stop := mainsLoop_ordered
  rw [items] at member ordered
  obtain ⟨_, fromMain, before⟩ := List.pairwise_append.mp ordered
  obtain front | back := List.mem_append.mp member
  · have := before other front main List.mem_cons_self
    omega
  · obtain own | behind := List.mem_cons.mp back
    · exact own
    · have := (List.pairwise_cons.mp fromMain).1 other behind
      omega

def AllPlaceable (reportDesc : List UInt8) : Prop :=
  ∀ before stop field after, assignedAt reportDesc = before ++ (stop, field) :: after ->
    ∀ main ∈ mains reportDesc, main.stop = stop -> Placeable (mains reportDesc) main (itemFields before main).length

theorem stored_declared (placeable : AllPlaceable reportDesc)
    (split : storedAt reportDesc = before ++ (stop, field) :: after) : ∃ main ∈ mains reportDesc, main.stop = stop ∧
      AsDeclared (mains reportDesc) main (itemFields before main).length field ∧
      field.offset.toNat = bitsOf (before.map Prod.snd) field.report := by
  obtain ⟨earlier, main, later, items, here, spot, offset⟩ := stored_spot split
  have member : main ∈ mains reportDesc := by simp [items]
  have placed {before_ after_ : List (Nat × HIDData)} {stop_ : Nat} {field_ : HIDData}
      (cut : storedAt reportDesc = before_ ++ (stop_, field_) :: after_) {other : MainItem}
      (listed : other ∈ mains reportDesc) (stops : other.stop = stop_) :
      Placeable (mains reportDesc) other (itemFields before_ other).length := by
    obtain ⟨before', field', after', there, same, _⟩ := cut_erased (stored_erased reportDesc).symm cut
    rw [<- itemFields_erased same other]
    exact placeable before' stop_ field' after' there other listed stops
  have own := placed split member here
  -- Every item before has a field before, which is placeable as well.
  have others : ∀ other ∈ earlier, other.reportID < 256 ∧ other.stop < reportDesc.length ∧ 1 ≤ other.count ∧
      other.size < 256 := by
    intro other front
    obtain ⟨⟨stop_, field_⟩, inside, stops⟩ := spot.visited other front
    obtain ⟨first, second, rfl⟩ := List.append_of_mem inside
    have listed : other ∈ mains reportDesc := by simp [items, front]
    have cut : storedAt reportDesc = first ++ (stop_, field_) :: (second ++ (stop, field) :: after) := by simp [split]
    have other_ := placed cut listed stops.symm
    have ordered : (mains reportDesc).Pairwise fun first second => first.stop < second.stop := mainsLoop_ordered
    rw [items] at ordered
    have later_ := (List.pairwise_append.mp ordered).2.2 other front main List.mem_cons_self
    have within := (mainsLoop_stop main member).2
    exact ⟨other_.reportID, by omega, other_.count, other_.size⟩
  have sum : bitsOf (before.map Prod.snd) main.report =
      bitsBefore (mains reportDesc) main + (itemFields before main).length * main.size := by
    have ordered : (mains reportDesc).Pairwise fun first second => first.stop < second.stop := mainsLoop_ordered
    obtain ⟨turns, short⟩ := @foundBits_short reportDesc.length main.report earlier fun other front => (others other front).2
    have small := own.offset
    rw [items] at ordered small ⊢
    rw [bitsBefore_split own.reportID ordered fun other front => (others other front).1] at small ⊢
    rw [spot.bits main.report, if_pos rfl, Nat.mod_eq_of_lt own.size]
    omega
  have value : field.offset.toNat = bitsOf (before.map Prod.snd) field.report := by
    have id := spot.reportID
    rw [Nat.mod_eq_of_lt own.reportID] at id
    rw [offset, spot.report, sum]
    split
    next zero =>
      rw [zero] at id
      exact (own.numbered id.symm).symm
    next => exact Nat.mod_eq_of_lt own.offset
  refine ⟨main, member, here, ⟨?_, spot.type, ?_, ?_, ?_⟩, value⟩
  · rw [spot.reportID, Nat.mod_eq_of_lt own.reportID]
  · rw [spot.size, Nat.mod_eq_of_lt own.size]
  · have few := spot.few
    have some_ := own.count
    unfold repetitions at few
    split at few
    · split at few <;> omega
    · omega
  · rw [value, spot.report, sum]

theorem fields_laidOut (reportDesc : List UInt8) :
    LaidOut (mains reportDesc) (storedAt reportDesc) (parseFields reportDesc).2 ↔ AllPlaceable reportDesc := by
  constructor
  · intro laidOut before stop field after split main member here
    obtain ⟨before', field', after', there, same, data⟩ := cut_erased (stored_erased reportDesc) split
    obtain ⟨other, listed, stops, declared⟩ := laidOut.sums before' stop field' after' there
    obtain ⟨earlier, own, later, items, ownStop, spot, offset⟩ := stored_spot there
    obtain rfl := stop_unique items listed (stops.trans ownStop.symm)
    obtain rfl := stop_unique items member (here.trans ownStop.symm)
    have index := itemFields_erased same main
    have id := field'.reportID.toNat_lt
    have size := field'.size.toNat_lt
    have bound := field'.offset.toNat_lt
    have sum := declared.offset
    rw [index] at sum
    refine ⟨by rw [<- declared.reportID]; exact id, by rw [<- declared.size]; exact size, ?_, by omega, fun zero => ?_⟩
    · have := declared.declared
      omega
    · have none_ : field'.reportID = 0 := UInt8.toNat_inj.mp (declared.reportID.trans zero)
      rw [if_pos none_] at offset
      omega
  · intro placeable
    refine ⟨fun before stop field after split => ?_, fun before field between other after split same => ?_,
      fun desc ended field member => ?_⟩
    · obtain ⟨main, member, here, declared, _⟩ := stored_declared placeable split
      exact ⟨main, member, here, declared⟩
    · obtain ⟨_, _, _, _, first⟩ := @stored_declared _ before (between ++ other :: after) field.1 field.2 placeable
        (by simpa using split)
      obtain ⟨_, _, _, _, second⟩ := @stored_declared _ (before ++ field :: between) after other.1 other.2 placeable split
      rw [second, first, same, List.map_append, bitsOf_add, List.map_cons]
      have own : bitsOf (field.2 :: between.map Prod.snd) field.2.report =
          field.2.size.toNat + bitsOf (between.map Prod.snd) field.2.report := by simp [bitsOf]
      omega
    · have listed : field.2 ∈ (parseFields reportDesc).1 := by
        rw [<- storedAt_fields]
        exact List.mem_map_of_mem member
      exact ((parseFields_ok reportDesc).covered desc ended).1 field.2 listed

def overlapDescriptor : List UInt8 :=
  [0x05, 0x84, 0x09, 0x04, 0xa1, 0x01, 0x75, 0x08, 0x95, 0x01, 0x09, 0x40, 0xb1, 0x02, 0x09, 0x41, 0xb1, 0x02, 0xc0]

def overlapField (usage : UInt32) : HIDData :=
  { HIDData.zero with
    path := { size := 2, node := 0x00840004 :: usage :: List.replicate 8 0 }
    size := 8, type := 0xb0, dataAttribute := 2 }

theorem fields_overlap : (parseFields overlapDescriptor).1 = [overlapField 0x00840040, overlapField 0x00840041] ∧
      ¬ LaidOut (mains overlapDescriptor) (storedAt overlapDescriptor) (parseFields overlapDescriptor).2 := by
  have fields : (parseFields overlapDescriptor).1 = [overlapField 0x00840040, overlapField 0x00840041] := by
    decide +kernel
  have stored : storedAt overlapDescriptor = [(14, overlapField 0x00840040), (18, overlapField 0x00840041)] := by
    decide +kernel
  refine ⟨fields, fun laidOut => ?_⟩
  have second := laidOut.apart [] (14, overlapField 0x00840040) [] (18, overlapField 0x00840041) [] stored rfl
  exact absurd second (by decide)

end Layout

end Nut
