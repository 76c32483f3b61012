import Mathlib.Data.List.Induction
import Mathlib.Data.List.Nodup
import Mathlib.Data.List.ProdSigma
import Nut.Drivers.HidWalk

set_option autoImplicit false

namespace Nut

-- The report that a field is part of: an ID and a type.
def HIDData.report (field : HIDData) : UInt8 × UInt8 :=
  (field.reportID, field.type)

def OffsetRow.report (row : OffsetRow) : UInt8 × UInt8 :=
  (row.id, row.type)

def bitsOf (fields : List HIDData) (report : UInt8 × UInt8) : Nat :=
  ((fields.filter fun field => field.report == report).map fun field => field.size.toNat).sum

-- The reports that take a row of the table for good.
def addRow (rows : List (UInt8 × UInt8)) (field : HIDData) : List (UInt8 × UInt8) :=
  if field.reportID = 0 ∨ field.report ∈ rows then rows else rows ++ [field.report]

def rowsOf (fields : List HIDData) : List (UInt8 × UInt8) :=
  fields.foldl addRow []

theorem bitsOf_append (before : List HIDData) (field : HIDData) (report : UInt8 × UInt8) :
    bitsOf (before ++ [field]) report =
      bitsOf before report + if field.report = report then field.size.toNat else 0 := by
  by_cases same : field.report = report <;> simp [bitsOf, List.filter_append, same]

theorem rowsOf_append (before : List HIDData) (field : HIDData) :
    rowsOf (before ++ [field]) = addRow (rowsOf before) field := by
  simp [rowsOf, List.foldl_append]

theorem mem_rowsOf {fields : List HIDData} {report : UInt8 × UInt8} :
    report ∈ rowsOf fields ↔ report.1 ≠ 0 ∧ ∃ field ∈ fields, field.report = report := by
  induction fields using List.reverseRecOn with
  | nil => simp [rowsOf]
  | append_singleton before field ih =>
    rw [rowsOf_append, addRow]
    split
    next old =>
      rw [ih]
      constructor
      · rintro ⟨nonzero, other, member, same⟩
        exact ⟨nonzero, other, List.mem_append_left _ member, same⟩
      · rintro ⟨nonzero, other, member, rfl⟩
        obtain inside | rfl : other ∈ before ∨ other = field := by simpa using member
        · exact ⟨nonzero, other, inside, rfl⟩
        · exact ih.mp (old.resolve_left nonzero)
    next new =>
      rw [List.mem_append, ih, List.mem_singleton]
      constructor
      · rintro (⟨nonzero, other, member, same⟩ | rfl)
        · exact ⟨nonzero, other, List.mem_append_left _ member, same⟩
        · exact ⟨fun zero => new (Or.inl zero), field, by simp, rfl⟩
      · rintro ⟨nonzero, other, member, rfl⟩
        obtain inside | rfl : other ∈ before ∨ other = field := by simpa using member
        · exact Or.inl ⟨nonzero, other, inside, rfl⟩
        · exact Or.inr rfl

theorem rowsOf_nodup (fields : List HIDData) : (rowsOf fields).Nodup := by
  induction fields using List.reverseRecOn with
  | nil => simp [rowsOf]
  | append_singleton before field ih =>
    rw [rowsOf_append, addRow]
    split
    · exact ih
    · next new =>
        rw [List.nodup_append]
        refine ⟨ih, by simp, fun report member other own same => new (Or.inr ?_)⟩
        rw [List.mem_singleton] at own
        rwa [<- own, <- same]

theorem bitsOf_unknown {fields : List HIDData} {report : UInt8 × UInt8} (nonzero : report.1 ≠ 0)
    (unknown : report ∉ rowsOf fields) : bitsOf fields report = 0 := by
  have none_ : (fields.filter fun field => field.report == report) = [] := by
    rw [List.filter_eq_nil_iff]
    intro field member same
    exact unknown (mem_rowsOf.mpr ⟨nonzero, field, member, by simpa using same⟩)
  simp [bitsOf, none_]

section Table

variable {reportID reportType : UInt8} {used free : List OffsetRow}

theorem getReportOffset_known (taken : ∀ row ∈ used, row.id ≠ 0)
    (known : (reportID, reportType) ∈ used.map OffsetRow.report) (free : List OffsetRow) :
    ∃ before row after, used = before ++ row :: after ∧ row.report = (reportID, reportType) ∧
      getReportOffset reportID reportType (used ++ free) = some (used ++ free, before.length) := by
  induction used with
  | nil => simp at known
  | cons first rest ih =>
    have nonzero := taken first List.mem_cons_self
    by_cases here : first.report = (reportID, reportType)
    · refine ⟨[], first, rest, rfl, here, ?_⟩
      obtain ⟨id, type⟩ := Prod.mk.inj here
      simp only [List.cons_append, getReportOffset, nonzero, if_false]
      simp [id, type]
    · have later : (reportID, reportType) ∈ rest.map OffsetRow.report := by
        simpa [Ne.symm here] using known
      obtain ⟨before, row, after, split, same, found⟩ :=
        ih (fun row member => taken row (List.mem_cons_of_mem first member)) later
      refine ⟨first :: before, row, after, by rw [split]; rfl, same, ?_⟩
      have differs : first.id ≠ reportID ∨ first.type ≠ reportType := by
        by_contra equal
        simp only [not_or, not_not] at equal
        exact here (Prod.ext equal.1 equal.2)
      rw [List.cons_append, getReportOffset]
      simp [nonzero, differs, found]

theorem getReportOffset_unknown (taken : ∀ row ∈ used, row.id ≠ 0)
    (unknown : (reportID, reportType) ∉ used.map OffsetRow.report) (rows : List OffsetRow) :
    getReportOffset reportID reportType (used ++ rows) =
      (getReportOffset reportID reportType rows).map fun found => (used ++ found.1, used.length + found.2) := by
  induction used with
  | nil => simp
  | cons first rest ih =>
    have nonzero := taken first List.mem_cons_self
    have later : (reportID, reportType) ∉ rest.map OffsetRow.report := fun member => unknown (by simp_all)
    have differs : first.id ≠ reportID ∨ first.type ≠ reportType := by
      by_contra equal
      simp only [not_or, not_not] at equal
      exact unknown (by simp [OffsetRow.report, equal])
    rw [List.cons_append, getReportOffset, ih (fun row member => taken row (List.mem_cons_of_mem first member)) later]
    cases getReportOffset reportID reportType rows with
    | none => simp [nonzero, differs]
    | some found =>
      simp [nonzero, differs]
      omega

structure TableOf (fields : List HIDData) (used free : List OffsetRow) : Prop where
  taken : ∀ row ∈ used, row.id ≠ 0
  reports : used.map OffsetRow.report = rowsOf fields
  offsets : ∀ row ∈ used, row.offset.toNat = bitsOf fields row.report % 256
  vacant : ∀ row ∈ free, row.id = 0
  room : used.length + free.length = maxReport

theorem updateReportOffset_at {offsetTab before after : List OffsetRow} {row : OffsetRow}
    (found : getReportOffset reportID reportType offsetTab = some (before ++ row :: after, before.length))
    (change : UInt8 -> UInt8) : updateReportOffset offsetTab reportID reportType change =
      .ok (row.offset, before ++ { row with offset := change row.offset } :: after) := by
  have inside : before.length < (before ++ row :: after).length := by simp
  unfold updateReportOffset
  simp only [found]
  rw [readAt_inside inside]
  simp only [bind, Except.bind, List.getElem_append_right (Nat.le_refl _), Nat.sub_self, List.getElem_cons_zero]
  rw [writeAt_inside inside]
  simp [pure, Except.pure, List.set_append_right]

variable {fields : List HIDData} {field : HIDData}

theorem placeField_known (table : TableOf fields used free) (known : field.report ∈ rowsOf fields) :
    ∃ offset used', placeField (used ++ free) field = .ok ({ field with offset }, used' ++ free) ∧
      TableOf (fields ++ [field]) used' free ∧ offset.toNat = bitsOf fields field.report % 256 := by
  have member := known
  rw [<- table.reports] at member
  obtain ⟨before, row, after, rfl, report, found⟩ := getReportOffset_known table.taken member free
  have value := table.offsets row (by simp)
  have rows : rowsOf (fields ++ [field]) = rowsOf fields := by
    rw [rowsOf_append, addRow, if_pos (Or.inr known)]
  have own : row.report = field.report := report
  rw [List.append_assoc, List.cons_append] at found ⊢
  have first := updateReportOffset_at found id
  have second := updateReportOffset_at found (· + field.size)
  -- The other rows belong to other reports.
  have others : ∀ other ∈ before ++ after, field.report ≠ other.report := by
    have once := rowsOf_nodup fields
    rw [<- table.reports, List.map_append, List.map_cons, List.nodup_middle, List.nodup_cons, <- List.map_append,
      own] at once
    intro other inside same
    exact once.1 (List.mem_map.mpr ⟨other, inside, same.symm⟩)
  have stays : ∀ other ∈ before ++ after, other ∈ before ++ row :: after := by
    intro other inside
    obtain left | right := List.mem_append.mp inside <;> simp [*]
  have cases_ : ∀ other ∈ before ++ { row with offset := row.offset + field.size } :: after,
      other ∈ before ++ after ∨ other = { row with offset := row.offset + field.size } := by
    intro other inside
    obtain left | right := List.mem_append.mp inside
    · exact Or.inl (List.mem_append_left _ left)
    · obtain same | right := List.mem_cons.mp right
      · exact Or.inr same
      · exact Or.inl (List.mem_append_right _ right)
  refine ⟨row.offset, before ++ { row with offset := row.offset + field.size } :: after, ?_, ?_, ?_⟩
  · simp only [placeField, first, id, second, bind, Except.bind, pure, Except.pure]
    simp
  · refine ⟨fun other inside => ?_, ?_, fun other inside => ?_, table.vacant, ?_⟩
    · obtain old | rfl := cases_ other inside
      · exact table.taken other (stays other old)
      · exact table.taken row (by simp)
    · rw [rows, <- table.reports]
      simp [OffsetRow.report]
    · obtain old | rfl := cases_ other inside
      · rw [bitsOf_append, if_neg (others other old), Nat.add_zero]
        exact table.offsets other (stays other old)
      · change (row.offset + field.size).toNat = bitsOf (fields ++ [field]) row.report % 256
        rw [bitsOf_append, own, if_pos rfl, UInt8.toNat_add, value, own, Nat.mod_add_mod]
    · simpa using table.room
  · rw [value, own]

theorem placeField_new {first : OffsetRow} (table : TableOf fields used (first :: free))
    (unknown : field.report ∉ rowsOf fields) :
    ∃ used' free', placeField (used ++ first :: free) field = .ok ({ field with offset := 0 }, used' ++ free') ∧
      TableOf (fields ++ [field]) used' free' := by
  have zero := table.vacant first List.mem_cons_self
  have missing : (field.reportID, field.type) ∉ used.map OffsetRow.report := by
    rw [table.reports]
    exact unknown
  have firstCall : getReportOffset field.reportID field.type (used ++ first :: free) =
      some (used ++ { id := field.reportID, type := field.type, offset := 0 } :: free, used.length) := by
    rw [getReportOffset_unknown table.taken missing]
    simp [getReportOffset, zero]
  have secondCall : getReportOffset field.reportID field.type
        (used ++ { id := field.reportID, type := field.type, offset := 0 } :: free) =
      some (used ++ { id := field.reportID, type := field.type, offset := 0 } :: free, used.length) := by
    rw [getReportOffset_unknown table.taken missing]
    simp [getReportOffset]
  have placed : placeField (used ++ first :: free) field = .ok ({ field with offset := 0 },
        used ++ { id := field.reportID, type := field.type, offset := field.size } :: free) := by
    simp only [placeField, updateReportOffset_at firstCall, id, updateReportOffset_at secondCall, bind, Except.bind,
      pure, Except.pure, UInt8.zero_add]
  by_cases noID : field.reportID = 0
  · -- The row stays free.
    refine ⟨used, { id := field.reportID, type := field.type, offset := field.size } :: free, placed, table.taken, ?_,
      fun row inside => ?_, fun row inside => ?_, by simpa using table.room⟩
    · rw [rowsOf_append, addRow, if_pos (Or.inl noID), table.reports]
    · have different : field.report ≠ row.report := by
        intro same
        have := table.taken row inside
        exact this (by rw [<- noID]; exact (congrArg Prod.fst same).symm)
      rw [bitsOf_append, if_neg different, Nat.add_zero]
      exact table.offsets row inside
    · obtain rfl | old := List.mem_cons.mp inside
      · exact noID
      · exact table.vacant row (List.mem_cons_of_mem first old)
  · refine ⟨used ++ [{ id := field.reportID, type := field.type, offset := field.size }], free, ?_, fun row inside => ?_,
      ?_, fun row inside => ?_, fun row inside => table.vacant row (List.mem_cons_of_mem first inside), ?_⟩
    · rw [placed, List.append_assoc]
      rfl
    · obtain old | new := List.mem_append.mp inside
      · exact table.taken row old
      · rw [List.mem_singleton.mp new]
        exact noID
    · rw [rowsOf_append, addRow, if_neg (by simp [noID, unknown]), List.map_append, table.reports]
      rfl
    · obtain old | new := List.mem_append.mp inside
      · have different : field.report ≠ row.report := by
          intro same
          rw [same, <- table.reports] at unknown
          exact unknown (List.mem_map_of_mem old)
        rw [bitsOf_append, if_neg different, Nat.add_zero]
        exact table.offsets row old
      · rw [List.mem_singleton.mp new]
        change field.size.toNat = bitsOf (fields ++ [field]) field.report % 256
        have := field.size.toNat_lt
        rw [bitsOf_append, if_pos rfl, bitsOf_unknown noID unknown]
        omega
    · have := table.room
      simp only [List.length_append, List.length_cons, List.length_nil] at *
      omega

theorem placeField_full (table : TableOf fields used []) (unknown : field.report ∉ rowsOf fields) :
    placeField used field = .error .nullPointer := by
  have missing : (field.reportID, field.type) ∉ used.map OffsetRow.report := by
    rw [table.reports]
    exact unknown
  have null := getReportOffset_unknown table.taken missing []
  rw [List.append_nil] at null
  simp [placeField, updateReportOffset, null, getReportOffset, bind, Except.bind]

end Table

section Store

variable {desc desc' : HIDDesc} {pData : HIDData} {ret : Nat}

def HIDDesc.reportLength (desc : HIDDesc) (id : UInt8) : Nat :=
  desc.replen[id.toNat]?.getD 0

structure HIDDesc.Sized (desc : HIDDesc) : Prop where
  items : desc.item.length = maxReport
  lengths : desc.replen.length = 256

theorem sized_empty : HIDDesc.empty.Sized := ⟨List.length_replicate, List.length_replicate⟩

theorem raiseLength_ok {replen : List Nat} (lengths : replen.length = 256) (id : UInt8) (length : Nat) :
    ∃ replen', raiseLength replen id length = .ok replen' ∧ replen'.length = 256 ∧ length ≤ replen'[id.toNat]?.getD 0 ∧
      ∀ other : Nat, replen[other]?.getD 0 ≤ replen'[other]?.getD 0 ∧
        replen'[other]?.getD 0 ≤ max (replen[other]?.getD 0) length := by
  have inside : id.toNat < replen.length := by
    have := id.toNat_lt
    omega
  unfold raiseLength
  rw [readAt_inside inside]
  simp only [bind, Except.bind]
  split
  next more =>
    refine ⟨_, writeAt_inside inside length, by rw [List.length_set, lengths], ?_, fun other => ?_⟩
    · rw [List.getElem?_set_self inside]
      exact Nat.le_refl _
    · by_cases same : id.toNat = other
      · subst same
        rw [List.getElem?_set_self inside, List.getElem?_eq_getElem inside]
        exact ⟨Nat.le_of_lt more, Nat.le_max_right _ _⟩
      · rw [List.getElem?_set_ne same]
        exact ⟨Nat.le_refl _, Nat.le_max_left _ _⟩
  next enough =>
    refine ⟨_, rfl, lengths, ?_, fun other => ⟨Nat.le_refl _, Nat.le_max_left _ _⟩⟩
    rw [List.getElem?_eq_getElem inside]
    exact Nat.not_lt.mp enough

def HIDDesc.Covers (desc : HIDDesc) (field : HIDData) : Prop :=
  (field.offset.toNat + field.size.toNat + 7) / 8 ≤ desc.reportLength field.reportID

def HIDDesc.Short (desc : HIDDesc) : Prop :=
  ∀ id, desc.reportLength id ≤ 64

structure Stored (desc desc' : HIDDesc) (pData : HIDData) (ret : Nat) : Prop where
  sized : desc'.Sized
  nitems : desc'.nitems = desc.nitems + ret
  item : desc'.item = desc.item.set desc.nitems pData
  covers : desc'.Covers pData
  keeps : ∀ field, desc.Covers field -> desc'.Covers field
  short : desc.Short -> desc'.Short

theorem storeField_ok (sized : desc.Sized) (room : desc.nitems < maxReport) (pData : HIDData) (ret : Nat) :
    ∃ desc', storeField desc pData ret = .ok desc' ∧ Stored desc desc' pData ret := by
  obtain ⟨replen, raised, lengths, covers, more⟩ := raiseLength_ok sized.lengths pData.reportID
    ((pData.offset.toNat + pData.size.toNat + 7) / 8)
  have inside : desc.nitems < desc.item.length := by rw [sized.items]; exact room
  refine ⟨{ nitems := desc.nitems + ret, item := desc.item.set desc.nitems pData, replen }, ?_,
    ⟨by simp [sized.items], lengths⟩, rfl, rfl, covers, fun field covered => Nat.le_trans covered (more _).1,
    fun short id => ?_⟩
  · simp [storeField, writeAt_inside inside, raised, bind, Except.bind, pure, Except.pure]
  · have raisedTo := (more id.toNat).2
    have old := short id
    have offset := pData.offset.toNat_lt
    have size := pData.size.toNat_lt
    simp only [HIDDesc.reportLength] at *
    omega

end Store

def declaredLoop : Nat -> HIDParser -> Nat -> List (Nat × HIDData)
  | 0, _, _ => []
  | turns + 1, parser, nitems =>
    if nitems < maxReport then
      match nextField (parser.reportDesc.length + 1) parser with
      | .ok (some (parser, pData, ret)) => (parser.pos, pData) :: declaredLoop turns parser (nitems + ret)
      | _ => []
    else []

def declaredFields (reportDesc : List UInt8) : List HIDData :=
  (declaredLoop (parseTurns reportDesc) (.start reportDesc) 0).map Prod.snd

-- There is a row in the table for the report of the field, when these reports have theirs.
def HasRow (rows : List (UInt8 × UInt8)) (field : HIDData) : Prop :=
  field.report ∈ rows ∨ rows.length < maxReport

instance (rows : List (UInt8 × UInt8)) (field : HIDData) : Decidable (HasRow rows field) :=
  inferInstanceAs (Decidable (field.report ∈ rows ∨ rows.length < maxReport))

def servedFields : List (UInt8 × UInt8) -> List HIDData -> List HIDData
  | _, [] => []
  | rows, field :: rest => if HasRow rows field then field :: servedFields (addRow rows field) rest else []

def HIDData.unplaced (field : HIDData) : HIDData :=
  { field with offset := 0 }

section Loop

variable {done : List HIDData} {used free : List OffsetRow} {field : HIDData}

theorem placeField_ok (table : TableOf done used free) (hasRow : HasRow (rowsOf done) field) :
    ∃ offset used' free', placeField (used ++ free) field = .ok ({ field with offset }, used' ++ free') ∧
      TableOf (done ++ [field]) used' free' ∧
      offset.toNat = if field.reportID = 0 then 0 else bitsOf done field.report % 256 := by
  have rows : (rowsOf done).length = used.length := by rw [<- table.reports, List.length_map]
  by_cases known : field.report ∈ rowsOf done
  · obtain ⟨offset, used', placed, table', value⟩ := placeField_known table known
    have withID : field.reportID ≠ 0 := (mem_rowsOf.mp known).1
    exact ⟨offset, used', free, placed, table', by rw [if_neg withID, value]⟩
  · have vacant := hasRow.resolve_left known
    have room := table.room
    obtain _ | ⟨first, free⟩ := free
    · rw [List.length_nil] at room
      omega
    · obtain ⟨used', free', placed, table'⟩ := placeField_new table known
      refine ⟨0, used', free', placed, table', ?_⟩
      split
      · rfl
      next noID => rw [bitsOf_unknown noID known]; rfl

theorem placeField_none (table : TableOf done used free) (noRow : ¬ HasRow (rowsOf done) field) :
    placeField (used ++ free) field = .error .nullPointer := by
  have rows : (rowsOf done).length = used.length := by rw [<- table.reports, List.length_map]
  have unknown : field.report ∉ rowsOf done := fun known => noRow (Or.inl known)
  have full : ¬ (rowsOf done).length < maxReport := fun room => noRow (Or.inr room)
  have room := table.room
  obtain _ | ⟨first, free⟩ := free
  · rw [List.append_nil]
    exact placeField_full table unknown
  · rw [List.length_cons] at room
    omega

structure Parsed (done declared fields : List HIDData) (desc : HIDDesc) (result : Checked HIDDesc) : Prop where
  assigned : fields.map HIDData.unplaced = (servedFields (rowsOf done) declared).map HIDData.unplaced
  offsets : ∀ before field after, fields = before ++ field :: after ->
    field.offset.toNat = if field.reportID = 0 then 0 else bitsOf (done ++ before) field.report % 256
  completed : (∃ desc', result = .ok desc') ↔ servedFields (rowsOf done) declared = declared
  fault : ∀ fault, result = .error fault -> fault = .nullPointer
  covered : ∀ desc', result = .ok desc' -> (∀ field ∈ fields, desc'.Covers field) ∧
    ∀ field, desc.Covers field -> desc'.Covers field
  items : ∀ desc', result = .ok desc' -> ∀ item ∈ desc'.item.take desc'.nitems,
    item ∈ fields ∨ item ∈ desc.item.take desc.nitems
  short : ∀ desc', result = .ok desc' -> desc.Short -> desc'.Short

theorem parsed_nothing (done : List HIDData) (desc : HIDDesc) : Parsed done [] [] desc (.ok desc) where
  assigned := rfl
  offsets := fun before field after split => by simp at split
  completed := by simp [servedFields]
  fault := fun fault wrong => by cases wrong
  covered := fun desc' same => by
    cases same
    exact ⟨fun field member => absurd member (by simp), fun field covered => covered⟩
  items := fun desc' same item member => by
    cases same
    exact Or.inr member
  short := fun desc' same short => by
    cases same
    exact short

theorem parsed_fault {pData : HIDData} (noRow : ¬ HasRow (rowsOf done) pData) (rest : List HIDData) (desc : HIDDesc) :
    Parsed done (pData :: rest) [] desc (.error .nullPointer) := by
  have none_ : servedFields (rowsOf done) (pData :: rest) = [] := by
    rw [servedFields, if_neg noRow]
  exact
    { assigned := by rw [none_]
      offsets := fun before field after split => by simp at split
      completed := by rw [none_]; simp
      fault := fun fault wrong => by cases wrong; rfl
      covered := fun desc' same => by cases same
      items := fun desc' same => by cases same
      short := fun desc' same => by cases same }

theorem parsed_field {pData placed : HIDData} {declared fields : List HIDData} {desc desc₁ : HIDDesc}
    {result : Checked HIDDesc} {ret : Nat} (hasRow : HasRow (rowsOf done) pData)
    (same : placed.unplaced = pData.unplaced)
    (offset : placed.offset.toNat = if pData.reportID = 0 then 0 else bitsOf done pData.report % 256)
    (stored : Stored desc desc₁ placed ret) (few : ret ≤ 1)
    (rest : Parsed (done ++ [pData]) declared fields desc₁ result) :
    Parsed done (pData :: declared) (placed :: fields) desc result := by
  have served : servedFields (rowsOf done) (pData :: declared) =
      pData :: servedFields (rowsOf (done ++ [pData])) declared := by
    rw [servedFields, if_pos hasRow, rowsOf_append]
  have report : placed.reportID = pData.reportID ∧ placed.report = pData.report ∧ placed.size = pData.size := by
    obtain ⟨_, _, _, _, _, _⟩ := placed
    obtain ⟨_, _, _, _, _, _⟩ := pData
    simp_all [HIDData.unplaced, HIDData.report]
  refine ⟨?_, fun before field after split => ?_, ?_, rest.fault, fun desc' ended => ?_, fun desc' ended item member => ?_,
    fun desc' ended short => rest.short desc' ended (stored.short short)⟩
  · rw [served, List.map_cons, List.map_cons, same, rest.assigned]
  · cases before with
    | nil =>
      obtain ⟨rfl, rfl⟩ := List.cons.inj split
      rw [List.append_nil, report.1, report.2.1]
      exact offset
    | cons first before =>
      obtain ⟨rfl, later⟩ := List.cons.inj split
      have bits : bitsOf (done ++ placed :: before) field.report = bitsOf (done ++ [pData] ++ before) field.report := by
        simp only [bitsOf, List.filter_append, List.filter_cons, List.append_assoc, List.cons_append, List.nil_append,
          report.2.1]
        split <;> simp [report.2.2]
      rw [bits]
      exact rest.offsets before field after later
  · rw [rest.completed, served, List.cons.injEq]
    simp
  · obtain ⟨later, old⟩ := rest.covered desc' ended
    refine ⟨fun field member => ?_, fun field covered => old field (stored.keeps field covered)⟩
    obtain rfl | inside := List.mem_cons.mp member
    · exact old field stored.covers
    · exact later field inside
  · obtain later | old := rest.items desc' ended item member
    · exact Or.inl (List.mem_cons_of_mem placed later)
    · rw [stored.item, stored.nitems] at old
      obtain rfl | rfl : ret = 0 ∨ ret = 1 := by omega
      · rw [Nat.add_zero, List.take_set_of_le (Nat.le_refl _)] at old
        exact Or.inr old
      · rw [List.take_add_one, List.take_set_of_le (Nat.le_refl _), List.mem_append, Option.mem_toList] at old
        refine old.symm.imp (fun new => ?_) id
        obtain ⟨_, index⟩ := List.getElem?_eq_some_iff.mp new
        rw [List.getElem_set_self] at index
        simp [index]

theorem parseLoop_ok {turns : Nat} {parser : HIDParser} {desc : HIDDesc} (safe : parser.Safe)
    (table : TableOf done used free) (sized : desc.Sized) (enough : parser.budget < turns) :
    Parsed done ((declaredLoop turns parser desc.nitems).map Prod.snd) (parseLoop turns parser (used ++ free) desc).1 desc
      (parseLoop turns parser (used ++ free) desc).2 := by
  induction turns generalizing parser desc done used free with
  | zero => omega
  | succ turns ih =>
    unfold parseLoop declaredLoop
    by_cases room : desc.nitems < maxReport
    · simp only [room, if_true]
      obtain ended | ⟨next, pData, ret, found, nextSafe, length, less, few⟩ :=
        nextField_ok safe (show parser.reportDesc.length - parser.pos < parser.reportDesc.length + 1 by omega)
      · simp only [hidParse, ended, bind, Except.bind, pure, Except.pure]
        exact parsed_nothing done desc
      · simp only [hidParse, found, bind, Except.bind]
        by_cases hasRow : HasRow (rowsOf done) pData
        · obtain ⟨offset, used', free', placed, table', value⟩ := placeField_ok table hasRow
          simp only [placed, pure, Except.pure]
          obtain ⟨desc₁, store, stored⟩ := storeField_ok sized room { pData with offset } ret
          simp only [store]
          have rest := ih nextSafe table' stored.sized (by omega)
          rw [stored.nitems] at rest
          exact parsed_field hasRow rfl value stored few rest
        · simp only [placeField_none table hasRow]
          exact parsed_fault hasRow _ desc
    · simp only [room, if_false]
      exact parsed_nothing done desc

end Loop

def assignedFields (reportDesc : List UInt8) : List HIDData :=
  servedFields [] (declaredFields reportDesc)

theorem tableOf_start : TableOf [] [] (List.replicate maxReport .free) where
  taken := fun row inside => absurd inside (by simp)
  reports := rfl
  offsets := fun row inside => absurd inside (by simp)
  vacant := fun row inside => by
    rw [List.eq_of_mem_replicate inside]
    rfl
  room := by simp

theorem parseFields_ok (reportDesc : List UInt8) :
    Parsed [] (declaredFields reportDesc) (parseFields reportDesc).1 .empty (parseFields reportDesc).2 := by
  have budget : (HIDParser.start reportDesc).budget < parseTurns reportDesc := by
    simp [HIDParser.budget, HIDParser.start, parseTurns]
  exact parseLoop_ok (safe_start reportDesc) tableOf_start sized_empty budget

theorem servedFields_eq_iff (done declared : List HIDData) : servedFields (rowsOf done) declared = declared ↔
      ∀ before field after, declared = before ++ field :: after -> HasRow (rowsOf (done ++ before)) field := by
  induction declared generalizing done with
  | nil => simp [servedFields]
  | cons first rest ih =>
    have later := ih (done ++ [first])
    rw [rowsOf_append] at later
    by_cases hasRow : HasRow (rowsOf done) first
    · rw [servedFields, if_pos hasRow, List.cons.injEq, later]
      constructor
      · rintro ⟨_, rows⟩ before field after split
        cases before with
        | nil =>
          obtain ⟨rfl, _⟩ := List.cons.inj split
          rwa [List.append_nil]
        | cons other before =>
          obtain ⟨rfl, inRest⟩ := List.cons.inj split
          simpa using rows before field after inRest
      · intro rows
        refine ⟨rfl, fun before field after split => ?_⟩
        simpa using rows (first :: before) field after (by rw [split]; rfl)
    · rw [servedFields, if_neg hasRow]
      constructor
      · intro none_
        cases none_
      · intro rows
        have here := rows [] first rest rfl
        rw [List.append_nil] at here
        exact absurd here hasRow

theorem parse_accepted (reportDesc : List UInt8) : (∃ desc, parseReportDesc reportDesc = .ok desc) ↔
      ∀ before field after, declaredFields reportDesc = before ++ field :: after -> HasRow (rowsOf before) field := by
  have accepted : (∃ desc, parseReportDesc reportDesc = .ok desc) ↔ ∃ desc, (parseFields reportDesc).2 = .ok desc := by
    unfold parseReportDesc
    cases (parseFields reportDesc).2 <;> simp [Except.map]
  rw [accepted, (parseFields_ok reportDesc).completed]
  exact servedFields_eq_iff [] _

theorem parse_fault {reportDesc : List UInt8} {fault : Fault} (wrong : parseReportDesc reportDesc = .error fault) :
    fault = .nullPointer := by
  have same : (parseFields reportDesc).2 = .error fault := by
    unfold parseReportDesc at wrong
    cases result : (parseFields reportDesc).2 <;> simp_all [Except.map]
  exact (parseFields_ok reportDesc).fault fault same

-- No access goes wrong but the one through the NULL that a full table gives.
theorem parse_memory_safe (reportDesc : List UInt8) :
    (∀ fault, parseReportDesc reportDesc = .error fault -> fault = .nullPointer) ∧
      ((∃ desc, parseReportDesc reportDesc = .ok desc) ↔
        ∀ before field after, declaredFields reportDesc = before ++ field :: after -> HasRow (rowsOf before) field) :=
  ⟨fun _ wrong => parse_fault wrong, parse_accepted reportDesc⟩

section Hostile

variable {parser : HIDParser}

structure HIDParser.Idle (parser : HIDParser) : Prop where
  count : parser.count = 0
  usageTab : ∃ size, parser.usageTab = List.replicate (size + 1) 0
  usageSize : parser.usageSize = 0
  path : parser.data.path.size = 0
  nodes : parser.data.path.node.length = pathSize

theorem idle_start (reportDesc : List UInt8) : (HIDParser.start reportDesc).Idle where
  count := rfl
  usageTab := by
    have room : max reportDesc.length usageTabSize - 1 + 1 = max reportDesc.length usageTabSize := by
      simp only [usageTabSize]
      omega
    exact ⟨max reportDesc.length usageTabSize - 1, by rw [room]; rfl⟩
  usageSize := rfl
  path := rfl
  nodes := rfl

theorem readItem_short {before after : List UInt8} {item : UInt8} (here : parser.reportDesc = before ++ item :: after)
    (pos : parser.pos = before.length) (size : itemSize item = 0) :
    readItem parser = .ok (some { parser with item, value := 0, pos := parser.pos + 1 }) := by
  have read : readAt parser.reportDesc parser.pos = .ok item := by
    simp [readAt, here, pos]
  simp [readItem, read, size, readValueLoop, bind, Except.bind, pure, Except.pure]

theorem readItem_byte {before after : List UInt8} {item byte : UInt8}
    (here : parser.reportDesc = before ++ item :: byte :: after) (pos : parser.pos = before.length)
    (size : itemSize item = 1) :
    readItem parser = .ok (some { parser with item, value := byte.toUInt32, pos := parser.pos + 2 }) := by
  have read : readAt parser.reportDesc parser.pos = .ok item := by
    simp [readAt, here, pos]
  have next : readAt parser.reportDesc (parser.pos + 1) = .ok byte := by
    simp [readAt, here, pos]
  have room : ¬ 1 > parser.reportDesc.length - (parser.pos + 1) := by
    simp only [here, pos, List.length_append, List.length_cons]
    omega
  simp [readItem, read, size, room, readValueLoop, next, bind, Except.bind, pure, Except.pure]

theorem fieldItem_idle (idle : parser.Idle) (once : parser.reportCount = 1) :
    ∃ next pData, fieldItem parser = .ok (.found next pData 0) ∧ next.Idle ∧ next.reportDesc = parser.reportDesc ∧
      next.pos = parser.pos ∧ pData.reportID = parser.data.reportID ∧ pData.type = parser.item &&& 0xfc := by
  obtain ⟨size, usages⟩ := idle.usageTab
  have usage : readAt parser.usageTab 0 = .ok 0 := by simp [readAt, usages]
  have room : ¬ parser.data.path.size ≥ pathSize := by rw [idle.path]; decide
  have write (node : UInt32) : writeAt parser.data.path.node parser.data.path.size node =
      .ok (parser.data.path.node.set 0 node) := by
    rw [idle.path]
    exact writeAt_inside (by rw [idle.nodes]; decide) node
  refine ⟨_, _, by
    simp only [fieldItem, usage, idle.count, if_true, pushNode, room, if_false, write, unstackUsage, idle.usageSize, bind,
      Except.bind, pure, Except.pure, Nat.lt_irrefl, gt_iff_lt, ne_eq, not_true_eq_false, once]
    rfl, ?_⟩
  have ended (last : HIDParser) (done : last.count = 0) : endOfField last = resetLocalState last := if_pos done
  rw [ended _ rfl]
  refine ⟨⟨rfl, ⟨size, ?_⟩, rfl, ?_, ?_⟩, rfl, rfl, rfl, rfl⟩
  · simp [resetLocalState, setPathSize, usages]
  · simp [resetLocalState, setPathSize, idle.path]
  · simp [resetLocalState, setPathSize, idle.nodes]

theorem parseItem_repCount (tag : itemTag parser.item = .repCount) :
    parseItem parser = .ok (.next { parser with reportCount := parser.value.toUInt8 }) := by
  simp only [parseItem, tag]

theorem parseItem_repID (tag : itemTag parser.item = .repID) :
    parseItem parser = .ok (.next { parser with data := { parser.data with reportID := parser.value.toUInt8 } }) := by
  simp only [parseItem, tag, globalItem]

theorem nextField_next (more : parser.pos < parser.reportDesc.length) (new : parser.count = 0) {read next : HIDParser}
    (item : readItem parser = .ok (some read)) (parsed : parseItem read = .ok (.next next)) (turns : Nat) :
    nextField (turns + 1) parser = nextField turns next := by
  rw [nextField, if_pos more, currentItem, if_pos new, item]
  simp [bind, Except.bind, parsed]

theorem nextField_found (more : parser.pos < parser.reportDesc.length) (new : parser.count = 0) {read next : HIDParser}
    {pData : HIDData} {ret : Nat} (item : readItem parser = .ok (some read))
    (parsed : parseItem read = .ok (.found next pData ret)) (turns : Nat) :
    nextField (turns + 1) parser = .ok (some (next, pData, ret)) := by
  rw [nextField, if_pos more, currentItem, if_pos new, item]
  simp [bind, Except.bind, parsed, pure, Except.pure]

def keyItems (report : UInt8 × UInt8) : List UInt8 :=
  [0x95, 0x01, 0x85, report.1, report.2]

theorem nextField_keyItems (idle : parser.Idle) {before after : List UInt8} {report : UInt8 × UInt8}
    (here : parser.reportDesc = before ++ (keyItems report ++ after)) (pos : parser.pos = before.length)
    (isField : report.2 ∈ [0x80, 0x90, 0xb0]) (turns : Nat) :
    ∃ next pData, nextField (turns + 3) parser = .ok (some (next, pData, 0)) ∧ next.Idle ∧
      next.reportDesc = parser.reportDesc ∧ next.pos = parser.pos + 5 ∧ pData.report = report := by
  obtain ⟨reportID, type⟩ := report
  have field : itemSize type = 0 ∧ itemTag type = .field ∧ type &&& 0xfc = type := by
    simp only [List.mem_cons, List.not_mem_nil, or_false] at isField
    obtain rfl | rfl | rfl := isField <;> decide
  have firstHere : parser.reportDesc = before ++ 0x95 :: 0x01 :: (0x85 :: reportID :: type :: after) := by
    simpa [keyItems] using here
  have secondHere : parser.reportDesc = (before ++ [0x95, 0x01]) ++ 0x85 :: reportID :: (type :: after) := by
    simpa [keyItems] using here
  have thirdHere : parser.reportDesc = (before ++ [0x95, 0x01, 0x85, reportID]) ++ type :: after := by
    simpa [keyItems] using here
  have length : parser.reportDesc.length = before.length + 5 + after.length := by
    simp only [thirdHere, List.length_append, List.length_cons, List.length_nil]
    omega
  obtain ⟨counted, countedIs⟩ : ∃ counted, counted = { parser with
    item := 0x95, value := (0x01 : UInt8).toUInt32, pos := parser.pos + 2,
    reportCount := (0x01 : UInt8).toUInt32.toUInt8 } := ⟨_, rfl⟩
  have first := @nextField_next parser (by omega) idle.count _ counted (readItem_byte firstHere pos (by decide))
    (by rw [parseItem_repCount (show itemTag 0x95 = .repCount by decide), countedIs]) (turns + 2)
  obtain ⟨named, namedIs⟩ : ∃ named, named = { counted with
    item := 0x85, value := reportID.toUInt32, pos := counted.pos + 2,
    data := { counted.data with reportID := reportID.toUInt32.toUInt8 } } := ⟨_, rfl⟩
  have second := @nextField_next counted (by simp [countedIs]; omega) (by simp [countedIs, idle.count]) _ named
    (readItem_byte (by rw [countedIs]; exact secondHere) (by simp [countedIs, pos]) (by decide))
    (by rw [parseItem_repID (show itemTag 0x85 = .repID by decide), namedIs]) (turns + 1)
  have ready : HIDParser.Idle { named with item := type, value := 0, pos := named.pos + 1 } := by
    obtain ⟨size, usages⟩ := idle.usageTab
    exact ⟨by simp [namedIs, countedIs, idle.count], ⟨size, by simp [namedIs, countedIs, usages]⟩,
      by simp [namedIs, countedIs, idle.usageSize], by simp [namedIs, countedIs, idle.path],
      by simp [namedIs, countedIs, idle.nodes]⟩
  obtain ⟨next, pData, found, nextIdle, nextDesc, nextPos, id, kind⟩ :=
    fieldItem_idle ready (by simp [namedIs, countedIs])
  have parsed : parseItem { named with item := type, value := 0, pos := named.pos + 1 } = .ok (.found next pData 0) := by
    rw [parseItem, field.2.1]
    exact found
  have third := @nextField_found named (by simp [namedIs, countedIs]; omega) (by simp [namedIs, countedIs, idle.count]) _ _ _ _
    (readItem_short (by rw [namedIs, countedIs]; exact thirdHere) (by simp [namedIs, countedIs, pos]) field.1) parsed turns
  refine ⟨next, pData, ?_, nextIdle, ?_, ?_, ?_⟩
  · rw [first, second, third]
  · simp [nextDesc, namedIs, countedIs]
  · simp [nextPos, namedIs, countedIs]
  · simp [HIDData.report, id, kind, namedIs, field.2.2]

theorem declaredLoop_keyItems {reports : List (UInt8 × UInt8)} (areFields : ∀ report ∈ reports, report.2 ∈ [0x80, 0x90, 0xb0])
    (idle : parser.Idle) {before : List UInt8} (here : parser.reportDesc = before ++ reports.flatMap keyItems)
    (pos : parser.pos = before.length) {turns nitems : Nat} (enough : reports.length < turns)
    (room : nitems < maxReport) : (declaredLoop turns parser nitems).map (fun found => found.2.report) = reports := by
  induction reports generalizing parser before turns with
  | nil =>
    obtain _ | turns := turns
    · omega
    · have ended : ¬ parser.pos < parser.reportDesc.length := by simp [here, pos]
      rw [declaredLoop, if_pos room, nextField, if_neg ended]
      rfl
  | cons report reports ih =>
    obtain _ | turns := turns
    · omega
    · have length : parser.reportDesc.length + 1 = before.length + (reports.flatMap keyItems).length + 3 + 3 := by
        simp [here, keyItems]
        omega
      obtain ⟨next, pData, found, nextIdle, nextDesc, nextPos, same⟩ := nextField_keyItems idle
        (by simpa using here) pos (areFields report List.mem_cons_self) (before.length + (reports.flatMap keyItems).length + 3)
      rw [declaredLoop, if_pos room, length, found]
      simp only [Nat.add_zero, List.map_cons, same, List.cons.injEq, true_and]
      refine @ih next (fun other member => areFields other (List.mem_cons_of_mem report member)) nextIdle
        (before ++ keyItems report) (by simpa [nextDesc] using here) ?_ turns ?_
      · simp [nextPos, pos, keyItems]
      · rw [List.length_cons] at enough
        omega

theorem rowsOf_distinct {fields : List HIDData} (once : (fields.map HIDData.report).Nodup)
    (withID : ∀ field ∈ fields, field.reportID ≠ 0) : rowsOf fields = fields.map HIDData.report := by
  induction fields using List.reverseRecOn with
  | nil => rfl
  | append_singleton before field ih =>
    rw [List.map_append, List.map_singleton, List.nodup_append] at once
    have rest := ih once.1 fun other member => withID other (List.mem_append_left _ member)
    have new : ¬ (field.reportID = 0 ∨ field.report ∈ before.map HIDData.report) := by
      rintro (zero | old)
      · exact withID field (by simp) zero
      · exact once.2.2 field.report old field.report (by simp) rfl
    rw [rowsOf_append, addRow, rest, if_neg new, List.map_append, List.map_singleton]

def hostileReports : List (UInt8 × UInt8) :=
  ((List.range 167).map fun i => UInt8.ofNat (i + 1)).product [0x80, 0x90, 0xb0]

def hostileDescriptor : List UInt8 :=
  hostileReports.flatMap keyItems

theorem hostileIds_nodup : ((List.range 167).map fun i => UInt8.ofNat (i + 1)).Nodup := by
  apply List.Nodup.map_on _ List.nodup_range
  intro i small j below same
  have ids := congrArg UInt8.toNat same
  rw [UInt8.toNat_ofNat', UInt8.toNat_ofNat'] at ids
  have := List.mem_range.mp small
  have := List.mem_range.mp below
  omega

theorem parse_null_pointer :
    hostileDescriptor.length ≤ reportDscSize ∧ parseReportDesc hostileDescriptor = .error .nullPointer := by
  refine ⟨by decide +kernel, ?_⟩
  have once : hostileReports.Nodup := List.Nodup.product hostileIds_nodup (by decide)
  have count : hostileReports.length = 501 := by decide +kernel
  have kinds : ∀ report ∈ hostileReports, report.2 ∈ [0x80, 0x90, 0xb0] := fun report member =>
    (List.mem_product.mp member).2
  have numbered : hostileReports.all (fun report => report.1 != 0) = true := by decide +kernel
  have ids : ∀ report ∈ hostileReports, report.1 ≠ 0 := by simpa using numbered
  have idle := idle_start hostileDescriptor
  have enough : hostileReports.length < parseTurns hostileDescriptor := by decide +kernel
  have declared : (declaredFields hostileDescriptor).map HIDData.report = hostileReports := by
    rw [declaredFields, List.map_map]
    exact @declaredLoop_keyItems _ _ kinds idle [] (by simp [HIDParser.start, hostileDescriptor])
      (by simp [HIDParser.start]) _ 0 enough (by decide)
  cases result : parseReportDesc hostileDescriptor with
  | error fault => rw [parse_fault result]
  | ok desc =>
    have rows := (parse_accepted hostileDescriptor).mp ⟨desc, result⟩
    generalize declaredFields hostileDescriptor = fields at *
    have length : fields.length = 501 := by rw [<- count, <- declared, List.length_map]
    have inside : 500 < fields.length := by omega
    have split : fields = fields.take 500 ++ fields[500] :: [] := by
      rw [List.take_append_getElem]
      exact (List.take_of_length_le (by omega)).symm
    have last := rows _ _ _ split
    rw [<- declared, split, List.map_append, List.map_singleton] at once
    rw [rowsOf_distinct (List.nodup_append.mp once).1 ?_] at last
    · obtain known | room := last
      · exact absurd rfl ((List.nodup_append.mp once).2.2 _ known _ (by simp))
      · rw [List.length_map, List.length_take, length] at room
        exact absurd room (by decide)
    · intro field member
      apply ids field.report
      rw [<- declared]
      exact List.mem_map_of_mem (List.mem_of_mem_take member)

end Hostile

end Nut
