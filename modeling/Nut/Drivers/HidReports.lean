import Nut.Drivers.HidValues
import Nut.Drivers.HidOffsets
import Nut.Drivers.Libhid

set_option autoImplicit false

namespace Nut

section Bytes

variable {front back : List UInt8}

theorem getBit_append {pos : Nat} (inside : pos < 8 * front.length) :
    getBit (front ++ back) pos = getBit front pos := by
  rw [getBit, getBit, List.getElem?_append_left (by omega)]

theorem setBit_append {pos : Nat} (inside : pos < 8 * front.length) (state : Bool) :
    setBit (front ++ back) pos state = (setBit front pos state).map (· ++ back) := by
  have index : pos / 8 < front.length := by omega
  rw [setBit, setBit, List.getElem?_append_left index, Option.map_map]
  congr 1
  funext byte
  simp [List.set_append_left _ _ index]

theorem getValueLoop_append {count weight bit : Nat} {value : BitVec 64} (room : bit + count ≤ 8 * front.length) :
    ∃ read, getValueLoop front count weight bit value = some read ∧
      getValueLoop (front ++ back) count weight bit value = some read := by
  induction count generalizing weight bit value with
  | zero => exact ⟨value, rfl, rfl⟩
  | succ count ih =>
    have inside : bit < 8 * front.length := by omega
    simp only [getValueLoop, getBit_append inside, getBit_inside inside, Option.bind_some]
    exact ih (by omega)

theorem setValueLoop_append {value : BitVec 64} {count weight bit : Nat} (room : bit + count ≤ 8 * front.length) :
    ∃ written, setValueLoop value count weight bit front = some written ∧ written.length = front.length ∧
      setValueLoop value count weight bit (front ++ back) = some (written ++ back) := by
  induction count generalizing weight bit front with
  | zero => exact ⟨front, rfl, rfl, rfl⟩
  | succ count ih =>
    have inside : bit < 8 * front.length := by omega
    obtain ⟨next, set, length, _⟩ := setBit_inside inside (value &&& (1#64 <<< weight) != 0)
    obtain ⟨written, loop, same, whole⟩ := @ih next (weight + 1) (bit + 1) (by omega)
    refine ⟨written, ?_, by rw [same, length], ?_⟩
    · rw [setValueLoop, set, Option.bind_some, loop]
    · rw [setValueLoop, setBit_append inside, set, Option.map_some, Option.bind_some, whole]

end Bytes

def ReportBuf.Confined (rbuf : ReportBuf) (item : HIDData) : Prop :=
  ∃ front back, rbuf.data item.reportID = some (front ++ back) ∧ front.length = rbuf.len item.reportID ∧
    (∃ value, getValue front item = some value ∧ getValue (front ++ back) item = some value) ∧
    ∀ value, ∃ written, setValue item front value = some written ∧ written.length = front.length ∧
      setValue item (front ++ back) value = some (written ++ back)

structure ReportBuf.Sound (rbuf : ReportBuf) (desc : HIDDesc) : Prop where
  memory : ∀ id data, rbuf.data id = some data ->
    data.length = rbuf.cap id ∧ rbuf.len id = desc.reportLength id + 1 ∧ rbuf.len id ≤ data.length
  missing : ∀ id, rbuf.data id = none -> rbuf.len id = 0

def ReportOp.items : ReportOp -> List HIDData
  | .getItem pData _ _ => [pData]
  | .setItem pData _ _ => [pData]
  | .fileReport _ _ _ => []

section Buffers

variable {rbuf rbuf' : ReportBuf} {desc : HIDDesc} {item : HIDData}

theorem confined_of_sound (sound : rbuf.Sound desc) (allocated : (rbuf.data item.reportID).isSome = true)
    (covers : desc.Covers item) : rbuf.Confined item := by
  obtain ⟨data, here⟩ := Option.isSome_iff_exists.mp allocated
  obtain ⟨_, len, enough⟩ := sound.memory item.reportID data here
  have split : data = data.take (rbuf.len item.reportID) ++ data.drop (rbuf.len item.reportID) :=
    (List.take_append_drop _ _).symm
  have length : (data.take (rbuf.len item.reportID)).length = rbuf.len item.reportID := by
    rw [List.length_take]
    omega
  have room : item.offset.toNat + 8 + item.size.toNat ≤ 8 * (data.take (rbuf.len item.reportID)).length := by
    rw [length, len]
    unfold HIDDesc.Covers at covers
    omega
  rw [split] at here
  refine ⟨_, _, here, length, ?_, fun value => setValueLoop_append room⟩
  obtain ⟨read, first, second⟩ := getValueLoop_append room
  exact ⟨_, by rw [getValue, first]; rfl, by rw [getValue, second]; rfl⟩

structure Keeps (rbuf rbuf' : ReportBuf) : Prop where
  len : rbuf'.len = rbuf.len
  cap : rbuf'.cap = rbuf.cap
  data : ∀ id, (rbuf'.data id).map List.length = (rbuf.data id).map List.length

theorem keeps_ts (rbuf : ReportBuf) (ts : UInt8 -> Int) : Keeps rbuf { rbuf with ts } := ⟨rfl, rfl, fun _ => rfl⟩

theorem keeps_data {id : UInt8} {data data' : List UInt8} (here : rbuf.data id = some data)
    (same : data'.length = data.length) (ts : UInt8 -> Int) :
    Keeps rbuf { rbuf with ts, data := Function.update rbuf.data id (some data') } := by
  refine ⟨rfl, rfl, fun other => ?_⟩
  by_cases own : other = id
  · simp [own, here, same]
  · simp [own]

theorem Keeps.trans {rbuf'' : ReportBuf} (first : Keeps rbuf rbuf') (second : Keeps rbuf' rbuf'') : Keeps rbuf rbuf'' :=
  ⟨second.len.trans first.len, second.cap.trans first.cap, fun id => (second.data id).trans (first.data id)⟩

theorem Keeps.isSome (keeps : Keeps rbuf rbuf') (id : UInt8) : (rbuf'.data id).isSome = (rbuf.data id).isSome := by
  have same := congrArg Option.isSome (keeps.data id)
  simpa using same

theorem Keeps.sound (keeps : Keeps rbuf rbuf') (sound : rbuf.Sound desc) : rbuf'.Sound desc := by
  refine ⟨fun id data' here => ?_, fun id none_ => ?_⟩
  · have lengths := keeps.data id
    rw [here, Option.map_some] at lengths
    obtain ⟨data, old, same⟩ := Option.map_eq_some_iff.mp lengths.symm
    rw [keeps.cap, keeps.len, <- same]
    exact sound.memory id data old
  · have lengths := keeps.data id
    rw [none_, Option.map_none] at lengths
    rw [keeps.len]
    exact sound.missing id (Option.map_eq_none_iff.mp lengths.symm)

theorem memcpy_ok {dest src : List UInt8} (room : src.length ≤ dest.length) :
    ∃ copied, memcpy dest src = some copied ∧ copied.length = dest.length := by
  refine ⟨_, if_pos room, ?_⟩
  rw [List.length_append, List.length_drop]
  omega

theorem refreshReportBuffer_ok (sound : rbuf.Sound desc) (allocated : (rbuf.data item.reportID).isSome = true)
    (setup : HidSetup) (transfer : Transfer) (age : Int) :
    ∃ rbuf' fresh, refreshReportBuffer setup transfer age item rbuf = some (rbuf', fresh) ∧ Keeps rbuf rbuf' := by
  unfold refreshReportBuffer
  by_cases good : setup.interruptOnly ∨ rbuf.ts item.reportID + age > transfer.now
  · exact ⟨rbuf, true, if_pos good, keeps_ts rbuf rbuf.ts⟩
  · obtain ⟨data, here⟩ := Option.isSome_iff_exists.mp allocated
    obtain ⟨capacity, _⟩ := sound.memory item.reportID data here
    generalize asked : (if rbuf.cap item.reportID > setup.charbufsizeMax then
      min (setup.charbufsizeMax - 1) (rbuf.cap item.reportID) else rbuf.cap item.reportID) = r
    have few : (transfer.bytes.take r).length ≤ data.length := by
      rw [List.length_take, capacity, <- asked]
      split <;> omega
    obtain ⟨copied, copy, length⟩ := memcpy_ok few
    simp only [if_neg good, here, Option.bind_some, asked, copy, Option.map_some]
    by_cases failed : transfer.ret ≤ 0
    · exact ⟨_, _, by rw [if_pos failed], keeps_data here length rbuf.ts⟩
    · exact ⟨_, _, by rw [if_neg failed], keeps_data here length _⟩

theorem getItemBuffered_ok (sound : rbuf.Sound desc) (allocated : (rbuf.data item.reportID).isSome = true)
    (covers : desc.Covers item) (setup : HidSetup) (transfer : Transfer) (age : Int) :
    ∃ rbuf' value, getItemBuffered setup transfer age item rbuf = some (rbuf', value) ∧ Keeps rbuf rbuf' := by
  obtain ⟨rbuf', fresh, refreshed, keeps⟩ := refreshReportBuffer_ok sound allocated setup transfer age
  unfold getItemBuffered
  rw [refreshed, Option.bind_some]
  cases fresh with
  | false => exact ⟨rbuf', none, rfl, keeps⟩
  | true =>
    have here : (rbuf'.data item.reportID).isSome = true := by rw [keeps.isSome]; exact allocated
    obtain ⟨front, back, data, _, ⟨value, _, read⟩, _⟩ := confined_of_sound (keeps.sound sound) here covers
    refine ⟨rbuf', some value, ?_, keeps⟩
    simp [data, read]

theorem setItemBuffered_ok (sound : rbuf.Sound desc) (allocated : (rbuf.data item.reportID).isSome = true)
    (covers : desc.Covers item) (setup : HidSetup) (transfer : Transfer) (value : Int64) :
    ∃ rbuf', setItemBuffered setup transfer item value rbuf = some rbuf' ∧ Keeps rbuf rbuf' := by
  obtain ⟨front, back, data, length, _, writes⟩ := confined_of_sound sound allocated covers
  obtain ⟨written, _, same, wrote⟩ := writes value
  have enough : ¬ (written ++ back).length <
      (if rbuf.len item.reportID > setup.charbufsizeMax then setup.charbufsizeMax - 1 else rbuf.len item.reportID) := by
    rw [List.length_append, same, length]
    split <;> omega
  have kept : (written ++ back).length = (front ++ back).length := by simp [same]
  unfold setItemBuffered
  simp only [data, Option.bind_some, wrote, enough, if_false]
  split
  · exact ⟨_, rfl, keeps_data data kept rbuf.ts⟩
  · exact ⟨_, rfl, keeps_data data kept _⟩

theorem fileReportBuffer_ok (sound : rbuf.Sound desc) (transfer : Transfer) (id : UInt8) (rest : List UInt8) :
    ∃ rbuf', fileReportBuffer transfer id rest rbuf = some rbuf' ∧ Keeps rbuf rbuf' := by
  unfold fileReportBuffer
  cases here : rbuf.data id with
  | none =>
    rw [sound.missing id here]
    exact ⟨_, rfl, keeps_ts rbuf _⟩
  | some data =>
    obtain ⟨_, _, enough⟩ := sound.memory id data here
    obtain ⟨copied, copy, length⟩ := @memcpy_ok data ((id :: rest).take (rbuf.len id)) (by
      rw [List.length_take]
      omega)
    simp only [copy, Option.map_some]
    exact ⟨_, rfl, keeps_data here length _⟩

theorem reportStep_ok (sound : rbuf.Sound desc) (setup : HidSetup) {op : ReportOp}
    (known : ∀ item ∈ op.items, (rbuf.data item.reportID).isSome = true ∧ desc.Covers item) :
    ∃ rbuf', reportStep setup rbuf op = some rbuf' ∧ Keeps rbuf rbuf' := by
  cases op with
  | getItem item age transfer =>
    obtain ⟨allocated, covers⟩ := known item (List.mem_singleton.mpr rfl)
    obtain ⟨rbuf', value, read, keeps⟩ := getItemBuffered_ok sound allocated covers setup transfer age
    exact ⟨rbuf', by rw [reportStep, read]; rfl, keeps⟩
  | setItem item value transfer =>
    obtain ⟨allocated, covers⟩ := known item (List.mem_singleton.mpr rfl)
    exact setItemBuffered_ok sound allocated covers setup transfer value
  | fileReport id rest transfer => exact fileReportBuffer_ok sound transfer id rest

theorem reportRun_ok {ops : List ReportOp} (sound : rbuf.Sound desc) (setup : HidSetup)
    (known : ∀ op ∈ ops, ∀ item ∈ op.items, (rbuf.data item.reportID).isSome = true ∧ desc.Covers item) :
    ∃ rbuf', reportRun setup rbuf ops = some rbuf' ∧ Keeps rbuf rbuf' := by
  induction ops generalizing rbuf with
  | nil => exact ⟨rbuf, rfl, keeps_ts rbuf rbuf.ts⟩
  | cons op ops ih =>
    obtain ⟨next, step, first⟩ := reportStep_ok sound setup (known op List.mem_cons_self)
    have later : ∀ op ∈ ops, ∀ item ∈ op.items, (next.data item.reportID).isSome = true ∧ desc.Covers item := by
      intro op member item used
      rw [first.isSome]
      exact known op (List.mem_cons_of_mem _ member) item used
    obtain ⟨rbuf', run, rest⟩ := ih (first.sound sound) later
    refine ⟨rbuf', ?_, first.trans rest⟩
    rw [reportRun, List.foldlM_cons, step]
    exact run

end Buffers

section Allocation

variable {desc : HIDDesc} {maxReportSize : Nat}

theorem sound_start (desc : HIDDesc) : ReportBuf.empty.Sound desc where
  memory := fun _ _ here => absurd here (by simp [ReportBuf.empty])
  missing := fun _ _ => rfl

theorem short_start : HIDDesc.empty.Short := by
  intro id
  have nothing : HIDDesc.empty.reportLength id = 0 := by
    rw [HIDDesc.reportLength, HIDDesc.empty, List.getElem?_replicate]
    split <;> rfl
  omega

theorem allocReport_sound (short : desc.Short) {rbuf : ReportBuf} (sound : rbuf.Sound desc) (pData : HIDData) :
    (allocReport maxReportSize desc rbuf pData).Sound desc ∧
      ((allocReport maxReportSize desc rbuf pData).data pData.reportID).isSome = true ∧
      ∀ id, (rbuf.data id).isSome = true -> ((allocReport maxReportSize desc rbuf pData).data id).isSome = true := by
  unfold allocReport
  by_cases already : (rbuf.data pData.reportID).isSome = true
  · rw [if_pos already]
    exact ⟨sound, already, fun id there => there⟩
  · rw [if_neg already]
    refine ⟨⟨fun id data here => ?_, fun id missing => ?_⟩, by simp, fun id there => ?_⟩
    · by_cases own : id = pData.reportID
      · subst own
        have fits := short pData.reportID
        simp only [Function.update_self, Option.some.injEq] at here ⊢
        rw [<- here, List.length_replicate]
        unfold HIDDesc.reportLength at fits ⊢
        refine ⟨rfl, rfl, ?_⟩
        unfold maxReportAlloc
        split <;> omega
      · simp only [Function.update_of_ne own] at here ⊢
        exact sound.memory id data here
    · by_cases own : id = pData.reportID
      · simp [own] at missing
      · simp only [Function.update_of_ne own] at missing ⊢
        exact sound.missing id missing
    · by_cases own : id = pData.reportID
      · simp [own]
      · simpa [Function.update_of_ne own] using there

theorem allocReports_sound (short : desc.Short) (items : List HIDData) {rbuf : ReportBuf} (sound : rbuf.Sound desc) :
    (items.foldl (allocReport maxReportSize desc) rbuf).Sound desc ∧
      (∀ item ∈ items, ((items.foldl (allocReport maxReportSize desc) rbuf).data item.reportID).isSome = true) ∧
      ∀ id, (rbuf.data id).isSome = true ->
        ((items.foldl (allocReport maxReportSize desc) rbuf).data id).isSome = true := by
  induction items generalizing rbuf with
  | nil => exact ⟨sound, fun item member => absurd member (by simp), fun id there => there⟩
  | cons first items ih =>
    obtain ⟨next, own, kept⟩ := @allocReport_sound desc maxReportSize short rbuf sound first
    obtain ⟨last, each, still⟩ := ih next
    refine ⟨last, fun item member => ?_, fun id there => still id (kept id there)⟩
    rcases List.mem_cons.mp member with same | later
    · rw [same]
      exact still _ own
    · exact each item later

end Allocation

theorem parseReportDesc_ok {reportDesc : List UInt8} {desc : HIDDesc}
    (accepted : parseReportDesc reportDesc = .ok (some desc)) : desc.Short ∧ ∀ item ∈ desc.item, desc.Covers item := by
  have parsed := parseFields_ok reportDesc
  unfold parseReportDesc at accepted
  cases result : (parseFields reportDesc).2 with
  | error fault => simp [result, Except.map] at accepted
  | ok whole =>
    simp only [result, Except.map, Except.ok.injEq] at accepted
    split at accepted
    · cases accepted
    · cases accepted
      refine ⟨parsed.short whole result short_start, fun item member => ?_⟩
      rcases parsed.items whole result item member with field | old
      · exact (parsed.covered whole result).1 item field
      · exact absurd old List.not_mem_nil

-- The reports are large enough, whatever is read, written or received.
theorem reports_confined {reportDesc : List UInt8} {desc : HIDDesc}
    (accepted : parseReportDesc reportDesc = .ok (some desc)) (maxReportSize : Nat) (setup : HidSetup)
    {ops : List ReportOp} (items : ∀ op ∈ ops, ∀ item ∈ op.items, item ∈ desc.item) :
    ∃ rbuf, reportRun setup (newReportBuffer maxReportSize desc) ops = some rbuf ∧
      ∀ item ∈ desc.item, rbuf.Confined item := by
  obtain ⟨short, covers⟩ := parseReportDesc_ok accepted
  obtain ⟨sound, allocated, _⟩ := @allocReports_sound desc maxReportSize short desc.item .empty (sound_start desc)
  obtain ⟨rbuf, run, keeps⟩ := @reportRun_ok _ desc ops sound setup fun op member item used =>
    ⟨allocated item (items op member item used), covers item (items op member item used)⟩
  refine ⟨rbuf, run, fun item member => confined_of_sound (keeps.sound sound) ?_ (covers item member)⟩
  rw [keeps.isSome]
  exact allocated item member

def overlapDesc : HIDDesc :=
  { nitems := 2, item := [overlapField 0x00840040, overlapField 0x00840041], replen := 1 :: List.replicate 255 0 }

def overlapOps (transfer : Transfer) : List ReportOp :=
  [.getItem (overlapField 0x00840040) 0 transfer, .setItem (overlapField 0x00840041) 7 transfer,
    .fileReport 0 [1, 2, 3] transfer]

theorem reports_confined_sample : parseReportDesc overlapDescriptor = .ok (some overlapDesc) ∧
      ∃ rbuf, reportRun { interruptOnly := false, charbufsizeMax := 65535 } (newReportBuffer 0 overlapDesc)
        (overlapOps { now := 100, bytes := [0, 42], ret := 2 }) = some rbuf ∧
        ∀ item ∈ overlapDesc.item, rbuf.Confined item := by
  have accepted : parseReportDesc overlapDescriptor = .ok (some overlapDesc) := by decide +kernel
  refine ⟨accepted, reports_confined accepted 0 _ ?_⟩
  have fields : overlapDesc.item = [overlapField 0x00840040, overlapField 0x00840041] := rfl
  simp [overlapOps, ReportOp.items, fields]

end Nut
