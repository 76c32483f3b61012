import Nut.Drivers.HidPaths

set_option autoImplicit false

namespace Nut

def components (string : CString) : List CString :=
  strtok 46 string

def CompletePath (string : CString) (into : HIDPath) (utab : UsageTables) : Prop :=
  ∃ path depth, stringToPath string into utab = .ok (path, depth) ∧ path.node.length = pathSize ∧
    path.size ≤ pathSize ∧ path.size = (components string).length

structure CompleteText (string : CString) (utab : UsageTables) : Prop where
  few : (components string).length ≤ pathSize
  copied : (components (snprintf smallbuf string)).length = (components string).length
  readable : ∀ token ∈ components (snprintf smallbuf string), (tokenNode token utab).isSome = true

section Tokens

theorem strtok_cons_length {delimiter b : UInt8} (other : b ≠ delimiter) (s : CString) :
    (strtok delimiter (b :: s)).length =
      (strtok delimiter s).length + if s = [] ∨ s.head? = some delimiter then 1 else 0 := by
  unfold strtok
  rw [List.splitOn_cons_eq_if_modifyHead, if_neg (by simpa using other)]
  cases s with
  | nil => simp
  | cons c s =>
    rw [List.splitOn_cons_eq_if_modifyHead]
    by_cases here : c = delimiter
    · simp [here]
    · rw [if_neg (by simpa using here)]
      obtain ⟨piece, rest, pieces⟩ := List.exists_cons_of_ne_nil (List.splitOn_ne_nil delimiter s)
      simp [pieces, here]

theorem strtok_pos {delimiter b : UInt8} (other : b ≠ delimiter) (s : CString) :
    0 < (strtok delimiter (b :: s)).length := by
  induction s generalizing b with
  | nil => rw [strtok_cons_length other, if_pos (Or.inl rfl)]; omega
  | cons c s ih =>
    rw [strtok_cons_length other]
    by_cases here : c = delimiter
    · rw [if_pos (Or.inr (by rw [here]; rfl))]
      omega
    · have := ih here
      omega

theorem strtok_append_length (delimiter : UInt8) (front rest : CString) :
    (strtok delimiter front).length ≤ (strtok delimiter (front ++ rest)).length := by
  induction front with
  | nil => simp [strtok]
  | cons b front ih =>
    by_cases here : b = delimiter
    · have skipped (s : CString) : strtok delimiter (b :: s) = strtok delimiter s := by
        simp [strtok, List.splitOn_cons_eq_if_modifyHead, here]
      rw [List.cons_append, skipped, skipped]
      exact ih
    · rw [List.cons_append, strtok_cons_length here, strtok_cons_length here]
      cases front with
      | nil =>
        cases rest with
        | nil => simp
        | cons c rest =>
          by_cases dot : c = delimiter
          · simp [dot, strtok]
          · have some_ := strtok_pos dot rest
            have none_ : (strtok delimiter []).length = 0 := by simp [strtok]
            rw [List.nil_append, none_, if_pos (Or.inl rfl)]
            omega
      | cons c front => simpa using ih

end Tokens

section Paths

variable {utab : UsageTables}

theorem storeNodes_beyond (tokens : List CString) (done rest : List UInt32)
    (beyond : rest.length < (tokens.filterMap (tokenNode · utab)).length) :
    tokens.foldlM (storeNode utab) (done ++ rest, done.length) = .error .outOfBounds := by
  induction tokens generalizing done rest with
  | nil => simp at beyond
  | cons token tokens ih =>
    rw [List.foldlM_cons]
    cases read : tokenNode token utab with
    | none =>
      simp only [List.filterMap_cons, read] at beyond
      have step : storeNode utab (done ++ rest, done.length) token = .ok (done ++ rest, done.length) := by
        rw [storeNode, read]
      rw [step]
      exact ih done rest beyond
    | some node =>
      simp only [List.filterMap_cons, read, List.length_cons] at beyond
      cases rest with
      | nil =>
        have step : storeNode utab (done ++ [], done.length) token = .error .outOfBounds := by
          rw [storeNode, read]
          simp [writeAt, Except.map]
        rw [step]
        rfl
      | cons old rest =>
        have step : storeNode utab (done ++ old :: rest, done.length) token =
            .ok (done ++ [node] ++ rest, (done ++ [node]).length) := by
          rw [storeNode, read]
          simp [writeAt, Except.map]
        rw [step]
        exact ih (done ++ [node]) rest (by simpa using beyond)

theorem stringToPath_cases (string : CString) {into : HIDPath} (room : into.node.length = pathSize) :
    ((components (snprintf smallbuf string)).filterMap (tokenNode · utab)).length ≤ pathSize ∧
        (∃ path depth, stringToPath string into utab = .ok (path, depth) ∧ path.node.length = pathSize ∧
          path.size = ((components (snprintf smallbuf string)).filterMap (tokenNode · utab)).length) ∨
      pathSize < ((components (snprintf smallbuf string)).filterMap (tokenNode · utab)).length ∧
        stringToPath string into utab = .error .outOfBounds := by
  have tokens : strtok 46 (snprintf smallbuf string) = components (snprintf smallbuf string) := rfl
  by_cases few : ((components (snprintf smallbuf string)).filterMap (tokenNode · utab)).length ≤ pathSize
  · have stored := @storeNodes_ok utab (components (snprintf smallbuf string)) [] into.node
      (by rw [room]; exact few)
    simp only [List.nil_append, List.length_nil, Nat.zero_add] at stored
    refine Or.inl ⟨few, _, _, by rw [stringToPath, tokens, stored]; rfl, ?_, ?_⟩
    · simp only [List.length_append, List.length_drop, room]
      omega
    · simp only
      rw [Nat.mod_eq_of_lt]
      simp only [pathSize] at few
      omega
  · have beyond := @storeNodes_beyond utab (components (snprintf smallbuf string)) [] into.node
      (by rw [room]; omega)
    refine Or.inr ⟨by omega, ?_⟩
    simp only [List.nil_append, List.length_nil] at beyond
    rw [stringToPath, tokens, beyond]
    rfl

theorem filterMap_length {read : CString -> Option UInt32} {tokens : List CString} :
    (tokens.filterMap read).length = tokens.length ↔ ∀ token ∈ tokens, (read token).isSome = true := by
  induction tokens with
  | nil => simp
  | cons token tokens ih =>
    have fewer := List.length_filterMap_le read tokens
    cases value : read token with
    | none => simp [value]; omega
    | some node => simp [value, ih]

-- A path is stored whole exactly if its text is copied whole, all of it can be read and there is room for it.
theorem stringToPath_complete (string : CString) {into : HIDPath} (room : into.node.length = pathSize) :
    CompletePath string into utab ↔ CompleteText string utab := by
  have read := List.length_filterMap_le (tokenNode · utab) (components (snprintf smallbuf string))
  have copied : (components (snprintf smallbuf string)).length ≤ (components string).length := by
    have whole := strtok_append_length 46 (snprintf smallbuf string) (string.drop (smallbuf - 1))
    rwa [snprintf, List.take_append_drop] at whole
  obtain ⟨few, path, depth, stored, node, size⟩ | ⟨many, fault⟩ := @stringToPath_cases utab string into room
  · constructor
    · rintro ⟨path', depth', stored', _, short, complete⟩
      obtain ⟨rfl, _⟩ := Prod.mk.inj (Except.ok.inj (stored.symm.trans stored'))
      exact ⟨by omega, by omega, filterMap_length.mp (by omega)⟩
    · rintro ⟨_, own, readable⟩
      have all := filterMap_length.mpr readable
      exact ⟨path, depth, stored, node, by omega, by omega⟩
  · constructor
    · rintro ⟨path', depth', stored, _⟩
      cases fault.symm.trans stored
    · rintro ⟨short, _, _⟩
      omega

theorem named_isSome {entry : UsageLkp} (member : entry ∈ hidUsageLkp) :
    (tokenNode entry.usageName usageTables).isSome = true := by
  rw [tokenNode, hidLookupUsage_entry member]
  rfl

theorem stringToPath_complete_sample :
    CompletePath (cstr "UPS.PowerSummary.[3].ff860024") HIDData.zero.path usageTables := by
  have tokens : components (snprintf smallbuf (cstr "UPS.PowerSummary.[3].ff860024")) =
      [cstr "UPS", cstr "PowerSummary", 91 :: (printInt 3 ++ [93]), printHex 8 0xff860024] := by decide +kernel
  have ups : hidUsageLkp[4]? = some ⟨cstr "UPS", 0x00840004⟩ := rfl
  have summary : hidUsageLkp[26]? = some ⟨cstr "PowerSummary", 0x00840024⟩ := rfl
  have readable : ∀ token ∈ components (snprintf smallbuf (cstr "UPS.PowerSummary.[3].ff860024")),
      (tokenNode token usageTables).isSome = true := by
    rw [tokens]
    simp only [List.forall_mem_cons]
    refine ⟨named_isSome (List.mem_of_getElem? ups), named_isSome (List.mem_of_getElem? summary), ?_, ?_, by simp⟩
    · exact Option.isSome_of_eq_some (@tokenNode_index 3 (by decide) [93] (Or.inr rfl))
    · exact Option.isSome_of_eq_some (@tokenNode_printHex 8 0xff860024 (by decide) (by decide))
  exact (stringToPath_complete _ rfl).mpr ⟨by decide, by decide +kernel, readable⟩

-- Eleven components leave the array, and a name that the tables do not have is left out.
theorem stringToPath_incomplete :
    stringToPath (cstr "1.2.3.4.5.6.7.8.9.a.b") HIDData.zero.path usageTables = .error .outOfBounds ∧
      ¬ CompletePath (cstr "1.2.3.4.5.6.7.8.9.a.b") HIDData.zero.path usageTables ∧
      ¬ CompletePath (cstr "UPS.NoSuchName.Voltage") HIDData.zero.path usageTables := by
  have digits : components (snprintf smallbuf (cstr "1.2.3.4.5.6.7.8.9.a.b")) =
      (List.range 11).map fun digit => printHex 1 (digit + 1) := by decide +kernel
  have readable : ∀ token ∈ components (snprintf smallbuf (cstr "1.2.3.4.5.6.7.8.9.a.b")),
      (tokenNode token usageTables).isSome = true := by
    rw [digits]
    intro token member
    obtain ⟨digit, below, rfl⟩ := List.mem_map.mp member
    have small := List.mem_range.mp below
    exact Option.isSome_of_eq_some (tokenNode_printHex (by decide) (by omega))
  have fault : stringToPath (cstr "1.2.3.4.5.6.7.8.9.a.b") HIDData.zero.path usageTables = .error .outOfBounds := by
    obtain ⟨few, _⟩ | ⟨_, fault⟩ := @stringToPath_cases usageTables (cstr "1.2.3.4.5.6.7.8.9.a.b") HIDData.zero.path rfl
    · rw [filterMap_length.mpr readable, digits] at few
      exact absurd few (by decide)
    · exact fault
  have stored : stringToPath (cstr "UPS.NoSuchName.Voltage") HIDData.zero.path usageTables =
      .ok ({ size := 2, node := [0x00840004, 0x00840030, 0, 0, 0, 0, 0, 0, 0, 0] }, 2) := by
    decide +kernel
  refine ⟨fault, ?_, ?_⟩
  · rintro ⟨path, depth, other, _⟩
    cases fault.symm.trans other
  · rintro ⟨path, depth, other, _, _, complete⟩
    cases stored.symm.trans other
    exact absurd complete (by decide)

end Paths

end Nut
