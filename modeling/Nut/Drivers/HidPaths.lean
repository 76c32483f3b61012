import Nut.Common.Decimal
import Nut.Drivers.HidNames
import Nut.Library.BitField

set_option autoImplicit false

namespace Nut

section Digits

theorem tolower_class (b : UInt8) : isxdigit (tolower b) = isxdigit b ∧ isIndexByte (tolower b) = isIndexByte b := by
  have checked : ∀ n : Fin 256, isxdigit (tolower (UInt8.ofFin n)) = isxdigit (UInt8.ofFin n) ∧
      isIndexByte (tolower (UInt8.ofFin n)) = isIndexByte (UInt8.ofFin n) := by
    decide +kernel
  exact checked b.toFin

theorem isxdigit_xdigit {digit : Nat} (small : digit < 16) :
    isxdigit (xdigit digit) = true ∧ xdigitValue (xdigit digit) = digit ∧ xdigit digit ≠ 46 := by
  have checked : ∀ digit : Fin 16, isxdigit (xdigit digit.val) = true ∧ xdigitValue (xdigit digit.val) = digit.val ∧
      xdigit digit.val ≠ 46 := by
    decide
  exact checked ⟨digit, small⟩

theorem printHex_digits (width n : Nat) : ∀ b ∈ printHex width n, isxdigit b = true ∧ b ≠ 46 := by
  induction width generalizing n with
  | zero => simp [printHex]
  | succ width ih =>
    intro b member
    rcases List.mem_append.mp member with front | last
    · exact ih _ b front
    · obtain ⟨digit, _, noDot⟩ := isxdigit_xdigit (Nat.mod_lt n (by decide : 0 < 16))
      rw [List.mem_singleton.mp last]
      exact ⟨digit, noDot⟩

@[simp] theorem printHex_length (width n : Nat) : (printHex width n).length = width := by
  induction width generalizing n with
  | zero => rfl
  | succ width ih => simp [printHex, ih]

theorem printHex_value (width n : Nat) :
    (printHex width n).foldl (fun value b => 16 * value + xdigitValue b) 0 = n % 16 ^ width := by
  induction width generalizing n with
  | zero => simp [printHex, Nat.mod_one]
  | succ width ih =>
    obtain ⟨_, value, _⟩ := isxdigit_xdigit (Nat.mod_lt n (by decide : 0 < 16))
    rw [printHex, List.foldl_append, ih, List.foldl_cons, List.foldl_nil, value, Nat.pow_succ', Nat.mod_mul]
    omega

end Digits

section Tokens

variable {node : UInt32}

theorem all_append_false {isDigit : UInt8 -> Bool} {s : CString} (cut : s.dropLast.all isDigit = false) :
    s.all isDigit = false := by
  rw [List.all_eq_false] at cut ⊢
  obtain ⟨b, member, other⟩ := cut
  exact ⟨b, List.dropLast_subset _ member, other⟩

theorem tokenNode_printHex {width n : Nat} (narrow : width ≤ 8) (small : n < 16 ^ width) :
    tokenNode (printHex width n) usageTables = some (UInt32.ofNat n) := by
  have digits : (printHex width n).all isxdigit = true :=
    List.all_eq_true.mpr fun b member => (printHex_digits width n b member).1
  have unnamed := hidLookupUsage_none (fun b => (tolower_class b).1) (fun entry member =>
    all_append_false (usage_fine member).notHex) digits
  have value := printHex_value width n
  rw [Nat.mod_eq_of_lt small] at value
  have bound : n < 2 ^ 32 := Nat.lt_of_lt_of_le small (Nat.pow_le_pow_right (by decide) narrow)
  have long : strtolHex (printHex width n) = n := by
    rw [strtolHex, value]
    simp only [longMax]
    omega
  rw [tokenNode, unnamed]
  simp only [digits, if_true, long]
  rw [if_neg (by simp only [uint32Max]; omega), UInt32.ofInt, Int.emod_eq_of_lt (by omega) (by omega),
    Int.toNat_natCast]

theorem tokenNode_index {n : Nat} (small : n < 2 ^ 16) {rest : CString} (bracket : rest = [] ∨ rest = [93]) :
    tokenNode (91 :: (printInt n ++ rest)) usageTables = some (0x00ff0000 + UInt32.ofNat n) := by
  have digits : (91 :: (printInt n ++ rest) : CString).all isIndexByte = true := by
    rw [List.all_cons, List.all_append]
    have number : (printInt n).all isIndexByte = true :=
      List.all_eq_true.mpr fun b member => by simp [isIndexByte, printInt_digits n b member]
    rw [number]
    rcases bracket with none_ | some_
    · subst none_; decide
    · subst some_; decide
  have unnamed := hidLookupUsage_none (fun b => (tolower_class b).2) (fun entry member =>
    all_append_false (usage_fine member).notIndex) digits
  have notHex : (91 :: (printInt n ++ rest) : CString).all isxdigit = false := by
    rw [List.all_cons]
    rfl
  have stop : rest.takeWhile isdigit = [] := by
    rcases bracket with none_ | some_
    · subst none_; rfl
    · subst some_; decide
  have number : atoi (printInt n ++ rest) = Int32.ofNat n := by
    rw [atoi, strtol_printInt_append (by simp only [longMin]; omega) (by simp only [longMax]; omega) stop,
      Int64.toInt32_ofInt, Int32.ofInt_eq_ofNat]
  have positive : ¬ Int32.ofNat n < 0 := by
    rw [Int32.lt_iff_toInt_lt, Int32.toInt_ofNat_of_lt (by omega)]
    simp
  rw [tokenNode, unnamed]
  simp only [notHex, digits, if_true, List.drop_succ_cons, List.drop_zero, number, positive, if_false]
  rfl

theorem indexed_eq (indexed : isIndexed node) : 0x00ff0000 + (node &&& 0x0000ffff) = node := by
  rw [<- indexed]
  exact UInt32.toBitVec_inj.mp (mask_add node.toBitVec 0xffff0000#32)

theorem index_small (node : UInt32) : (node &&& 0x0000ffff).toNat < 2 ^ 16 :=
  Nat.lt_of_le_of_lt Nat.and_le_right (by decide)

theorem nodeText_cases (node : UInt32) :
    (∃ entry ∈ hidUsageLkp, entry.usageCode = node ∧ nodeText (some usageTables) node = entry.usageName) ∨
      hidLookupPath node usageTables = none ∧ isIndexed node ∧
        nodeText (some usageTables) node = 91 :: (printInt (node &&& 0x0000ffff).toNat ++ [93]) ∨
      hidLookupPath node usageTables = none ∧ ¬ isIndexed node ∧
        nodeText (some usageTables) node = printHex 8 node.toNat := by
  cases found : hidLookupPath node usageTables with
  | some name =>
    obtain ⟨entry, member, code, named⟩ := hidLookupPath_some found
    exact Or.inl ⟨entry, member, code, by simp [nodeText, found, named]⟩
  | none =>
    by_cases indexed : isIndexed node
    · refine Or.inr (Or.inl ⟨rfl, indexed, ?_⟩)
      simp only [nodeText, Option.bind_some, found]
      rw [if_pos (show node &&& 0xffff0000 = 0x00ff0000 from indexed)]
      rfl
    · refine Or.inr (Or.inr ⟨rfl, indexed, ?_⟩)
      simp only [nodeText, Option.bind_some, found]
      rw [if_neg (show ¬ node &&& 0xffff0000 = 0x00ff0000 from indexed)]

theorem hidLookupPath_isSome {entry : UsageLkp} (member : entry ∈ hidUsageLkp) :
    (hidLookupPath entry.usageCode usageTables).isSome = true := by
  rw [hidLookupPath, Option.isSome_map, List.find?_isSome]
  exact ⟨entry, by simpa [usageTables] using member, by simp⟩

theorem namesake_unnamed (unnamed : hidLookupPath node usageTables = none) : namesake node = node := by
  have undefined_ : hidUsageLkp[78]? = some ⟨cstr "Undefined", 0x00850000⟩ := rfl
  have voltage_ : hidUsageLkp[161]? = some ⟨cstr "VoltageOutOfRange", 0x008500d8⟩ := rfl
  rw [namesake_eq_iff]
  constructor
  · rintro rfl
    have named := hidLookupPath_isSome (List.mem_of_getElem? undefined_)
    rw [unnamed] at named
    cases named
  · rintro rfl
    have named := hidLookupPath_isSome (List.mem_of_getElem? voltage_)
    rw [unnamed] at named
    cases named

theorem tokenNode_nodeText (node : UInt32) :
    tokenNode (nodeText (some usageTables) node) usageTables = some (namesake node) := by
  rcases nodeText_cases node with ⟨entry, member, code, text⟩ | ⟨unnamed, indexed, text⟩ | ⟨unnamed, _, text⟩
  · rw [text, tokenNode, hidLookupUsage_entry member, code]
  · rw [text, tokenNode_index (index_small node) (Or.inr rfl), UInt32.ofNat_toNat, indexed_eq indexed,
      namesake_unnamed unnamed]
  · rw [text, tokenNode_printHex (Nat.le_refl 8) node.toNat_lt, UInt32.ofNat_toNat, namesake_unnamed unnamed]

theorem tokenNode_cut (node : UInt32) :
    tokenNode (nodeText (some usageTables) node).dropLast usageTables = some node ↔ node = 0 ∨ isIndexed node := by
  rcases nodeText_cases node with ⟨entry, member, code, text⟩ | ⟨_, indexed, text⟩ | ⟨_, plain, text⟩
  · have fine := (usage_fine member).code
    have lost := tokenNode_cut_entry member
    rw [code] at fine lost
    rw [text]
    simp [lost, fine]
  · have cut : (91 :: (printInt (node &&& 0x0000ffff).toNat ++ [93]) : CString).dropLast =
        91 :: (printInt (node &&& 0x0000ffff).toNat ++ []) := by
      rw [<- List.cons_append, List.dropLast_concat, List.append_nil]
    rw [text, cut, tokenNode_index (index_small node) (Or.inl rfl), UInt32.ofNat_toNat, indexed_eq indexed]
    simp [indexed]
  · have cut : (printHex 8 node.toNat).dropLast = printHex 7 (node.toNat / 16) :=
      List.dropLast_concat
    have bound := node.toNat_lt
    rw [text, cut, tokenNode_printHex (by decide) (by omega)]
    simp only [Option.some.injEq, plain, or_false]
    constructor
    · intro same
      have value := congrArg UInt32.toNat same
      rw [UInt32.toNat_ofNat', Nat.mod_eq_of_lt (by omega)] at value
      apply UInt32.toNat_inj.mp
      simp only [UInt32.toNat_zero]
      omega
    · intro zero
      rw [zero]
      rfl

theorem nodeText_shape (node : UInt32) : 2 ≤ (nodeText (some usageTables) node).length ∧
    (nodeText (some usageTables) node).length ≤ 27 ∧ 46 ∉ nodeText (some usageTables) node := by
  rcases nodeText_cases node with ⟨entry, member, _, text⟩ | ⟨_, _, text⟩ | ⟨_, _, text⟩
  · have fine := usage_fine member
    rw [text]
    exact ⟨by have := fine.length; omega, fine.length.2, fine.noDot⟩
  · have small := index_small node
    have digits : (printInt (node &&& 0x0000ffff).toNat).length ≤ 6 := printInt_length (by omega) (by decide : 0 < 5)
    rw [text]
    refine ⟨by simp, ?_, ?_⟩
    · rw [List.length_cons, List.length_append, List.length_singleton]
      omega
    intro member
    simp only [List.mem_cons, List.mem_append, List.not_mem_nil, or_false] at member
    rcases member with first | digit | last
    · cases first
    · exact absurd (printInt_digits _ 46 digit) (by decide)
    · cases last
  · rw [text]
    exact ⟨by simp, by simp, fun member => (printHex_digits _ _ 46 member).2 rfl⟩

end Tokens

section Paths

variable {path into : HIDPath} {size : Nat} {utab : Option UsageTables}

def HIDPath.nodes (path : HIDPath) : List UInt32 :=
  path.node.take path.size

def pathText (path : HIDPath) (utab : Option UsageTables) : CString :=
  ([46] : CString).intercalate (path.nodes.map (nodeText utab))

theorem snprintfcat_take (size : Nat) (text more : CString) :
    snprintfcat (text.take (size - 2)) size more = (text ++ more).take (size - 2) := by
  unfold snprintfcat
  rw [if_neg (by rw [List.length_take]; omega), List.length_take, List.take_append]
  by_cases full : size - 2 ≤ text.length
  · rw [Nat.min_eq_left full]
    congr 2
    omega
  · rw [Nat.min_eq_right (by omega)]
    congr 2
    omega

theorem appendNodes_take (nodes : List UInt32) (text : CString) (i : Nat) (later : 0 < i) :
    (nodes.zipIdx i).foldl (appendNode size utab) (text.take (size - 2)) =
      (text ++ (nodes.map fun node => 46 :: nodeText utab node).flatten).take (size - 2) := by
  induction nodes generalizing text i with
  | nil => simp
  | cons node nodes ih =>
    have step : appendNode size utab (text.take (size - 2)) (node, i) =
        (text ++ (46 :: nodeText utab node)).take (size - 2) := by
      unfold appendNode
      simp only [later, if_true]
      rw [snprintfcat_take, snprintfcat_take, List.append_assoc]
      rfl
    rw [List.zipIdx_cons, List.foldl_cons, step, ih _ _ (Nat.succ_pos i)]
    simp

theorem pathToString_eq : (pathToString size path utab).1 = (pathText path utab).take (size - 2) := by
  unfold pathToString pathText HIDPath.nodes
  cases path.node.take path.size with
  | nil => simp [snprintf]
  | cons node nodes =>
    have first : appendNode size utab (snprintf size []) (node, 0) = (nodeText utab node).take (size - 2) := by
      have start := snprintfcat_take size [] (nodeText utab node)
      simpa [appendNode, snprintf] using start
    simp only [List.zipIdx_cons, List.foldl_cons, first, List.map_cons, intercalate_cons_map, List.map_map]
    exact appendNodes_take nodes _ _ (Nat.succ_pos 0)

theorem storeNodes_ok {tables : UsageTables} (tokens : List CString) (done rest : List UInt32)
    (room : (tokens.filterMap (tokenNode · tables)).length ≤ rest.length) :
    tokens.foldlM (storeNode tables) (done ++ rest, done.length) = .ok (done ++ tokens.filterMap (tokenNode · tables) ++
          rest.drop (tokens.filterMap (tokenNode · tables)).length,
        done.length + (tokens.filterMap (tokenNode · tables)).length) := by
  induction tokens generalizing done rest with
  | nil => simp [pure, Except.pure]
  | cons token tokens ih =>
    rw [List.foldlM_cons]
    cases read : tokenNode token tables with
    | none =>
      simp only [List.filterMap_cons, read] at room ⊢
      have step : storeNode tables (done ++ rest, done.length) token = .ok (done ++ rest, done.length) := by
        rw [storeNode, read]
      rw [step]
      exact ih done rest room
    | some node =>
      simp only [List.filterMap_cons, read] at room ⊢
      cases rest with
      | nil => simp at room
      | cons old rest =>
        have step : storeNode tables (done ++ old :: rest, done.length) token =
            .ok (done ++ [node] ++ rest, (done ++ [node]).length) := by
          rw [storeNode, read]
          simp [writeAt, Except.map]
        rw [step]
        refine (ih (done ++ [node]) rest (by simpa using room)).trans ?_
        simp only [List.length_append, List.length_cons, List.length_nil, List.append_assoc, List.drop_succ_cons,
          Except.ok.injEq, Prod.mk.injEq, List.cons_append, List.nil_append, true_and]
        omega

-- The path is read back as it was, into whatever `into` held before.
def RoundTrip (size : Nat) (path into : HIDPath) : Prop :=
  ∃ path' depth, stringToPath (pathToString size path (some usageTables)).1 into usageTables = .ok (path', depth) ∧
    path'.size = path.size ∧ path'.nodes = path.nodes

def readNodes (string : CString) : List UInt32 :=
  (strtok 46 string).filterMap (tokenNode · usageTables)

theorem roundTrip_iff {text : CString} (written : (pathToString size path (some usageTables)).1 = text)
    (short : text.length < smallbuf) (few : (readNodes text).length ≤ pathSize) (room : into.node.length = pathSize)
    (whole : path.nodes.length = path.size) : RoundTrip size path into ↔ readNodes text = path.nodes := by
  have read : stringToPath text into usageTables =
      .ok ({ size := (readNodes text).length % 256,
             node := readNodes text ++ into.node.drop (readNodes text).length },
        (readNodes text).length) := by
    have stored := @storeNodes_ok usageTables (strtok 46 text) [] into.node (by rw [room]; exact few)
    simp only [List.nil_append, List.length_nil, Nat.zero_add] at stored
    rw [stringToPath, snprintf_fits short, stored]
    rfl
  have bound : (readNodes text).length % 256 = (readNodes text).length := by
    rw [Nat.mod_eq_of_lt]
    simp only [pathSize] at few
    omega
  unfold RoundTrip
  rw [written, read, bound]
  constructor
  · rintro ⟨path', depth, same, _, nodes⟩
    cases same
    simpa [HIDPath.nodes] using nodes
  · intro same
    refine ⟨_, _, rfl, ?_, ?_⟩
    · rw [same, whole]
    · simp [HIDPath.nodes, same]

theorem map_namesake {nodes : List UInt32} :
    nodes.map namesake = nodes ↔ ∀ node ∈ nodes, node ≠ 0x00850000 ∧ node ≠ 0x008500d8 := by
  induction nodes with
  | nil => simp
  | cons node nodes ih => simp [namesake_eq_iff, ih]

theorem readNodes_texts (nodes : List UInt32) :
    readNodes (([46] : CString).intercalate (nodes.map (nodeText (some usageTables)))) = nodes.map namesake := by
  have parts : ∀ token ∈ nodes.map (nodeText (some usageTables)), token ≠ [] ∧ 46 ∉ token := by
    intro token member
    obtain ⟨node, _, rfl⟩ := List.mem_map.mp member
    obtain ⟨long, _, noDot⟩ := nodeText_shape node
    exact ⟨fun empty => by simp [empty] at long, noDot⟩
  rw [readNodes, strtok_intercalate parts, List.filterMap_map]
  have each : ((tokenNode · usageTables) ∘ nodeText (some usageTables)) = fun node => some (namesake node) :=
    funext tokenNode_nodeText
  rw [each, List.filterMap_eq_map']

theorem readNodes_cut (front : List UInt32) (last : UInt32) :
    readNodes (([46] : CString).intercalate ((front ++ [last]).map (nodeText (some usageTables)))).dropLast =
      front.map namesake ++ (tokenNode (nodeText (some usageTables) last).dropLast usageTables).toList := by
  obtain ⟨long, _, noDot⟩ := nodeText_shape last
  have some_ : nodeText (some usageTables) last ≠ [] := fun empty => by simp [empty] at long
  have parts : ∀ token ∈ front.map (nodeText (some usageTables)) ++ [(nodeText (some usageTables) last).dropLast],
      token ≠ [] ∧ 46 ∉ token := by
    intro token member
    rcases List.mem_append.mp member with early | late
    · obtain ⟨node, _, rfl⟩ := List.mem_map.mp early
      obtain ⟨longer, _, without⟩ := nodeText_shape node
      exact ⟨fun empty => by simp [empty] at longer, without⟩
    · rw [List.mem_singleton.mp late]
      refine ⟨fun empty => ?_, fun dot => noDot (List.dropLast_subset _ dot)⟩
      have lengths := congrArg List.length empty
      rw [List.length_dropLast, List.length_nil] at lengths
      omega
  rw [List.map_append, List.map_singleton, intercalate_dropLast some_, readNodes, strtok_intercalate parts,
    List.filterMap_append, List.filterMap_map]
  have each : ((tokenNode · usageTables) ∘ nodeText (some usageTables)) = fun node => some (namesake node) :=
    funext tokenNode_nodeText
  rw [each, List.filterMap_eq_map']
  cases read : tokenNode (nodeText (some usageTables) last).dropLast usageTables <;> simp [read]

theorem pathText_short (few : path.nodes.length ≤ pathSize) : (pathText path (some usageTables)).length < smallbuf := by
  have short : ∀ token ∈ path.nodes.map (nodeText (some usageTables)), token.length ≤ 27 := by
    intro token member
    obtain ⟨node, _, rfl⟩ := List.mem_map.mp member
    exact (nodeText_shape node).2.1
  have bound := @intercalate_length _ [46] 27 short
  rw [List.length_map, List.length_singleton] at bound
  simp only [pathSize] at few
  unfold pathText
  simp only [smallbuf]
  omega

section Reading

variable (room : into.node.length = pathSize) (whole : path.nodes.length = path.size) (few : path.size ≤ pathSize)

include room whole few

theorem roundTrip_spare (spare : (pathText path (some usageTables)).length + 1 < size) :
    RoundTrip size path into ↔ ∀ node ∈ path.nodes, node ≠ 0x00850000 ∧ node ≠ 0x008500d8 := by
  have written : (pathToString size path (some usageTables)).1 = pathText path (some usageTables) := by
    rw [pathToString_eq, List.take_of_length_le (by omega)]
  have read : readNodes (pathText path (some usageTables)) = path.nodes.map namesake := readNodes_texts path.nodes
  have count : (readNodes (pathText path (some usageTables))).length ≤ pathSize := by
    rw [read, List.length_map]
    omega
  rw [roundTrip_iff written (pathText_short (by omega)) count room whole, read, map_namesake]

theorem roundTrip_full {front : List UInt32} {last : UInt32} (split : path.nodes = front ++ [last])
    (full : (pathText path (some usageTables)).length + 1 = size) : RoundTrip size path into ↔
      (∀ node ∈ path.nodes, node ≠ 0x00850000 ∧ node ≠ 0x008500d8) ∧ (last = 0 ∨ isIndexed last) := by
  have written : (pathToString size path (some usageTables)).1 = (pathText path (some usageTables)).dropLast := by
    rw [pathToString_eq, List.dropLast_eq_take]
    congr 1
    omega
  have read : readNodes (pathText path (some usageTables)).dropLast =
      front.map namesake ++ (tokenNode (nodeText (some usageTables) last).dropLast usageTables).toList := by
    rw [pathText, split, readNodes_cut]
  have short := @pathText_short path (by omega)
  have one : (tokenNode (nodeText (some usageTables) last).dropLast usageTables).toList.length ≤ 1 := by
    cases tokenNode (nodeText (some usageTables) last).dropLast usageTables <;> simp
  have lengths : front.length + 1 = path.nodes.length := by simp [split]
  have count : (readNodes (pathText path (some usageTables)).dropLast).length ≤ pathSize := by
    rw [read, List.length_append, List.length_map]
    omega
  have only : (tokenNode (nodeText (some usageTables) last).dropLast usageTables).toList = [last] ↔
      last = 0 ∨ isIndexed last := by
    rw [<- tokenNode_cut last]
    cases tokenNode (nodeText (some usageTables) last).dropLast usageTables <;> simp
  have own : last = 0 ∨ isIndexed last -> last ≠ 0x00850000 ∧ last ≠ 0x008500d8 := by
    rintro (zero | indexed)
    · rw [zero]
      decide
    · constructor <;> intro named <;> rw [named] at indexed <;> exact absurd indexed (by decide)
  rw [roundTrip_iff written (by rw [List.length_dropLast]; omega) count room whole, read, split]
  constructor
  · intro same
    obtain ⟨early, late⟩ := List.append_inj same (by rw [List.length_map])
    have kept := only.mp late
    refine ⟨fun node member => ?_, kept⟩
    rcases List.mem_append.mp member with inFront | isLast
    · exact map_namesake.mp early node inFront
    · rw [List.mem_singleton.mp isLast]
      exact own kept
  · rintro ⟨named, kept⟩
    rw [only.mpr kept, map_namesake.mpr fun node member => named node (List.mem_append_left _ member)]

end Reading

-- A path whose string fits is read back, unless it has a node whose name the table gives to an earlier one, or the
-- string leaves no byte to spare and the last one matters.
theorem path_roundTrip (nodes : path.node.length = pathSize) (some_ : 0 < path.size) (few : path.size ≤ pathSize)
    (room : into.node.length = pathSize) (fits : (pathText path (some usageTables)).length < size) :
    RoundTrip size path into ↔ (∀ node ∈ path.nodes, node ≠ 0x00850000 ∧ node ≠ 0x008500d8) ∧
        ((pathText path (some usageTables)).length + 1 < size ∨
          ∃ last, path.nodes.getLast? = some last ∧ (last = 0 ∨ isIndexed last)) := by
  have whole : path.nodes.length = path.size := by
    rw [HIDPath.nodes, List.length_take]
    omega
  by_cases spare : (pathText path (some usageTables)).length + 1 < size
  · simp [roundTrip_spare room whole few spare, spare]
  · have some' : path.nodes ≠ [] := List.length_pos_iff.mp (by omega)
    have split := (List.dropLast_append_getLast some').symm
    have last : path.nodes.getLast? = some (path.nodes.getLast some') := List.getLast?_eq_some_getLast some'
    rw [roundTrip_full room whole few split (by omega), last]
    simp [spare]

def samplePath : HIDPath :=
  { size := 4, node := [0x00840024, 0x00ff0003, 0xff860024, 0x00850044, 0, 0, 0, 0, 0, 0] }

theorem path_roundTrip_sample : RoundTrip 128 samplePath HIDData.zero.path := by
  have length : (pathText samplePath (some usageTables)).length = 34 := by decide +kernel
  have nodes : samplePath.nodes = [0x00840024, 0x00ff0003, 0xff860024, 0x00850044] := rfl
  refine (path_roundTrip rfl (by decide) (by decide) rfl (by rw [length]; decide)).mpr ⟨?_, Or.inl ?_⟩
  · simp [nodes]
  · rw [length]
    decide

-- An attribute that the battery system leaves undefined comes back as one of the power device.
def undefinedPath : HIDPath :=
  { size := 2, node := [0x00840012, 0x00850000, 0, 0, 0, 0, 0, 0, 0, 0] }

theorem path_renamed : pathText undefinedPath (some usageTables) = cstr "Battery.Undefined" ∧
    ¬ RoundTrip 128 undefinedPath HIDData.zero.path := by
  refine ⟨by decide +kernel, ?_⟩
  have read : stringToPath (pathToString 128 undefinedPath (some usageTables)).1 HIDData.zero.path usageTables =
      .ok ({ size := 2, node := [0x00840012, 0x00840000, 0, 0, 0, 0, 0, 0, 0, 0] }, 2) := by
    decide +kernel
  rintro ⟨path', depth, same, _, nodes⟩
  rw [read] at same
  cases same
  exact absurd nodes (by decide)

end Paths

end Nut
