import Nut.Drivers.DstateRun
import Nut.Server.Mirror

set_option autoImplicit false

namespace Nut

theorem valEscape_eq (raw : CString) : valEscape raw = pconfEncode raw [] stMaxValueLen := by
  simp only [valEscape]
  split
  next same => exact same
  next => rfl

theorem length_le_escapeAll (text : CString) : text.length ≤ (escapeAll text).length := by
  induction text with
  | nil => simp
  | cons b rest ih =>
    rw [escapeAll_cons]
    split <;> simp only [List.length_append, List.length_cons, List.length_nil] <;> omega

theorem encoded_arrives {src : CString} (printable : ∀ b ∈ src, isText b = true) :
    ∃ meaning, QuotedAs (pconfEncode src [] stMaxValueLen) meaning ∧
      (pconfEncode src [] stMaxValueLen).length < stMaxValueLen ∧ meaning.length < stMaxValueLen ∧
      pconfEncode meaning [] stMaxValueLen = pconfEncode src [] stMaxValueLen := by
  have room : 2 ≤ stMaxValueLen := by decide
  have isPrefix := fitPrefix_initial (stMaxValueLen - 1) src
  have fits := escapeAll_fitPrefix_length (stMaxValueLen - 1) src
  have short := length_le_escapeAll (fitPrefix (stMaxValueLen - 1) src)
  refine ⟨fitPrefix (stMaxValueLen - 1) src, ?_, ?_, by omega, ?_⟩
  · rw [pconfEncode_eq room]
    exact quotedAs_escapeAll (isText_initial isPrefix printable)
  · rw [pconfEncode_eq room]
    omega
  · rw [pconfEncode_eq room src, pconfEncode_whole (by omega) room]

def StNode.viewAs (node : StNode) (var : CString) : StView :=
  { node.view with var }

structure Holds (before : StTree) (var : CString) (cmds : CmdList) (dataOk : Bool) (view : StView)
    (ups : Upstype) : Prop where
  ordered : Ordered ups.inforoot
  mutable : Mutable ups.inforoot
  present : ∃ node, stateTreeFind ups.inforoot var = some node ∧ node.viewAs var = view
  others : ∀ other, strcasecmp var other ≠ .eq ->
    stateTreeFind ups.inforoot other = stateTreeFind before other
  cmdlist : ups.cmdlist = cmds
  dataOk : ups.dataOk = dataOk

section Node

variable {before : StTree} {var : CString} {cmds : CmdList} {dataOk : Bool} {view view' : StView}

theorem stable_holds : Stable (Holds before var cmds dataOk view) :=
  fun _ _ _ holds =>
    { holds with }

theorem holds_apply {op : StateOp} (named : op.var = var) (now : Int) {ups : Upstype}
    (holds : Holds before var cmds dataOk view ups) (change : ∀ node : StNode, node.viewAs var = view ->
      ∃ node', (op.found now node).1 = some node' ∧ node'.viewAs var = view') :
    Holds before var cmds dataOk view' { ups with inforoot := (op.apply now ups.inforoot).1 } := by
  obtain ⟨node, found, same⟩ := holds.present
  obtain ⟨node', kept, same'⟩ := change node same
  refine ⟨op.ordered_apply now holds.ordered, op.mutable_apply now holds.ordered holds.mutable,
    ⟨node', ?_, same'⟩, ?_, holds.cmdlist, holds.dataOk⟩
  · rw [<- named, op.find_apply_self now holds.ordered, named, found]
    exact kept
  · intro other different
    rw [op.find_apply_other now holds.ordered (by rw [named]; exact different)]
    exact holds.others other different

theorem hears_op {op : StateOp} (named : op.var = var) {text : CString} {words : List CString}
    (line : IsLine 32 512 text words ∧ text.length < stSockBufLen)
    (effect : ∀ now tracking ups, (parseArgs now ups tracking words).1 =
      { ups with inforoot := (op.apply now ups.inforoot).1 }) (change : ∀ now (node : StNode), node.viewAs var = view ->
      ∃ node', (op.found now node).1 = some node' ∧ node'.viewAs var = view') :
    Hears (Holds before var cmds dataOk view) (sockLine text) (Holds before var cmds dataOk view') := by
  apply hears_line line stable_holds
  intro now tracking ups holds
  rw [effect]
  exact holds_apply named now holds (change now)

theorem hears_addenum (isName : IsName var) {item : CString} (encoded : Encoded item) (fresh : item ∉ view.enumList) :
    Hears (Holds before var cmds dataOk view) (sockLine (formatValue (cstr "ADDENUM") var item))
      (Holds before var cmds dataOk { view with enumList := view.enumList ++ [item] }) := by
  obtain ⟨src, printable, rfl⟩ := encoded
  obtain ⟨meaning, quoted, writtenShort, meaningShort, same⟩ := encoded_arrives printable
  apply hears_op (show (StateOp.addenum var meaning).var = var from rfl)
    (isLine_formatValue (by decide) (by decide) isName quoted writtenShort meaningShort)
    (fun _ _ _ => rfl)
  intro now node sameView
  subst sameView
  refine ⟨_, rfl, ?_⟩
  have absent : pconfEncode src [] stMaxValueLen ∉ node.enumList := fresh
  simp [StNode.addenum, stTreeEnumAdd_eq, same, StNode.refreshTimestamp, absent, StNode.viewAs, StNode.view]

theorem hears_addrange (isName : IsName var) {min max : Int32} (order : ¬ min > max)
    (fresh : ∀ range ∈ view.rangeList, range.1 ≠ min ∧ range.2 ≠ max) :
    Hears (Holds before var cmds dataOk view) (sockLine (formatRange (cstr "ADDRANGE") var min max))
      (Holds before var cmds dataOk { view with rangeList := view.rangeList ++ [(min, max)] }) := by
  apply hears_op (show (StateOp.addrange var min max).var = var from rfl)
    (isLine_formatRange (by decide) (by decide) isName min max)
  · intro now tracking ups
    have same : (parseArgs now ups tracking [cstr "ADDRANGE", var, printInt min.toInt, printInt max.toInt]).1 =
      { ups with inforoot := (stateAddrange now var (atoi (printInt min.toInt))
          (atoi (printInt max.toInt)) ups.inforoot).1 } := rfl
    rw [same, atoi_printInt, atoi_printInt]
    rfl
  · intro now node sameView
    subst sameView
    have apart : ∀ range ∈ node.rangeList, range.1 ≠ min ∧ range.2 ≠ max := fresh
    have absent : node.rangeList.any (rangeHit min max) = false := by
      simpa [rangeHit] using apart
    simp only [StateOp.found, order, if_false]
    refine ⟨_, rfl, ?_⟩
    simp [StNode.addrange, stTreeRangeAdd_eq, StNode.refreshTimestamp, absent, StNode.viewAs, StNode.view]

theorem hears_setaux (isName : IsName var) (aux : Int64) :
    Hears (Holds before var cmds dataOk view) (sockLine (formatAux var aux))
      (Holds before var cmds dataOk { view with aux }) := by
  apply hears_op (show (StateOp.setaux var (printInt aux.toInt)).var = var from rfl)
    (isLine_formatAux isName aux) (fun _ _ _ => rfl)
  intro now node sameView
  subst sameView
  refine ⟨_, rfl, ?_⟩
  rw [strtol_printInt_int64]
  simp only [StNode.setaux]
  split
  next same => simp [StNode.viewAs, StNode.view, StNode.refreshTimestamp, <- same]
  next => rfl

theorem hears_setflags (isName : IsName var) (flags : BitVec 32)
    (blank : view.rw = false ∧ view.string = false ∧ view.number = false) : Hears (Holds before var cmds dataOk view)
      (sockLine (cstr "SETFLAGS " ++ flagList var flags ++ cstr "\n"))
      (Holds before var cmds dataOk { view with
        rw := hasFlag flags stFlagRw
        string := hasFlag flags stFlagString
        number := hasFlag flags stFlagNumber }) := by
  apply hears_line (isLine_setflags isName flags) stable_holds
  intro now tracking ups holds
  cases words : flagWords flags with
  | nil =>
    -- Two words only: the message is ignored.
    obtain ⟨rw, string, number⟩ := hasFlag_hidden words
    have same : { view with
        rw := hasFlag flags stFlagRw
        string := hasFlag flags stFlagString
        number := hasFlag flags stFlagNumber } = view := by
      cases view
      simp_all
    rw [same]
    exact holds
  | cons word rest =>
    have heard : (parseArgs now ups tracking (cstr "SETFLAGS" :: var :: word :: rest)).1 =
        { ups with inforoot := ((StateOp.setflags var (word :: rest)).apply now ups.inforoot).1 } := rfl
    rw [heard, <- words]
    apply holds_apply (show (StateOp.setflags var (flagWords flags)).var = var from rfl) now holds
    intro node sameView
    subst sameView
    obtain ⟨rw, string, number⟩ := setFlag_words flags
    refine ⟨_, rfl, ?_⟩
    simp [StNode.setflags, StNode.viewAs, StNode.view, StNode.refreshTimestamp]
    exact ⟨rw, string, number⟩

-- upsd has nothing but a value for `var`, if it knows it at all.
structure Fresh (before : StTree) (var : CString) (cmds : CmdList) (dataOk : Bool) (ups : Upstype) :
    Prop where
  ordered : Ordered ups.inforoot
  mutable : Mutable ups.inforoot
  inforoot : ups.inforoot = before
  blank : ∀ node, stateTreeFind before var = some node -> node.viewAs var = ⟨var, node.val, [], [], 0,
    false, false, false⟩
  cmdlist : ups.cmdlist = cmds
  dataOk : ups.dataOk = dataOk

theorem hears_setinfo (isName : IsName var) {raw : CString} (printable : ∀ b ∈ raw, isText b = true) :
    Hears (Fresh before var cmds dataOk) (sockLine (formatValue (cstr "SETINFO") var (valEscape raw)))
      (Holds before var cmds dataOk ⟨var, valEscape raw, [], [], 0, false, false, false⟩) := by
  obtain ⟨meaning, quoted, writtenShort, meaningShort, same⟩ := encoded_arrives printable
  rw [<- valEscape_eq] at quoted writtenShort
  rw [<- valEscape_eq, <- valEscape_eq] at same
  apply hears_line (isLine_formatValue (by decide) (by decide) isName quoted writtenShort meaningShort)
    stable_holds
  intro now tracking ups fresh
  let op := StateOp.setinfo var meaning
  change Holds _ _ _ _ _ { ups with inforoot := (op.apply now ups.inforoot).1 }
  have self := op.find_apply_self now fresh.ordered
  refine ⟨op.ordered_apply now fresh.ordered, op.mutable_apply now fresh.ordered fresh.mutable, ?_, ?_,
    fresh.cmdlist, fresh.dataOk⟩
  · change stateTreeFind _ var = (stateTreeFind ups.inforoot var).elim _ _ at self
    cases present : stateTreeFind ups.inforoot var with
    | none =>
      rw [present] at self
      refine ⟨_, self, ?_⟩
      simp [StNode.viewAs, StNode.view, StNode.fresh, same, hasFlag]
    | some node =>
      have blank := fresh.blank node (by rw [<- fresh.inforoot]; exact present)
      have member := ((stateTreeFind_iff fresh.ordered).mp present).1
      obtain ⟨_, node', kept, set⟩ := setNode_setinfo now var meaning (fresh.mutable node member)
      rw [present] at self
      refine ⟨node', self.trans kept, ?_⟩
      simp only [StNode.viewAs] at blank ⊢
      rw [set.view, same]
      simp_all
  · intro other different
    rw [op.find_apply_other now fresh.ordered different, fresh.inforoot]

theorem hears_enums (isName : IsName var) {rest : List CString} (encoded : ∀ item ∈ rest, Encoded item)
    {view : StView} (fresh : (view.enumList ++ rest).Nodup) : Hears (Holds before var cmds dataOk view)
      (rest.flatMap fun val => sockLine (formatValue (cstr "ADDENUM") var val))
      (Holds before var cmds dataOk { view with enumList := view.enumList ++ rest }) := by
  induction rest generalizing view with
  | nil => simpa using hears_nil fun _ holds => holds
  | cons item rest ih =>
    have absent : item ∉ view.enumList := by
      intro member
      exact (List.pairwise_append.mp fresh).2.2 item member item (by simp) rfl
    rw [List.append_cons] at fresh
    rw [List.flatMap_cons, List.append_cons]
    apply hears_append (hears_addenum isName (encoded item (by simp)) absent)
    exact ih (fun other member => encoded other (by simp [member])) fresh

theorem hears_ranges (isName : IsName var) {rest : List (Int32 × Int32)}
    (bounds : ∀ range ∈ rest, ¬ range.1 > range.2) {view : StView}
    (fresh : (view.rangeList ++ rest).Pairwise fun a b => a.1 ≠ b.1 ∧ a.2 ≠ b.2) :
    Hears (Holds before var cmds dataOk view)
      (rest.flatMap fun range => sockLine (formatRange (cstr "ADDRANGE") var range.1 range.2))
      (Holds before var cmds dataOk { view with rangeList := view.rangeList ++ rest }) := by
  induction rest generalizing view with
  | nil => simpa using hears_nil fun _ holds => holds
  | cons range rest ih =>
    have absent : ∀ other ∈ view.rangeList, other.1 ≠ range.1 ∧ other.2 ≠ range.2 := by
      intro other member
      exact (List.pairwise_append.mp fresh).2.2 other member range (by simp)
    rw [List.append_cons] at fresh
    rw [List.flatMap_cons, List.append_cons]
    apply hears_append (hears_addrange isName (bounds range (by simp)) absent)
    exact ih (fun other member => bounds other (by simp [member])) fresh

theorem hears_node {node : StNode} (ok : NodeOk node) :
    Hears (Fresh before node.var cmds dataOk) (stTreeDumpConnOneNode node)
      (Holds before node.var cmds dataOk node.view) := by
  let known := Holds before node.var cmds dataOk
  have value : Hears (Fresh before node.var cmds dataOk) (sockLine (formatValue (cstr "SETINFO") node.var node.val))
      (known ⟨node.var, node.val, [], [], 0, false, false, false⟩) := by
    rw [node.escaped]
    exact hears_setinfo ok.name ok.raw
  have enums : Hears (known ⟨node.var, node.val, [], [], 0, false, false, false⟩)
      (node.enumList.flatMap fun val => sockLine (formatValue (cstr "ADDENUM") node.var val))
      (known ⟨node.var, node.val, node.enumList, [], 0, false, false, false⟩) := hears_enums ok.name ok.encoded ok.enums
  have ranges : Hears (known ⟨node.var, node.val, node.enumList, [], 0, false, false, false⟩)
      (node.rangeList.flatMap fun range =>
        sockLine (formatRange (cstr "ADDRANGE") node.var range.1 range.2))
      (known { node with aux := 0, rw := false, string := false, number := false }) :=
    hears_ranges ok.name ok.bounds ok.ranges
  have aux : Hears (known { node with aux := 0, rw := false, string := false, number := false })
      (if node.aux ≠ 0 then sockLine (formatAux node.var node.aux) else [])
      (known { node with rw := false, string := false, number := false }) := by
    split
    next => exact hears_setaux ok.name node.aux
    next zero =>
      rw [not_not.mp zero]
      exact hears_nil fun _ holds => holds
  have flags : Hears (known { node with rw := false, string := false, number := false })
      (if node.flags ≠ 0 then sockLine (cstr "SETFLAGS " ++ flagList node.var node.flags ++ cstr "\n")
        else [])
      (known node.view) := by
    split
    next => exact hears_setflags ok.name node.flags ⟨rfl, rfl, rfl⟩
    next zero =>
      have none : node.view = { node with rw := false, string := false, number := false } := by
        simp only [StNode.view, not_not.mp zero]
        rfl
      rw [none]
      exact hears_nil fun _ holds => holds
  exact hears_append (hears_append (hears_append (hears_append value enums) ranges) aux) flags

end Node

def Blank (name : CString) (node : StNode) : Prop :=
  node.viewAs name = ⟨name, node.val, [], [], 0, false, false, false⟩

-- upsd knows these nodes of the driver, and nothing else but `ups.status`.
structure Covers (dataOk : Bool) (sent : List StNode) (cmds : CmdList) (ups : Upstype) : Prop where
  ordered : Ordered ups.inforoot
  mutable : Mutable ups.inforoot
  known : ∀ node ∈ sent, ∃ copy, stateTreeFind ups.inforoot node.var = some copy ∧
    copy.viewAs node.var = node.view
  only : ∀ name copy, stateTreeFind ups.inforoot name = some copy ->
    (∃ node ∈ sent, strcasecmp node.var name = .eq) ∨
      strcasecmp (cstr "ups.status") name = .eq ∧ Blank name copy
  cmdlist : ups.cmdlist = cmds
  dataOk : ups.dataOk = dataOk

section Walk

variable {dataOk : Bool} {cmds : CmdList}

theorem stable_covers {sent : List StNode} : Stable (Covers dataOk sent cmds) :=
  fun _ _ _ covers =>
    { covers with }

theorem hears_next {sent : List StNode} {node : StNode} (ok : NodeOk node)
    (apart : ∀ old ∈ sent, strcasecmp old.var node.var ≠ .eq) :
    Hears (Covers dataOk sent cmds) (stTreeDumpConnOneNode node) (Covers dataOk (sent ++ [node]) cmds) := by
  intro now tracking ups covers
  have fresh : Fresh ups.inforoot node.var cmds dataOk ups := by
    refine ⟨covers.ordered, covers.mutable, rfl, ?_, covers.cmdlist, covers.dataOk⟩
    intro copy present
    obtain ⟨old, member, same⟩ | ⟨_, blank⟩ := covers.only node.var copy present
    · exact absurd same (apart old member)
    · exact blank
  obtain ⟨words, areLines, holds⟩ := hears_node ok now tracking ups fresh
  refine ⟨words, areLines, holds.ordered, holds.mutable, ?_, ?_, holds.cmdlist, holds.dataOk⟩
  · intro old member
    obtain member | member := List.mem_append.mp member
    · have different : strcasecmp node.var old.var ≠ .eq :=
        fun same => apart old member (Std.OrientedCmp.eq_symm same)
      rw [holds.others old.var different]
      exact covers.known old member
    · obtain rfl := List.mem_singleton.mp member
      exact holds.present
  · intro name copy present
    by_cases same : strcasecmp node.var name = .eq
    · exact Or.inl ⟨node, by simp, same⟩
    · rw [holds.others name same] at present
      obtain ⟨old, member, same⟩ | blank := covers.only name copy present
      · exact Or.inl ⟨old, by simp [member], same⟩
      · exact Or.inr blank

theorem hears_walk {sent rest : List StNode} (ok : ∀ node ∈ rest, NodeOk node)
    (sorted : SortedList.Sorted StNode.var strcasecmp (sent ++ rest)) :
    Hears (Covers dataOk sent cmds) (rest.flatMap stTreeDumpConnOneNode) (Covers dataOk (sent ++ rest) cmds) := by
  induction rest generalizing sent with
  | nil => simpa using hears_nil fun _ covers => covers
  | cons node rest ih =>
    have apart : ∀ old ∈ sent, strcasecmp old.var node.var ≠ .eq := by
      intro old member
      have below : strcasecmp old.var node.var = .lt := (List.pairwise_append.mp sorted).2.2 old member node (by simp)
      simp [below]
    rw [List.append_cons] at sorted
    rw [List.flatMap_cons, List.append_cons]
    apply hears_append (hears_next (ok node (by simp)) apart)
    exact ih (fun other member => ok other (by simp [member])) sorted

theorem stTreeDumpConn_eq (t : StTree) : stTreeDumpConn t = t.toList.flatMap stTreeDumpConnOneNode := by
  induction t with
  | nil => rfl
  | node left node right ihLeft ihRight =>
    simp [stTreeDumpConn, ihLeft, ihRight]

theorem stateAddcmd_last {cmd : CString} (below : ∀ old ∈ cmds, strcasecmp old cmd = .lt) :
    (stateAddcmd cmd cmds).1 = cmds ++ [cmd] := by
  rw [stateAddcmd, SortedList.visit_eq]
  have last : SortedList.alter id strcasecmp cmd some (some cmd) (cmds ++ []) =
      cmds ++ SortedList.alter id strcasecmp cmd some (some cmd) [] :=
    SortedList.alter_append_right id strcasecmp below []
  simpa using last

theorem hears_cmds {sent : List StNode} {rest : CmdList} (names : ∀ cmd ∈ rest, IsName cmd)
    (sorted : SortedList.Sorted id strcasecmp (cmds ++ rest)) :
    Hears (Covers dataOk sent cmds) (cmdDumpConn rest) (Covers dataOk sent (cmds ++ rest)) := by
  induction rest generalizing cmds with
  | nil => simpa [cmdDumpConn] using hears_nil fun _ covers => covers
  | cons cmd rest ih =>
    have below : ∀ old ∈ cmds, strcasecmp old cmd = .lt := fun old member =>
      (List.pairwise_append.mp sorted).2.2 old member cmd (by simp)
    rw [List.append_cons] at sorted
    rw [cmdDumpConn, List.flatMap_cons, List.append_cons]
    refine hears_append ?_ (ih (fun other member => names other (by simp [member])) sorted)
    apply hears_line (isLine_formatWord (by decide) (by decide) (names cmd (by simp))) stable_covers
    intro now tracking ups covers
    refine { covers with cmdlist := ?_ }
    change (stateAddcmd cmd ups.cmdlist).1 = cmds ++ [cmd]
    rw [covers.cmdlist, stateAddcmd_last below]

end Walk

def Replayed (d : Dstate) (ups : Upstype) : Prop :=
  Covers (!d.stale) d.dtreeRoot.toList d.cmdhead ups ∧ ups.dumpdone = true

theorem stable_replayed (d : Dstate) : Stable (Replayed d) :=
  fun _ _ _ replayed => ⟨stable_covers _ _ _ replayed.1, replayed.2⟩

section Dump

variable {sent : List StNode} {cmds : CmdList} {dataOk : Bool}

theorem hears_datastale : Hears (Covers dataOk sent cmds) (sockLine (cstr "DATASTALE\n")) (Covers false sent cmds) := by
  apply hears_line (isLine_keyword (cstr "DATASTALE") (by decide) (by decide)) stable_covers
  intro now tracking ups covers
  exact { covers with dataOk := rfl }

theorem hears_dataok : Hears (Covers dataOk sent cmds) (sockLine (cstr "DATAOK\n")) (Covers true sent cmds) := by
  apply hears_line (isLine_keyword (cstr "DATAOK") (by decide) (by decide)) stable_covers
  intro now tracking ups covers
  exact { covers with dataOk := rfl }

theorem hears_dumpdone {d : Dstate} :
    Hears (Covers (!d.stale) d.dtreeRoot.toList d.cmdhead) (sockLine (cstr "DUMPDONE\n")) (Replayed d) := by
  apply hears_line (isLine_keyword (cstr "DUMPDONE") (by decide) (by decide)) (stable_replayed d)
  intro now tracking ups covers
  exact ⟨{ covers with }, rfl⟩

theorem hears_contents {d : Dstate} (ok : DstateOk d) :
    Hears (Covers dataOk [] []) (stTreeDumpConn d.dtreeRoot ++ cmdDumpConn d.cmdhead)
      (Covers dataOk d.dtreeRoot.toList d.cmdhead) := by
  rw [stTreeDumpConn_eq]
  have sorted := (SearchTree.ordered_iff_sorted StNode.var strcasecmp d.dtreeRoot).mp ok.ordered
  exact hears_append (hears_walk ok.nodes sorted) (hears_cmds ok.cmds ok.sorted)

theorem hears_dumpall {d : Dstate} (ok : DstateOk d) : Hears (Covers dataOk [] []) (sockArgDumpall d) (Replayed d) := by
  have last := hears_dumpdone (d := d)
  simp only [sockArgDumpall]
  cases stale : d.stale with
  | true =>
    rw [stale] at last
    rw [if_pos rfl, if_pos rfl, List.append_nil, List.append_assoc (sockLine _)]
    exact hears_append (hears_append hears_datastale (hears_contents ok)) last
  | false =>
    rw [stale] at last
    rw [if_neg (by decide), if_neg (by decide), List.nil_append]
    exact hears_append (hears_append (hears_contents ok) hears_dataok) last

end Dump

def Disconnected (ups : Upstype) : Prop :=
  ups.inforoot = .nil ∧ ups.cmdlist = []

theorem covers_connect {ups : Upstype} (disconnected : Disconnected ups) (now : Int) :
    Covers ups.dataOk [] [] (sstateConnect now ups) ∧ Listening (sstateConnect now ups) := by
  obtain ⟨inforoot, cmdlist⟩ := disconnected
  let op := StateOp.setinfo (cstr "ups.status") (cstr "WAIT")
  have empty : Ordered .nil := trivial
  have tree : (sstateConnect now ups).inforoot = (op.apply now .nil).1 := by
    simp only [sstateConnect, inforoot]
    rfl
  refine ⟨⟨?_, ?_, by simp, ?_, cmdlist, rfl⟩, atLineStart_init _ _, rfl, rfl⟩
  · rw [tree]
    exact op.ordered_apply now empty
  · rw [tree]
    exact op.mutable_apply now empty fun node member => by cases member
  · intro name copy present
    rw [tree] at present
    by_cases same : strcasecmp (cstr "ups.status") name = .eq
    · refine Or.inr ⟨same, ?_⟩
      have self := op.find_apply_self now empty
      rw [<- stateTreeFind_congr same] at present
      have found := self.symm.trans present
      cases found
      simp [Blank, StNode.viewAs, StNode.view, StNode.fresh, hasFlag]
    · rw [op.find_apply_other now empty same] at present
      cases present

-- A lookup on both sides of the socket gives the same answers.
def SameVariable (t u : StTree) (var : CString) : Prop :=
  stateGetinfo u var = stateGetinfo t var ∧
    stateGetenumlist u var = stateGetenumlist t var ∧
    stateGetrangelist u var = stateGetrangelist t var ∧
    stateGetaux u var = stateGetaux t var ∧
    hasFlag (stateGetflags u var) stFlagRw = hasFlag (stateGetflags t var) stFlagRw ∧
    hasFlag (stateGetflags u var) stFlagString = hasFlag (stateGetflags t var) stFlagString ∧
    hasFlag (stateGetflags u var) stFlagNumber = hasFlag (stateGetflags t var) stFlagNumber

-- The answer to `DUMPALL` gives upsd the whole state of any driver.
theorem dumpall_replay (d : Dstate) (reachable : d.Reachable) (ups : Upstype)
    (disconnected : Disconnected ups) (now now' : Int) (tracking : TrackingList) :
    let after := (sstateReadline now' (sstateConnect now ups) tracking (sockArgDumpall d).flatten).1
    (∀ var, (stateTreeFind d.dtreeRoot var).isSome -> SameVariable d.dtreeRoot after.inforoot var) ∧
      (∀ var, (stateTreeFind after.inforoot var).isSome ->
        (stateTreeFind d.dtreeRoot var).isSome ∨ strcasecmp (cstr "ups.status") var = .eq) ∧
      after.cmdlist = d.cmdhead ∧ after.dumpdone = true ∧ after.dataOk = !d.stale := by
  have ok := dstateOk reachable
  obtain ⟨start, listening⟩ := covers_connect disconnected now
  obtain ⟨⟨covers, dumpdone⟩, _⟩ :=
    sstateReadline_hears (hears_dumpall ok) (stable_replayed d) listening start now' tracking
  refine ⟨?_, ?_, covers.cmdlist, dumpdone, covers.dataOk⟩
  · intro var present
    obtain ⟨node, found⟩ := Option.isSome_iff_exists.mp present
    obtain ⟨member, same⟩ := (stateTreeFind_iff ok.ordered).mp found
    obtain ⟨copy, found', view⟩ := covers.known node member
    rw [stateTreeFind_congr same] at found'
    simp only [StNode.viewAs, StNode.view, StView.mk.injEq] at view
    simp [SameVariable, stateGetinfo, stateGetenumlist, stateGetrangelist, stateGetaux, stateGetflags,
      found, found', view]
  · intro var present
    obtain ⟨copy, found⟩ := Option.isSome_iff_exists.mp present
    obtain ⟨node, member, same⟩ | ⟨same, _⟩ := covers.only var copy found
    · have known := (stateTreeFind_iff ok.ordered).mpr ⟨member, same⟩
      exact Or.inl (by rw [known]; rfl)
    · exact Or.inr same

theorem dumpall_replay_sample :
    let d := (DstateOp.apply 0 Dstate.empty (.setinfo (cstr "ups.id") (cstr "a\"b"))).1
    let ups : Upstype :=
      { name := cstr "ups", fn := cstr "dummy-ups", desc := none, connected := false, stale := false,
        dumpdone := false, dataOk := true, lastHeard := 0, lastPing := 0, sockCtx := pconfInit,
        inforoot := .nil, cmdlist := [], numlogins := 0, fsd := false, retain := true }
    let after := (sstateReadline 1 (sstateConnect 1 ups) [] (sockArgDumpall d).flatten).1
    (∀ var, (stateTreeFind d.dtreeRoot var).isSome -> SameVariable d.dtreeRoot after.inforoot var) ∧
      (∀ var, (stateTreeFind after.inforoot var).isSome ->
        (stateTreeFind d.dtreeRoot var).isSome ∨ strcasecmp (cstr "ups.status") var = .eq) ∧
      after.cmdlist = d.cmdhead ∧ after.dumpdone = true ∧ after.dataOk = !d.stale :=
  dumpall_replay (DstateOp.apply 0 Dstate.empty (.setinfo (cstr "ups.id") (cstr "a\"b"))).1
    (.call .start 0 ⟨by decide, by decide +kernel⟩) _ ⟨rfl, rfl⟩ 1 1 []

end Nut
