import Nut.Common.StateLists
import Nut.Server.Authorisation
import Nut.Server.Incremental
import Nut.Server.Replay

set_option autoImplicit false

namespace Nut

def DstateOp.Retracts (var : CString) : DstateOp -> Prop
  | .delinfo name | .delinfoOlderthan name _ | .delenum name _ => strcasecmp name var = .eq
  | _ => False

def DstateOp.enumerated (var : CString) : DstateOp -> List CString
  | .addenum name text => if strcasecmp name var = .eq then [text] else []
  | _ => []

def enumerated (var : CString) (calls : List (Int × DstateOp)) : List CString :=
  calls.flatMap fun call => call.2.enumerated var

def Dstate.run (d : Dstate) (calls : List (Int × DstateOp)) : Dstate :=
  calls.foldl (fun d call => (call.2.apply call.1 d).1) d

-- The entry that `dstate_addenum` makes of a value.
def storedEnum (text : CString) : CString :=
  enumText (snprintf stMaxValueLen text)

structure Offers (t : StTree) (var : CString) (vals : List CString) : Prop where
  ordered : Ordered t
  entries : ∃ node, stateTreeFind t var = some node ∧
    ∀ text, text ∈ node.enumList ↔ ∃ val ∈ vals, text = storedEnum val

section Offers

variable {t : StTree} {var : CString} {vals : List CString}

theorem Offers.keep (offers : Offers t var vals) (op : StateOp) (now : Int)
    (same : strcasecmp op.var var = .eq -> ∀ node, ∃ node', (op.found now node).1 = some node' ∧
      node'.enumList = node.enumList) : Offers (op.apply now t).1 var vals := by
  obtain ⟨node, found, entries⟩ := offers.entries
  refine ⟨op.ordered_apply now offers.ordered, ?_⟩
  have after := find_apply op now offers.ordered found
  by_cases here : strcasecmp op.var var = .eq
  · obtain ⟨node', kept, enums⟩ := same here node
    rw [if_pos here, kept] at after
    exact ⟨node', after, fun text => enums ▸ entries text⟩
  · rw [if_neg here] at after
    exact ⟨node, after, entries⟩

theorem Offers.assign (offers : Offers t var vals) {name : CString} {change : StNode -> StNode}
    (same : ∀ node, (change node).var = node.var ∧ (change node).enumList = node.enumList) :
    Offers (stateVisit name (fun node => (some (change node), ())) (none, ()) t).1 var vals := by
  obtain ⟨node, found, entries⟩ := offers.entries
  have keeps (node node' : StNode) (hit : strcasecmp node.var name = .eq) (kept : some (change node) = some node') :
      strcasecmp node'.var name = .eq := by
    rw [<- Option.some.inj kept, (same node).1]
    exact hit
  have fresh (node : StNode) (made : none = some node) : strcasecmp node.var name = .eq := by cases made
  rw [stateVisit, SearchTree.visit_eq]
  refine ⟨SearchTree.ordered_alter _ _ offers.ordered keeps fresh, ?_⟩
  by_cases here : strcasecmp name var = .eq
  · refine ⟨change node, ?_, fun text => (same node).2 ▸ entries text⟩
    rw [<- stateTreeFind_congr here] at found ⊢
    have changed := SearchTree.find?_alter_self StNode.var strcasecmp offers.ordered keeps fresh
    rw [show SearchTree.find? StNode.var strcasecmp name t = some node from found] at changed
    exact changed
  · have kept := SearchTree.find?_alter_other StNode.var strcasecmp offers.ordered here keeps fresh
    exact ⟨node, kept.trans found, entries⟩

theorem Offers.setflags {d : Dstate} (offers : Offers d.dtreeRoot var vals) (name : CString) (flags : BitVec 32) :
    Offers (Dstate.dstateSetflags name flags d).1.dtreeRoot var vals := by
  unfold Dstate.dstateSetflags
  repeat' split
  · exact offers
  · exact offers
  · exact offers
  · exact offers.assign fun node => ⟨rfl, rfl⟩

theorem Offers.addflags {d : Dstate} (offers : Offers d.dtreeRoot var vals) (name : CString) (flags : BitVec 32) :
    Offers (Dstate.dstateAddflags name flags d).1.dtreeRoot var vals := by
  unfold Dstate.dstateAddflags
  dsimp only
  split_ifs
  · exact offers
  · exact offers
  · exact offers.setflags name _

theorem Offers.delflags {d : Dstate} (offers : Offers d.dtreeRoot var vals) (name : CString) (flags : BitVec 32) :
    Offers (Dstate.dstateDelflags name flags d).1.dtreeRoot var vals := by
  unfold Dstate.dstateDelflags
  dsimp only
  split_ifs
  · exact offers
  · exact offers
  · exact offers.setflags name _

theorem Offers.addrange {d : Dstate} (offers : Offers d.dtreeRoot var vals) (now : Int) (name : CString)
    (min max : Int32) : Offers (Dstate.dstateAddrange now name min max d).1.dtreeRoot var vals := by
  have tree := offers.keep (.addrange name min max) now fun _ node => by
    simp only [StateOp.found]
    split
    · exact ⟨node, rfl, rfl⟩
    · exact ⟨_, rfl, rfl⟩
  simp only [Dstate.dstateAddrange]
  split
  · exact Offers.addflags (d := { d with dtreeRoot := _ }) tree name stFlagNumber
  · exact tree

theorem Offers.setaux {d : Dstate} (offers : Offers d.dtreeRoot var vals) (name : CString) (aux : Int64) :
    Offers (Dstate.dstateSetaux name aux d).1.dtreeRoot var vals := by
  unfold Dstate.dstateSetaux
  repeat' split
  · exact offers
  · exact offers
  · exact offers.assign fun node => ⟨rfl, rfl⟩

theorem mem_enumAdd {enc entry : CString} {list : List CString} :
    entry ∈ (stTreeEnumAdd enc list).1 ↔ entry ∈ list ∨ entry = enc := by
  rw [stTreeEnumAdd_eq]
  by_cases present : enc ∈ list
  · rw [if_pos present]
    constructor
    · exact Or.inl
    · rintro (member | rfl)
      · exact member
      · exact present
  · rw [if_neg present]
    exact List.mem_append.trans (or_congr_right List.mem_singleton)

theorem Offers.addenum (offers : Offers t var vals) (now : Int) {name : CString} (here : strcasecmp name var = .eq)
    (text : CString) :
    Offers ((StateOp.addenum name (snprintf stMaxValueLen text)).apply now t).1 var (vals ++ [text]) := by
  obtain ⟨node, found, entries⟩ := offers.entries
  have after := find_apply (.addenum name (snprintf stMaxValueLen text)) now offers.ordered found
  rw [show (StateOp.addenum name (snprintf stMaxValueLen text)).var = name from rfl, if_pos here] at after
  refine ⟨StateOp.ordered_apply _ now offers.ordered, _, after, fun entry => ?_⟩
  change entry ∈ (stTreeEnumAdd (storedEnum text) node.enumList).1 ↔ _
  rw [mem_enumAdd, entries entry]
  simp only [List.mem_append, List.mem_singleton, or_and_right, exists_or, exists_eq_left]

theorem Offers.call {d : Dstate} (offers : Offers d.dtreeRoot var vals) (now : Int) {op : DstateOp}
    (kept : ¬ op.Retracts var) : Offers (op.apply now d).1.dtreeRoot var (vals ++ op.enumerated var) := by
  have plain {t : StTree} (same : Offers t var vals) : Offers t var (vals ++ []) := (List.append_nil vals).symm ▸ same
  cases op with
  | addenum name text =>
    by_cases here : strcasecmp name var = .eq
    · rw [DstateOp.enumerated, if_pos here]
      exact offers.addenum now here text
    · rw [DstateOp.enumerated, if_neg here, List.append_nil]
      exact offers.keep (.addenum name (snprintf stMaxValueLen text)) now fun same => absurd same here
  | setinfo name text =>
    refine plain (offers.keep (.setinfo name (snprintf stMaxValueLen text)) now fun _ node => ?_)
    simp only [StateOp.found, StNode.setinfo]
    split_ifs <;> exact ⟨_, rfl, rfl⟩
  | delenum name val => exact plain (offers.keep (.delenum name val) now fun here => absurd here kept)
  | delinfo name => exact plain (offers.keep (.delinfo name) now fun here => absurd here kept)
  | delinfoOlderthan name cutoff =>
    exact plain (offers.keep (.delinfoOlderthan name cutoff) now fun here => absurd here kept)
  | delrange name min max =>
    exact plain (offers.keep (.delrange name min max) now fun _ node => ⟨_, rfl, rfl⟩)
  | addrange name min max => exact plain (offers.addrange now name min max)
  | setflags name flags => exact plain (offers.setflags name flags)
  | addflags name flags => exact plain (offers.addflags name flags)
  | delflags name flags => exact plain (offers.delflags name flags)
  | setaux name aux => exact plain (offers.setaux name aux)
  | addcmd cmd => exact plain offers
  | delcmd cmd => exact plain offers
  | dataok =>
    simp only [DstateOp.apply, Dstate.dstateDataok]
    split <;> exact plain offers
  | datastale =>
    simp only [DstateOp.apply, Dstate.dstateDatastale]
    split <;> exact plain offers

theorem Offers.run {d : Dstate} (offers : Offers d.dtreeRoot var vals) {calls : List (Int × DstateOp)}
    (kept : ∀ call ∈ calls, ¬ call.2.Retracts var) :
    Offers (d.run calls).dtreeRoot var (vals ++ enumerated var calls) := by
  induction calls generalizing d vals with
  | nil => simpa [Dstate.run, enumerated] using offers
  | cons call rest ih =>
    have next := offers.call call.1 (kept call List.mem_cons_self)
    have later := ih next fun other member => kept other (List.mem_cons_of_mem call member)
    rw [enumerated, List.flatMap_cons, <- List.append_assoc]
    exact later

end Offers

theorem storedEnum_plain {val : CString} (plain : isPlain val = true) (short : val.length ≤ 255) :
    storedEnum val = val := by
  have kept : snprintf stMaxValueLen val = val := snprintf_fits (by simp only [stMaxValueLen]; omega)
  have whole : Whole val := by
    rw [Whole, escapeAll_plain plain, stMaxValueLen]
    omega
  rw [storedEnum, kept, enumText_whole whole, escapeAll_plain plain]

def Reworded (val : CString) : Prop :=
  isPlain val = false ∨ 255 < val.length

-- The entries of the list are encoded, and the new value is not.
inductive EnumSlip (vals : List CString) (newval : CString) : Prop where
  | refused (listed : newval ∈ vals) (reworded : Reworded newval) (alone : ∀ val ∈ vals, newval ≠ storedEnum val)
  | taken (unlisted : newval ∉ vals) {val : CString} (member : val ∈ vals) (reworded : Reworded val)
      (written : newval = storedEnum val)

theorem storedEnum_reworded {val : CString} (changed : storedEnum val ≠ val) : Reworded val := by
  by_contra kept
  rw [Reworded, not_or, Bool.not_eq_false, Nat.not_lt] at kept
  exact changed (storedEnum_plain kept.1 kept.2)

theorem enumSlip_iff {vals : List CString} {newval : CString} :
    ((∃ val ∈ vals, newval = storedEnum val) ↔ newval ∈ vals) ↔ ¬ EnumSlip vals newval := by
  constructor
  · rintro same (⟨listed, _, alone⟩ | ⟨unlisted, member, _, written⟩)
    · obtain ⟨val, member, written⟩ := same.mpr listed
      exact alone val member written
    · exact unlisted (same.mp ⟨_, member, written⟩)
  · intro right
    constructor
    · rintro ⟨val, member, written⟩
      by_contra unlisted
      have other : storedEnum val ≠ val := fun same => unlisted (written.trans same ▸ member)
      exact right (.taken unlisted member (storedEnum_reworded other) written)
    · intro listed
      by_contra alone
      have each : ∀ val ∈ vals, newval ≠ storedEnum val := fun val member written => alone ⟨val, member, written⟩
      exact right (.refused listed (storedEnum_reworded (each newval listed).symm) each)

-- An integer in decimal digits, with or without a sign.
inductive DecimalOf : CString -> Int -> Prop where
  | unsigned {digits : CString} (some_ : digits ≠ []) (all : digits.all isdigit = true) :
      DecimalOf digits (digitsValue digits)
  | positive {digits : CString} (some_ : digits ≠ []) (all : digits.all isdigit = true) :
      DecimalOf (43 :: digits) (digitsValue digits)
  | negative {digits : CString} (some_ : digits ≠ []) (all : digits.all isdigit = true) :
      DecimalOf (45 :: digits) (-(digitsValue digits : Int))

theorem DecimalOf.atoi {text : CString} {n : Int} (decimal : DecimalOf text n) (low : -2 ^ 31 ≤ n) (high : n < 2 ^ 31) :
    (Nut.atoi text).toInt = n := by
  have read : strtol text = Int64.ofInt n := by
    have clamp : max longMin (min longMax n) = n := by
      simp only [longMin, longMax]
      omega
    cases decimal with
    | unsigned some_ all =>
      obtain ⟨b, rest, rfl⟩ := List.exists_cons_of_ne_nil some_
      rw [strtol_digit (List.all_eq_true.mp all b List.mem_cons_self), clamp]
    | positive | negative => exact congrArg Int64.ofInt clamp
  rw [Nut.atoi, read, Int64.toInt32_ofInt, Int32.toInt_ofInt_of_le low high]

-- What `set_var` asks for before it looks at the lists of the variable.
structure SetAdmits (w : Upsd) (client : Client) (ups : Upstype) (var newval : CString) : Prop where
  user : userCheckaction w.users client.username client.password "SET" = true
  present : stateGetinfo ups.inforoot var ≠ none
  writable : stateGetflags ups.inforoot var &&& stFlagRw ≠ 0
  fits : stateGetflags ups.inforoot var &&& stFlagString ≠ 0 ->
    1 ≤ stateGetaux ups.inforoot var ∧ newval.length ≤ (stateGetaux ups.inforoot var).toInt

def Forwards (now : Int) (w : Upsd) (client : Client) (upsname var newval : CString) (trackingId : Option CString)
    (ups : Upstype) : Prop :=
  (setVar now w client upsname var newval trackingId).lines = w.lines ++ [(ups.name, setCmd var newval trackingId)]

section SetVar

variable {now : Int} {w : Upsd} {client : Client} {upsname var newval : CString} {trackingId : Option CString}
  {ups : Upstype}

theorem reply_lines (id : Nat) (reply : Reply) : (w.reply id reply).lines = w.lines := by
  simp only [Upsd.reply, sendback]
  split <;> rfl

theorem sendErr_lines (id : Nat) (errtype : String) : (sendErr w id errtype).lines = w.lines := reply_lines id _

theorem track_lines : (track now w trackingId).lines = w.lines := by
  unfold track trackingAdd
  split
  · split <;> rfl
  · rfl

theorem relay_lines (connected : ups.connected = true) (cmd : CString) (failed : String) :
    (relay now w client ups cmd trackingId failed).lines = w.lines ++ [(ups.name, cmd)] := by
  have sent : (sstateSendline (track now w trackingId) ups cmd).1.lines = w.lines ++ [(ups.name, cmd)] := by
    unfold sstateSendline
    rw [connected]
    simp only [Bool.not_true, Bool.false_eq_true, if_false]
    split <;> exact congrArg (· ++ [(ups.name, cmd)]) track_lines
  unfold relay
  split
  next same =>
    rw [sendErr_lines]
    rw [same] at sent
    exact sent
  next same =>
    rw [same] at sent
    split <;> rw [reply_lines] <;> exact sent

theorem setVar_rule {P : Upsd -> Prop} (err : ∀ errtype, P (sendErr w client.id errtype))
    (passed : ∀ ups, getUpsPtr w upsname = some ups -> ups.connected = true -> ups.stale = false ->
      SetAdmits w client ups var newval -> enumAllows (stateGetenumlist ups.inforoot var) newval = true ->
        rangeAllows (stateGetrangelist ups.inforoot var) newval = true ->
          P (relay now w client ups (setCmd var newval trackingId) trackingId "SET-FAILED")) :
    P (setVar now w client upsname var newval trackingId) := by
  refine withUps_rule (err _) fun ups known => ?_
  unfold ifAvailable
  dsimp only
  refine iteInduction (fun _ => err _) fun closed => ?_
  refine iteInduction (fun _ => err _) fun stale => ?_
  refine iteInduction (fun _ => err _) fun user => ?_
  refine iteInduction (fun _ => err _) fun absent => ?_
  refine iteInduction (fun _ => err _) fun readonly => ?_
  refine iteInduction (fun _ => err _) fun short => ?_
  refine iteInduction (fun _ => err _) fun long => ?_
  refine iteInduction (fun _ => err _) fun enums => ?_
  refine iteInduction (fun _ => err _) fun ranges => ?_
  refine passed ups known (by simpa using closed) (by simpa using stale) ⟨by simpa using user, absent, readonly, ?_⟩
    (by simpa using enums) (by simpa using ranges)
  intro isString
  exact ⟨Int64.not_lt.mp fun small => short ⟨by simpa using isString, small⟩,
    Int.not_lt.mp fun more => long ⟨by simpa using isString, more⟩⟩

theorem setVar_forwards (known : getUpsPtr w upsname = some ups) (connected : ups.connected = true)
    (fresh : ups.stale = false) : Forwards now w client upsname var newval trackingId ups ↔
      SetAdmits w client ups var newval ∧ enumAllows (stateGetenumlist ups.inforoot var) newval = true ∧
        rangeAllows (stateGetrangelist ups.inforoot var) newval = true := by
  have unsent (errtype : String) :
      ¬ (sendErr w client.id errtype).lines = w.lines ++ [(ups.name, setCmd var newval trackingId)] := by
    rw [sendErr_lines]
    simp
  unfold Forwards setVar withUps ifAvailable
  simp only [known, connected, fresh, Bool.not_true, Bool.false_eq_true, if_false]
  have refused {errtype : String} {P : Prop} (fails : ¬ P) :
      (sendErr w client.id errtype).lines = w.lines ++ [(ups.name, setCmd var newval trackingId)] ↔ P :=
    iff_of_false (unsent errtype) fails
  split_ifs with user absent readonly short long enums ranges
  · exact refused fun all => by simp [all.1.user] at user
  · exact refused fun all => all.1.present absent
  · exact refused fun all => all.1.writable readonly
  · refine refused fun all => ?_
    have positive := (all.1.fits (by simpa using short.1)).1
    exact Int64.not_lt.mpr positive short.2
  · refine refused fun all => ?_
    have fits := (all.1.fits (by simpa using long.1)).2
    omega
  · exact refused fun all => by simp [all.2.1] at enums
  · exact refused fun all => by simp [all.2.2] at ranges
  · rw [relay_lines connected]
    refine iff_of_true rfl ⟨⟨by simpa using user, absent, readonly, fun isString => ⟨?_, ?_⟩⟩, by simpa using enums,
      by simpa using ranges⟩
    · exact Int64.not_lt.mp fun small => short ⟨by simpa using isString, small⟩
    · exact Int.not_lt.mp fun more => long ⟨by simpa using isString, more⟩

theorem rangeAllows_iff {rangeList : List (Int32 × Int32)} (some_ : rangeList ≠ []) :
    rangeAllows rangeList newval = true ↔ ∃ range ∈ rangeList, range.1 ≤ atoi newval ∧ atoi newval ≤ range.2 := by
  simp [rangeAllows, some_]

theorem enumAllows_iff {enumList : List CString} (some_ : enumList ≠ []) :
    enumAllows enumList newval = true ↔ newval ∈ enumList := by
  simp [enumAllows, some_]

-- What SET VAR lets through once upsd has mirrored the variable (`dumpall_replay`): of an enumeration
-- the entries, of ranges what starts with an integer of one of them.
theorem setVar_lists (known : getUpsPtr w upsname = some ups) (connected : ups.connected = true)
    (fresh : ups.stale = false) {d : Dstate} (start : Offers d.dtreeRoot var []) {calls : List (Int × DstateOp)}
    (kept : ∀ call ∈ calls, ¬ call.2.Retracts var) (mirrored : SameVariable (d.run calls).dtreeRoot ups.inforoot var) :
    (enumerated var calls ≠ [] -> stateGetrangelist (d.run calls).dtreeRoot var = [] ->
      (Forwards now w client upsname var newval trackingId ups ↔
        SetAdmits w client ups var newval ∧ ∃ val ∈ enumerated var calls, newval = storedEnum val)) ∧
    (enumerated var calls = [] -> stateGetrangelist (d.run calls).dtreeRoot var ≠ [] ->
      (Forwards now w client upsname var newval trackingId ups ↔ SetAdmits w client ups var newval ∧
        ∃ range ∈ stateGetrangelist (d.run calls).dtreeRoot var, range.1 ≤ atoi newval ∧ atoi newval ≤ range.2)) := by
  obtain ⟨_, node, found, entries⟩ := start.run kept
  have enums : stateGetenumlist ups.inforoot var = node.enumList := by
    rw [mirrored.2.1, stateGetenumlist, found]
  rw [List.nil_append] at entries
  rw [setVar_forwards known connected fresh, enums, mirrored.2.2.1]
  constructor
  · intro listed free
    have nonempty : node.enumList ≠ [] := by
      obtain ⟨val, member⟩ := List.exists_mem_of_ne_nil _ listed
      exact List.ne_nil_of_mem ((entries _).mpr ⟨val, member, rfl⟩)
    rw [free, enumAllows_iff nonempty, entries newval]
    simp only [rangeAllows, List.isEmpty_nil, Bool.true_or, and_true]
  · intro none_ ranges
    have empty : node.enumList = [] := by
      refine List.eq_nil_iff_forall_not_mem.mpr fun entry member => ?_
      obtain ⟨val, inside, _⟩ := (entries entry).mp member
      rw [none_] at inside
      cases inside
    simp only [empty, rangeAllows_iff ranges, enumAllows, List.isEmpty_nil, Bool.true_or, true_and]

-- A value counts exactly if no slip of the encoding applies, and a number exactly if it is one.
theorem setVar_validates (now : Int) {w : Upsd} (client : Client) {upsname : CString} (var newval : CString)
    (trackingId : Option CString) {ups : Upstype} (known : getUpsPtr w upsname = some ups)
    (connected : ups.connected = true) (fresh : ups.stale = false) {d : Dstate} (start : Offers d.dtreeRoot var [])
    {calls : List (Int × DstateOp)} (kept : ∀ call ∈ calls, ¬ call.2.Retracts var)
    (mirrored : SameVariable (d.run calls).dtreeRoot ups.inforoot var) :
    (enumerated var calls ≠ [] -> stateGetrangelist (d.run calls).dtreeRoot var = [] ->
      ((Forwards now w client upsname var newval trackingId ups ↔
          SetAdmits w client ups var newval ∧ newval ∈ enumerated var calls) ↔
        (SetAdmits w client ups var newval -> ¬ EnumSlip (enumerated var calls) newval))) ∧
    (enumerated var calls = [] -> stateGetrangelist (d.run calls).dtreeRoot var ≠ [] ->
      ((Forwards now w client upsname var newval trackingId ups -> SetAdmits w client ups var newval ∧
          ∃ n, DecimalOf newval n ∧ ∃ range ∈ stateGetrangelist (d.run calls).dtreeRoot var,
            range.1.toInt ≤ n ∧ n ≤ range.2.toInt) ↔
        (SetAdmits w client ups var newval -> (∃ n, DecimalOf newval n ∧ -2 ^ 31 ≤ n ∧ n < 2 ^ 31) ∨
          ∀ range ∈ stateGetrangelist (d.run calls).dtreeRoot var, atoi newval < range.1 ∨ range.2 < atoi newval))) := by
  obtain ⟨enums, ranges⟩ := @setVar_lists now w client upsname var newval trackingId ups known connected fresh d start
    calls kept mirrored
  constructor
  · intro listed free
    rw [enums listed free, <- enumSlip_iff]
    exact and_congr_right_iff
  · intro none_ some_
    rw [ranges none_ some_]
    constructor
    · intro right admits
      by_cases inside : ∃ range ∈ stateGetrangelist (d.run calls).dtreeRoot var,
          range.1 ≤ atoi newval ∧ atoi newval ≤ range.2
      · obtain ⟨_, n, decimal, range, member, low, high⟩ := right ⟨admits, inside⟩
        have least := range.1.le_toInt
        have most := range.2.toInt_lt
        exact .inl ⟨n, decimal, by omega, by omega⟩
      · refine .inr fun range member => ?_
        by_contra between
        rw [not_or, Int32.not_lt, Int32.not_lt] at between
        exact inside ⟨range, member, between⟩
    · rintro exact_ ⟨admits, range, member, low, high⟩
      refine ⟨admits, ?_⟩
      obtain ⟨n, decimal, least, most⟩ | outside := exact_ admits
      · have value := decimal.atoi least most
        exact ⟨n, decimal, range, member, value ▸ Int32.le_iff_toInt_le.mp low, value ▸ Int32.le_iff_toInt_le.mp high⟩
      · obtain below | above := outside range member
        · exact absurd low (Int32.not_le.mpr below)
        · exact absurd high (Int32.not_le.mpr above)

end SetVar

def sampleDriver : Dstate :=
  Dstate.empty.run
    [(0, .setinfo (cstr "input.transfer.low") (cstr "95")), (0, .setflags (cstr "input.transfer.low") stFlagRw)]

def sampleEnums : List (Int × DstateOp) :=
  [(1, .addenum (cstr "input.transfer.low") (cstr "90")), (1, .addenum (cstr "input.transfer.low") (cstr "100"))]

def sampleRange : List (Int × DstateOp) :=
  [(1, .addrange (cstr "input.transfer.low") 90 100)]

def mirroredUps (d : Dstate) : Upstype :=
  { sampleUps with inforoot := d.dtreeRoot }

def mirroredUpsd (d : Dstate) : Upsd :=
  { sampleUpsd with firstups := [mirroredUps d] }

def sampleSetter : Client :=
  { id := 0, addr := cstr "::1", lastHeard := 0, loginups := none, password := some (cstr "x"),
    username := some (cstr "admin"), tracking := false, ctx := pconfInit }

theorem sampleDriver_offers : Offers sampleDriver.dtreeRoot (cstr "input.transfer.low") [] := by
  have ordered : Ordered sampleDriver.dtreeRoot := by
    refine ⟨trivial, trivial, ?_, ?_⟩ <;> simp [SearchTree.toList]
  exact ⟨ordered, _, rfl, fun text => iff_of_false List.not_mem_nil (by simp)⟩

theorem setVar_validates_sample :
    (Forwards 2 (mirroredUpsd (sampleDriver.run sampleEnums)) sampleSetter (cstr "ups") (cstr "input.transfer.low")
        (cstr "100") none (mirroredUps (sampleDriver.run sampleEnums)) ↔
      SetAdmits (mirroredUpsd (sampleDriver.run sampleEnums)) sampleSetter
          (mirroredUps (sampleDriver.run sampleEnums)) (cstr "input.transfer.low") (cstr "100") ∧
        cstr "100" ∈ enumerated (cstr "input.transfer.low") sampleEnums) ∧
    (Forwards 2 (mirroredUpsd (sampleDriver.run sampleRange)) sampleSetter (cstr "ups") (cstr "input.transfer.low")
        (cstr "95") none (mirroredUps (sampleDriver.run sampleRange)) ->
      SetAdmits (mirroredUpsd (sampleDriver.run sampleRange)) sampleSetter
          (mirroredUps (sampleDriver.run sampleRange)) (cstr "input.transfer.low") (cstr "95") ∧
        ∃ n, DecimalOf (cstr "95") n ∧
          ∃ range ∈ stateGetrangelist (sampleDriver.run sampleRange).dtreeRoot (cstr "input.transfer.low"),
            range.1.toInt ≤ n ∧ n ≤ range.2.toInt) := by
  refine ⟨Iff.mpr ((setVar_validates 2 sampleSetter (cstr "input.transfer.low") (cstr "100") none rfl rfl rfl
      sampleDriver_offers (by simp [sampleEnums, DstateOp.Retracts]) ⟨rfl, rfl, rfl, rfl, rfl, rfl, rfl⟩).1 (by decide)
      (by decide +kernel)) fun _ slip => ?_,
    Iff.mpr ((setVar_validates 2 sampleSetter (cstr "input.transfer.low") (cstr "95") none rfl rfl rfl
      sampleDriver_offers (by simp [sampleRange, DstateOp.Retracts]) ⟨rfl, rfl, rfl, rfl, rfl, rfl, rfl⟩).2 (by decide)
      (by decide +kernel)) fun _ => .inl ⟨95, .unsigned (by decide) (by decide), by decide⟩⟩
  cases slip with
  | refused _ reworded _ => exact absurd reworded (by simp [Reworded]; decide)
  | taken unlisted _ _ _ => exact unlisted (by decide)

def sampleQuoted : List (Int × DstateOp) :=
  [(1, .addenum (cstr "input.transfer.low") (cstr "a\"b"))]

-- A listed value is refused, and a value that is no integer forwarded, as its integer part lies in the range.
theorem setVar_not_integer : (cstr "a\"b" ∈ enumerated (cstr "input.transfer.low") sampleQuoted ∧
      ¬ Forwards 2 (mirroredUpsd (sampleDriver.run sampleQuoted)) sampleSetter (cstr "ups") (cstr "input.transfer.low")
        (cstr "a\"b") none (mirroredUps (sampleDriver.run sampleQuoted)) ∧
      SetAdmits (mirroredUpsd (sampleDriver.run sampleQuoted)) sampleSetter
        (mirroredUps (sampleDriver.run sampleQuoted)) (cstr "input.transfer.low") (cstr "a\"b")) ∧
    Forwards 2 (mirroredUpsd (sampleDriver.run sampleRange)) sampleSetter (cstr "ups")
        (cstr "input.transfer.low") (cstr "95.5") none (mirroredUps (sampleDriver.run sampleRange)) ∧
      stateGetenumlist (sampleDriver.run sampleRange).dtreeRoot (cstr "input.transfer.low") = [] ∧
      stateGetrangelist (sampleDriver.run sampleRange).dtreeRoot (cstr "input.transfer.low") = [(90, 100)] ∧
      ∀ n, ¬ DecimalOf (cstr "95.5") n := by
  refine ⟨⟨by decide, by unfold Forwards; decide +kernel, ⟨by decide +kernel, by decide +kernel, by decide +kernel,
    fun isString => absurd isString (by decide +kernel)⟩⟩, by unfold Forwards; decide +kernel, by decide +kernel,
    by decide +kernel, ?_⟩
  intro n decimal
  generalize text : cstr "95.5" = value at decimal
  cases decimal with
  | unsigned _ all => exact absurd (text ▸ all) (by decide)
  | positive _ _ | negative _ _ => exact absurd (List.cons.inj text).1 (by decide)

end Nut
