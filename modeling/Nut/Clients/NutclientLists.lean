import Mathlib.Data.List.AList
import Nut.Clients.NutclientWords
import Nut.Server.NetGet
import Nut.Server.Replay

set_option autoImplicit false

namespace Nut

inductive Thrown where
  | nutException (msg : CString)
  -- `std::out_of_range`, from `substr`
  | outOfRange
  -- `vals[0]` of an empty vector, which C++ leaves open
  | undefined
  deriving DecidableEq, Repr

-- What a connection has been given, and the strings that `Socket::read` returns one after the other.
structure Socket where
  written : CString
  incoming : List CString
  deriving DecidableEq, Repr

def receivedBehind (res : CString) : CString -> List CString
  | [] => []
  | b :: buffer => if b = 10 then res :: receivedBehind [] buffer else receivedBehind (res ++ [b]) buffer

def received (stream : CString) : List CString :=
  receivedBehind [] stream

def Socket.write (socket : Socket) (str : CString) : Socket :=
  { socket with written := socket.written ++ str ++ [10] }

def Socket.read (socket : Socket) : Except Thrown CString × Socket :=
  match socket.incoming with
  | [] => (.error (.nutException (cstr "Server closed connection unexpectedly")), socket)
  | res :: incoming => (.ok res, { socket with incoming })

def sendQuery (req : CString) (socket : Socket) : Except Thrown CString × Socket :=
  (socket.write req).read

def sendAsyncQueries (req : List CString) (socket : Socket) : Socket :=
  req.foldl Socket.write socket

def detectError (req : CString) : Except Thrown Unit :=
  if req.take 3 = cstr "ERR" then
    if req.length < 4 then .error .outOfRange else .error (.nutException (req.drop 4))
  else .ok ()

def parseListItems (req : CString) (arr : List (List CString)) :
    List CString -> Except Thrown (List (List CString)) × List CString
  | [] => (.error (.nutException (cstr "Server closed connection unexpectedly")), [])
  | res :: incoming =>
    match detectError res with
    | .error thrown => (.error thrown, incoming)
    | .ok () =>
      if res = cstr "END LIST " ++ req then (.ok arr, incoming)
      else if res.take req.length = req then parseListItems req (arr ++ [explode res req.length]) incoming
      else (.error (.nutException (cstr "Invalid response")), incoming)

def parseList (req : CString) : List CString -> Except Thrown (List (List CString)) × List CString
  | [] => (.error (.nutException (cstr "Server closed connection unexpectedly")), [])
  | res :: incoming =>
    match detectError res with
    | .error thrown => (.error thrown, incoming)
    | .ok () =>
      if res ≠ cstr "BEGIN LIST " ++ req then (.error (.nutException (cstr "Invalid response")), incoming)
      else parseListItems req [] incoming

abbrev Variables := AList fun _ : CString => List CString

abbrev DeviceVariables := AList fun _ : CString => Variables

def variablesOf (map2 : Variables) : List (List CString) -> Except Thrown Variables
  | [] => .ok map2
  | [] :: _ => .error .undefined
  | (var :: vals) :: res => variablesOf (map2.insert var vals) res

def collectDevices (map : DeviceVariables) :
    List CString -> List CString -> Except Thrown DeviceVariables × List CString
  | [], incoming => (.ok map, incoming)
  | dev :: devs, incoming =>
    let (res, incoming) := parseList (cstr "VAR " ++ dev) incoming
    match res.bind (variablesOf ∅) with
    | .ok map2 => collectDevices (map.insert dev map2) devs incoming
    | .error (.nutException _) => collectDevices map devs incoming
    | .error thrown => (.error thrown, incoming)

-- `std::set<std::string>`, in the order of its iterators.
structure NameSet where
  names : List CString
  sorted : names.Pairwise (· < ·)

def getDevicesVariableValues (devs : NameSet) (socket : Socket) : Except Thrown DeviceVariables × Socket :=
  if devs.names = [] then (.ok ∅, socket)
  else
    let socket := sendAsyncQueries (devs.names.map (cstr "LIST VAR " ++ ·)) socket
    let (res, incoming) := collectDevices ∅ devs.names socket.incoming
    let socket := { socket with incoming }
    match res with
    | .ok map => if map.entries = [] then (.error (.nutException (cstr "Invalid device")), socket) else (.ok map, socket)
    | .error thrown => (.error thrown, socket)

structure ListedVar where
  name : CString
  value : CString
  nonempty : name ≠ []
  simple : ∀ b ∈ name, IsSimple b ∧ b ≠ 10
  printable : ∀ b ∈ value, isText b = true

def ListedVar.reply (dev : CString) (var : ListedVar) : Reply :=
  .value "VAR" dev var.name (escapeAll var.value)

inductive DeviceReply where
  | err (errtype : String) (oneLine : 10 ∉ cstr errtype)
  | complete (vars : List ListedVar)
  | cut (vars : List ListedVar) (errtype : String) (oneLine : 10 ∉ cstr errtype)

def DeviceReply.replies (dev : CString) : DeviceReply -> List Reply
  | err errtype _ => [.err errtype]
  | complete vars => .beginList "VAR" [dev] :: vars.map (·.reply dev) ++ [.endList "VAR" [dev]]
  | cut vars errtype _ => .beginList "VAR" [dev] :: vars.map (·.reply dev) ++ [.err errtype]

def DeviceReply.value (reply : DeviceReply) (name : CString) : Option CString :=
  match reply with
  | complete vars => (vars.reverse.find? (·.name == name)).map ListedVar.value
  | err _ _ | cut _ _ _ => none

def DeviceReply.isComplete : DeviceReply -> Bool
  | complete _ => true
  | err _ _ | cut _ _ _ => false

def stream (devs : List CString) (reply : CString -> DeviceReply) : CString :=
  devs.flatMap fun dev => ((reply dev).replies dev).flatMap Reply.format

section Tree

end Tree

section Lines

def ListedVar.line (dev : CString) (var : ListedVar) : CString :=
  cstr "VAR " ++ dev ++ 32 :: (var.name ++ 32 :: (34 :: escapeAll var.value ++ [34]))

def DeviceReply.lines (dev : CString) : DeviceReply -> List CString
  | err errtype _ => [cstr "ERR " ++ cstr errtype]
  | complete vars =>
    (cstr "BEGIN LIST VAR " ++ dev) :: vars.map (·.line dev) ++ [cstr "END LIST VAR " ++ dev]
  | cut vars errtype _ =>
    (cstr "BEGIN LIST VAR " ++ dev) :: vars.map (·.line dev) ++ [cstr "ERR " ++ cstr errtype]

theorem received_line {text : CString} (oneLine : 10 ∉ text) (rest : CString) :
    received (text ++ 10 :: rest) = text :: received rest := by
  have behind (res : CString) : receivedBehind res (text ++ 10 :: rest) = (res ++ text) :: received rest := by
    induction text generalizing res with
    | nil => simp [receivedBehind, received]
    | cons b text ih =>
      have other : b ≠ 10 := fun same => oneLine (same ▸ List.mem_cons_self)
      rw [List.cons_append, receivedBehind, if_neg other, ih fun member => oneLine (List.mem_cons_of_mem b member)]
      simp
  exact behind []

theorem received_lines {lines : List CString} (oneLine : ∀ line ∈ lines, 10 ∉ line) (rest : CString) :
    received (lines.flatMap (· ++ [10]) ++ rest) = lines ++ received rest := by
  induction lines with
  | nil => rfl
  | cons line lines ih =>
    have first := received_line (oneLine line List.mem_cons_self) (lines.flatMap (· ++ [10]) ++ rest)
    have later := ih fun other member => oneLine other (List.mem_cons_of_mem line member)
    rw [later] at first
    simpa using first

theorem escapeAll_oneLine {value : CString} (printable : ∀ b ∈ value, isText b = true) : 10 ∉ escapeAll value :=
  fun member => isText_ne_newline ((quotedAs_escapeAll printable).isText 10 member) rfl

variable {dev : CString} (oneLine : 10 ∉ dev)

include oneLine in
theorem ListedVar.line_oneLine (var : ListedVar) : 10 ∉ var.line dev := by
  have name : 10 ∉ var.name := fun member => (var.simple 10 member).2 rfl
  have value := escapeAll_oneLine var.printable
  have word : 10 ∉ cstr "VAR " := by decide
  simp [line, oneLine, name, value, word]

include oneLine in
theorem DeviceReply.lines_oneLine (reply : DeviceReply) : ∀ line ∈ reply.lines dev, 10 ∉ line := by
  have words : 10 ∉ cstr "ERR " ∧ 10 ∉ cstr "BEGIN LIST VAR " ∧ 10 ∉ cstr "END LIST VAR " := by decide
  cases reply with
  | err errtype code => simp [lines, words, code]
  | complete vars => simpa [lines, words, oneLine, or_imp, forall_and] using fun var _ => var.line_oneLine oneLine
  | cut vars errtype code =>
    simpa [lines, words, oneLine, code, or_imp, forall_and] using fun var _ => var.line_oneLine oneLine

theorem DeviceReply.replies_format (reply : DeviceReply) :
    (reply.replies dev).flatMap Reply.format = (reply.lines dev).flatMap (· ++ [10]) := by
  have newline : cstr "\n" = [10] := rfl
  have begin_ : (Reply.beginList "VAR" [dev]).format = cstr "BEGIN LIST VAR " ++ dev ++ [10] := by
    simp [Reply.format, Reply.names, newline, show cstr "BEGIN LIST VAR " = cstr "BEGIN LIST " ++ (cstr "VAR" ++ cstr " ") from rfl]
  have end_ : (Reply.endList "VAR" [dev]).format = cstr "END LIST VAR " ++ dev ++ [10] := by
    simp [Reply.format, Reply.names, newline, show cstr "END LIST VAR " = cstr "END LIST " ++ (cstr "VAR" ++ cstr " ") from rfl]
  have var (v : ListedVar) : (v.reply dev).format = v.line dev ++ [10] := by
    simp [Reply.format, ListedVar.reply, ListedVar.line, show cstr "VAR " = cstr "VAR" ++ cstr " " from rfl,
      show cstr " \"" = [32, 34] from rfl, show cstr "\"\n" = [34, 10] from rfl, show cstr " " = [32] from rfl]
  have err_ (errtype : String) : (Reply.err errtype).format = cstr "ERR " ++ cstr errtype ++ [10] := rfl
  cases reply with
  | err errtype code => simp [replies, lines, err_]
  | complete vars => simp [replies, lines, begin_, end_, var, List.flatMap_map]
  | cut vars errtype code => simp [replies, lines, begin_, var, err_, List.flatMap_map]

theorem received_stream {devs : List CString} (oneLine : ∀ dev ∈ devs, 10 ∉ dev) (reply : CString -> DeviceReply)
    (next : CString) :
    received (stream devs reply ++ next) = devs.flatMap (fun dev => (reply dev).lines dev) ++ received next := by
  induction devs with
  | nil => rfl
  | cons dev devs ih =>
    have later := ih fun other member => oneLine other (List.mem_cons_of_mem dev member)
    have first := received_lines ((reply dev).lines_oneLine (oneLine dev List.mem_cons_self)) (stream devs reply ++ next)
    rw [later, <- DeviceReply.replies_format] at first
    simpa [stream] using first

end Lines

section Parse

variable (dev : CString) (incoming : List CString)

theorem detectError_ok {text : CString} (rest : CString) (long : 3 ≤ text.length) (fine : text.take 3 ≠ cstr "ERR") :
    detectError (text ++ rest) = .ok () := by
  rw [detectError, List.take_append_of_le_length long, if_neg fine]

theorem detectError_err (errtype : CString) : detectError (cstr "ERR " ++ errtype) = .error (.nutException errtype) := by
  have start : (cstr "ERR " ++ errtype).take 3 = cstr "ERR" := List.take_append_of_le_length (by decide)
  have long : ¬ (cstr "ERR " ++ errtype).length < 4 := by simp [show (cstr "ERR ").length = 4 from rfl]
  rw [detectError, if_pos start, if_neg long]
  rfl

theorem explode_line (var : ListedVar) :
    explode (var.line dev) (cstr "VAR " ++ dev).length = [var.name, var.value.map garbled] := by
  have simple : ∀ b ∈ var.name, IsSimple b := fun b member => (var.simple b member).1
  have value := explode_encoded [var.name] var.value
  rw [explode, ListedVar.line, List.drop_left, explodeChars_cons, explode_space, explodeChars_append,
    explode_simpleWord [] simple var.nonempty, explodeChars_cons, explode_word_space, List.nil_append, value]
  rfl

variable (arr : List (List CString))

theorem parseListItems_var (var : ListedVar) : parseListItems (cstr "VAR " ++ dev) arr (var.line dev :: incoming) =
      parseListItems (cstr "VAR " ++ dev) (arr ++ [[var.name, var.value.map garbled]]) incoming := by
  have fine : detectError (var.line dev) = .ok () := by
    rw [ListedVar.line, List.append_assoc]
    exact detectError_ok _ (by decide) (by decide)
  have notEnd : var.line dev ≠ cstr "END LIST " ++ (cstr "VAR " ++ dev) := by
    intro same
    have first := congrArg List.head? same
    cases first
  have begins : (var.line dev).take (cstr "VAR " ++ dev).length = cstr "VAR " ++ dev := List.take_left
  rw [parseListItems, fine, if_neg notEnd, if_pos begins, explode_line]

theorem parseListItems_vars (vars : List ListedVar) :
    parseListItems (cstr "VAR " ++ dev) arr (vars.map (·.line dev) ++ incoming) =
      parseListItems (cstr "VAR " ++ dev) (arr ++ vars.map fun var => [var.name, var.value.map garbled]) incoming := by
  induction vars generalizing arr with
  | nil => simp
  | cons var vars ih =>
    rw [List.map_cons, List.cons_append, parseListItems_var, ih]
    simp

theorem parseList_begin : parseList (cstr "VAR " ++ dev) ((cstr "BEGIN LIST VAR " ++ dev) :: incoming) =
      parseListItems (cstr "VAR " ++ dev) [] incoming := by
  have fine : detectError (cstr "BEGIN LIST VAR " ++ dev) = .ok () := detectError_ok dev (by decide) (by decide)
  have same : cstr "BEGIN LIST VAR " ++ dev = cstr "BEGIN LIST " ++ (cstr "VAR " ++ dev) := by
    rw [<- List.append_assoc]
    rfl
  rw [parseList, fine]
  simp [same]

theorem parseList_lines (reply : DeviceReply) :
    (parseList (cstr "VAR " ++ dev) (reply.lines dev ++ incoming)).2 = incoming ∧
      match reply with
      | .complete vars => (parseList (cstr "VAR " ++ dev) (reply.lines dev ++ incoming)).1 =
          .ok (vars.map fun var => [var.name, var.value.map garbled])
      | .err errtype _ | .cut _ errtype _ => (parseList (cstr "VAR " ++ dev) (reply.lines dev ++ incoming)).1 =
          .error (.nutException (cstr errtype)) := by
  cases reply with
  | err errtype code => simp [DeviceReply.lines, parseList, detectError_err]
  | complete vars =>
    have ended : cstr "END LIST VAR " ++ dev = cstr "END LIST " ++ (cstr "VAR " ++ dev) := by
      rw [<- List.append_assoc]
      rfl
    have fine : detectError (cstr "END LIST " ++ (cstr "VAR " ++ dev)) = .ok () :=
      detectError_ok _ (by decide) (by decide)
    rw [DeviceReply.lines, List.cons_append, List.cons_append, parseList_begin, List.append_assoc, parseListItems_vars]
    simp [parseListItems, fine, ended]
  | cut vars errtype code =>
    rw [DeviceReply.lines, List.cons_append, List.cons_append, parseList_begin, List.append_assoc, parseListItems_vars]
    simp [parseListItems, detectError_err]

theorem variablesOf_listed (vars : List ListedVar) (map2 : Variables) :
    ∃ table, variablesOf map2 (vars.map fun var => [var.name, var.value.map garbled]) = .ok table ∧
      ∀ name, table.lookup name =
        ((vars.reverse.find? (·.name == name)).map fun var => [var.value.map garbled]).or (map2.lookup name) := by
  induction vars generalizing map2 with
  | nil => exact ⟨map2, rfl, fun name => by simp⟩
  | cons var vars ih =>
    obtain ⟨table, stored, found⟩ := ih (map2.insert var.name [var.value.map garbled])
    refine ⟨table, stored, fun name => ?_⟩
    rw [found, List.reverse_cons, List.find?_append]
    by_cases here : var.name = name
    · subst here
      simp [AList.lookup_insert]
    · have other : name ≠ var.name := Ne.symm here
      simp [AList.lookup_insert_ne other, here]

end Parse

def DeviceReply.StoredAs (read : CString -> CString) (reply : DeviceReply) (stored : Option Variables) : Prop :=
  if reply.isComplete then
    ∃ table, stored = some table ∧ ∀ name, table.lookup name = (reply.value name).map fun value => [read value]
  else stored = none

section Devices

variable {devs : List CString} (reply : CString -> DeviceReply) (incoming : List CString)

theorem collectDevices_step (dev : CString) (devs : List CString) {map : DeviceVariables} (fresh : map.lookup dev = none) :
    ∃ map', collectDevices map (dev :: devs) ((reply dev).lines dev ++ incoming) = collectDevices map' devs incoming ∧
      (reply dev).StoredAs (List.map garbled) (map'.lookup dev) ∧
      ∀ other, other ≠ dev -> map'.lookup other = map.lookup other := by
  obtain ⟨rest, result⟩ := parseList_lines dev incoming (reply dev)
  cases answer : reply dev with
  | complete vars =>
    rw [answer] at rest result
    obtain ⟨table, stored, found⟩ := variablesOf_listed vars ∅
    refine ⟨map.insert dev table, ?_, ⟨table, AList.lookup_insert map, fun name => ?_⟩, fun other different =>
      AList.lookup_insert_ne different⟩
    · simp only [collectDevices, rest, result, Except.bind, stored]
    · rw [found, AList.lookup_empty, Option.or_none, DeviceReply.value, Option.map_map]
      rfl
  | err errtype code | cut vars errtype code =>
    rw [answer] at rest result
    refine ⟨map, ?_, fresh, fun _ _ => rfl⟩
    simp only [collectDevices, rest, result, Except.bind]

theorem collectDevices_lines (distinct : devs.Nodup) {map : DeviceVariables} (fresh : ∀ dev ∈ devs, map.lookup dev = none) :
    ∃ map', collectDevices map devs (devs.flatMap (fun dev => (reply dev).lines dev) ++ incoming) = (.ok map', incoming) ∧
      (∀ dev ∈ devs, (reply dev).StoredAs (List.map garbled) (map'.lookup dev)) ∧
      ∀ dev, dev ∉ devs -> map'.lookup dev = map.lookup dev := by
  induction devs generalizing map with
  | nil => exact ⟨map, rfl, by simp, fun dev _ => rfl⟩
  | cons dev devs ih =>
    obtain ⟨once, distinct⟩ := List.nodup_cons.mp distinct
    have others : ∀ other ∈ devs, other ≠ dev := fun other member same => once (same ▸ member)
    obtain ⟨first, step, stored, kept⟩ := collectDevices_step reply (devs.flatMap (fun dev => (reply dev).lines dev) ++ incoming)
      dev devs (fresh dev List.mem_cons_self)
    obtain ⟨last, run, later, rest⟩ := ih distinct fun other member =>
      (kept other (others other member)).trans (fresh other (List.mem_cons_of_mem dev member))
    refine ⟨last, ?_, ?_, fun other absent => ?_⟩
    · rw [List.flatMap_cons, List.append_assoc, step, run]
    · intro other member
      obtain rfl | member := List.mem_cons.mp member
      · rw [rest other once]
        exact stored
      · exact later other member
    · rw [List.mem_cons, not_or] at absent
      rw [rest other absent.2, kept other absent.1]

theorem NameSet.distinct (set : NameSet) : set.names.Nodup :=
  set.sorted.imp fun less same => absurd (same ▸ less) (List.lt_irrefl _)

theorem sendAsyncQueries_eq (req : List CString) (socket : Socket) :
    sendAsyncQueries req socket = { socket with written := socket.written ++ req.flatMap (· ++ [10]) } := by
  induction req generalizing socket with
  | nil => simp [sendAsyncQueries]
  | cons first req ih =>
    have later := ih (socket.write first)
    rw [sendAsyncQueries, List.foldl_cons, <- sendAsyncQueries, later]
    simp [Socket.write]

theorem entries_eq_nil_iff {α : Type} {β : α -> Type} [DecidableEq α] (map : AList β) :
    map.entries = [] ↔ ∀ key, map.lookup key = none := by
  simp only [AList.lookup_eq_none, AList.mem_keys, AList.keys]
  constructor
  · intro none_ key
    simp [none_, List.keys]
  · intro absent
    refine List.eq_nil_iff_forall_not_mem.mpr fun entry member => ?_
    exact absent entry.1 (List.mem_map_of_mem member)

def queries (devs : List CString) : CString :=
  devs.flatMap fun dev => cstr "LIST VAR " ++ dev ++ [10]

theorem getDevicesVariableValues_stream {set : NameSet} (oneLine : ∀ dev ∈ set.names, 10 ∉ dev) (written next : CString) :
    ∃ map : DeviceVariables, getDevicesVariableValues set ⟨written, received (stream set.names reply ++ next)⟩ =
        (if set.names ≠ [] ∧ ∀ dev ∈ set.names, (reply dev).isComplete = false then
            .error (.nutException (cstr "Invalid device")) else .ok map,
          ⟨written ++ queries set.names, received next⟩) ∧
      (∀ dev ∈ set.names, (reply dev).StoredAs (List.map garbled) (map.lookup dev)) ∧
      ∀ dev, dev ∉ set.names -> map.lookup dev = none := by
  have fresh : ∀ dev ∈ set.names, (∅ : DeviceVariables).lookup dev = none := fun dev _ => AList.lookup_empty dev
  obtain ⟨map, run, stored, kept⟩ := collectDevices_lines reply (received next) set.distinct fresh
  refine ⟨map, ?_, stored, kept⟩
  have empty : map.entries = [] ↔ ∀ dev ∈ set.names, (reply dev).isComplete = false := by
    rw [entries_eq_nil_iff]
    constructor
    · intro nothing dev member
      have kept := stored dev member
      rw [nothing dev, DeviceReply.StoredAs] at kept
      split at kept
      next => obtain ⟨table, found, _⟩ := kept; cases found
      next incomplete => simpa using incomplete
    · intro failed dev
      by_cases member : dev ∈ set.names
      · simpa [DeviceReply.StoredAs, failed dev member] using stored dev member
      · exact kept dev member
  rw [getDevicesVariableValues, received_stream oneLine]
  by_cases none_ : set.names = []
  · have nothing : map = ∅ := by
      rw [none_] at run
      simpa [collectDevices] using run.symm
    simp [none_, nothing, queries]
  · have sent (socket : Socket) : sendAsyncQueries (set.names.map (cstr "LIST VAR " ++ ·)) socket =
        { socket with written := socket.written ++ queries set.names } := by
      rw [sendAsyncQueries_eq, List.flatMap_map]
      rfl
    simp only [none_, if_false, sent, run, empty, ne_eq, not_false_eq_true, true_and]
    split_ifs <;> rfl

end Devices

-- The call takes the replies to its own queries and returns what they say, or throws a `NutException`
-- when no list is complete; the next query gets the line behind them.
def InStep (set : NameSet) (reply : CString -> DeviceReply) : Prop :=
  ∀ written next,
    let (result, socket) := getDevicesVariableValues set ⟨written, received (stream set.names reply ++ next)⟩
    socket = ⟨written ++ queries set.names, received next⟩ ∧
      (∀ req line rest, next = line ++ 10 :: rest -> 10 ∉ line -> (sendQuery req socket).1 = .ok line) ∧
      match result with
      | .ok map => (∀ dev ∈ set.names, (reply dev).StoredAs id (map.lookup dev)) ∧
          ∀ dev, dev ∉ set.names -> map.lookup dev = none
      | .error thrown => (∃ msg, thrown = .nutException msg) ∧ ∀ dev ∈ set.names, (reply dev).isComplete = false

section InStep

variable {set : NameSet} {reply : CString -> DeviceReply}

theorem DeviceReply.isComplete_value {reply : DeviceReply} {name value : CString} (listed : reply.value name = some value) :
    reply.isComplete = true := by
  cases reply with
  | complete => rfl
  | err | cut => cases listed

theorem DeviceReply.storedAs_iff {reply : DeviceReply} {stored : Option Variables}
    (garbledly : reply.StoredAs (List.map garbled) stored) :
    reply.StoredAs id stored ↔ ∀ name value, reply.value name = some value -> 35 ∉ value := by
  constructor
  · intro faithfully name value listed
    rw [StoredAs, if_pos (isComplete_value listed)] at garbledly faithfully
    obtain ⟨table, rfl, read⟩ := garbledly
    obtain ⟨table, ⟨⟩, same⟩ := faithfully
    have both := (read name).symm.trans (same name)
    rw [listed] at both
    simpa [map_garbled_iff] using both
  · intro free
    rw [StoredAs] at garbledly ⊢
    split at garbledly
    next complete =>
      obtain ⟨table, stored, read⟩ := garbledly
      rw [if_pos complete]
      refine ⟨table, stored, fun name => ?_⟩
      rw [read]
      cases listed : reply.value name with
      | none => rfl
      | some value => simp [(map_garbled_iff value).mpr (free name value listed)]
    next incomplete => rwa [if_neg incomplete]

-- The lists stay in step; their values are read back as long as no `#` is among them.
theorem inStep_iff (oneLine : ∀ dev ∈ set.names, 10 ∉ dev) :
    InStep set reply ↔ ∀ dev ∈ set.names, ∀ name value, (reply dev).value name = some value -> 35 ∉ value := by
  constructor
  · intro inStep dev member name value listed
    obtain ⟨map, call, stored, _⟩ := getDevicesVariableValues_stream reply oneLine [] []
    have some_ : ¬ (set.names ≠ [] ∧ ∀ dev ∈ set.names, (reply dev).isComplete = false) := by
      rintro ⟨_, failed⟩
      cases (DeviceReply.isComplete_value listed).symm.trans (failed dev member)
    have returned := inStep [] []
    rw [call, if_neg some_] at returned
    exact (DeviceReply.storedAs_iff (stored dev member)).mp (returned.2.2.1 dev member) name value listed
  · intro free written next
    obtain ⟨map, call, stored, kept⟩ := getDevicesVariableValues_stream reply oneLine written next
    rw [call]
    refine ⟨rfl, ?_, ?_⟩
    · rintro req line rest rfl single
      simp [sendQuery, Socket.write, Socket.read, received_line single]
    · by_cases failed : set.names ≠ [] ∧ ∀ dev ∈ set.names, (reply dev).isComplete = false
      · rw [if_pos failed]
        exact ⟨⟨_, rfl⟩, failed.2⟩
      · rw [if_neg failed]
        exact ⟨fun dev member => (DeviceReply.storedAs_iff (stored dev member)).mpr (free dev member), kept⟩

theorem inStep_two : InStep ⟨[cstr "a", cstr "ab"], by decide⟩ fun dev =>
    if dev = cstr "a" then
      .complete [⟨cstr "ups.id", cstr "ab", by decide, by unfold IsSimple; decide +kernel, by decide +kernel⟩]
    else .err "UNKNOWN-UPS" (by decide) :=
  (inStep_iff (by decide)).mpr fun dev _ name value listed => by
    split at listed
    · obtain ⟨var, found, rfl⟩ := Option.map_eq_some_iff.mp listed
      cases List.mem_singleton.mp (List.mem_of_find?_eq_some found)
      decide
    · cases listed

def hashReply : DeviceReply :=
  .complete [⟨cstr "ups.id", cstr "a#b", by decide, by unfold IsSimple; decide +kernel, by decide +kernel⟩]

-- The character comes back as a DEL.
theorem not_inStep_hash :
    (do ((<- (getDevicesVariableValues ⟨[cstr "ups"], by decide⟩
        ⟨[], received (cstr "BEGIN LIST VAR ups\nVAR ups ups.id \"a\\#b\"\nEND LIST VAR ups\n")⟩).1.toOption).lookup
          (cstr "ups")).bind (·.lookup (cstr "ups.id"))) = some [[97, 127, 98]] ∧
      ¬ InStep ⟨[cstr "ups"], by decide⟩ fun _ => hashReply := by
  refine ⟨by decide, fun inStep => ?_⟩
  obtain ⟨map, call, stored, _⟩ :=
    @getDevicesVariableValues_stream (fun _ => hashReply) ⟨[cstr "ups"], by decide⟩ (by decide) [] []
  have returned := inStep [] []
  rw [call, if_neg fun failed => absurd (failed.2 _ List.mem_cons_self) (by decide)] at returned
  have kept := (DeviceReply.storedAs_iff (stored _ List.mem_cons_self)).mp (returned.2.2.1 _ List.mem_cons_self)
  exact kept (cstr "ups.id") (cstr "a#b") rfl (by decide)

end InStep

end Nut
