import Nut.Library.KeyedList
import Nut.Server.SetValues
import Nut.Server.Tracking

set_option autoImplicit false

namespace Nut

structure Track where
  status : Option CString
  requestTime : Int

abbrev Table := CString -> Option Track

inductive TrackEvent where
  /-- A request was answered with its id. -/
  | request (id : CString) (now : Int)
  /-- A driver sent `TRACKING id value`. -/
  | status (id value : CString)
  | cleanup (now delay : Int)

def Table.step (table : Table) : TrackEvent -> Table
  | .request id now => fun key => if strcasecmp id key = .eq then some ⟨none, now⟩ else table key
  | .status id value => fun key =>
    if strcasecmp id key = .eq then (table key).map fun track => { track with status := some value } else table key
  | .cleanup now delay => fun key => (table key).filter fun track => !decide (now - track.requestTime > delay)

def statusText (status : Int32) : String :=
  if status = -1 then "PENDING"
  else if status = 0 then "SUCCESS"
  else if status = 1 then "ERR UNKNOWN"
  else if status = 2 ∨ status = 4 then "ERR INVALID-ARGUMENT"
  else if status = 3 then "ERR FAILED"
  else "ERR UNKNOWN"

def Table.get (table : Table) (id : CString) : String :=
  match table id with
  | none => "ERR UNKNOWN"
  | some track =>
    match track.status with
    | none => "PENDING"
    | some value => statusText (atoi value)

section Lists

variable {list : TrackingList} {table : Table}

def trackingLookup (id : CString) (list : TrackingList) : Option TrackingEntry :=
  KeyedList.lookup TrackingEntry.id strcasecmp id list

abbrev DistinctIds (list : TrackingList) : Prop :=
  KeyedList.Distinct TrackingEntry.id strcasecmp list

theorem trackingSet_eq (id value : CString) (list : TrackingList) : trackingSet id value list =
      KeyedList.setFirst TrackingEntry.id strcasecmp id (fun item => { item with status := atoi value }) list := by
  induction list with
  | nil => rfl
  | cons item rest ih => simp only [trackingSet, KeyedList.setFirst, ih]

theorem trackingDel_eq (id : CString) (list : TrackingList) :
    trackingDel id list = KeyedList.eraseFirst TrackingEntry.id strcasecmp id list := by
  induction list with
  | nil => rfl
  | cons item rest ih => simp only [trackingDel, KeyedList.eraseFirst, ih]

theorem trackingGet_eq (distinct : DistinctIds list) (id : CString) :
    trackingGet id list = ((trackingLookup id list).map fun item => statusText item.status).getD "ERR UNKNOWN" := by
  have unknown {list : TrackingList} (absent : ∀ item ∈ list, strcasecmp item.id id ≠ .eq) :
      trackingGet id list = "ERR UNKNOWN" := by
    induction list with
    | nil => rfl
    | cons item rest ih =>
      rw [trackingGet, if_pos (absent item List.mem_cons_self)]
      exact ih fun other member => absent other (List.mem_cons_of_mem item member)
  induction list with
  | nil => rfl
  | cons item rest ih =>
    rw [trackingGet, trackingLookup, KeyedList.lookup_cons]
    by_cases hit : strcasecmp item.id id = .eq
    · have later := unknown fun other member same =>
        (List.pairwise_cons.mp distinct).1 other member (Std.TransCmp.eq_trans hit (Std.OrientedCmp.eq_symm same))
      rw [if_neg (not_not.mpr hit), if_pos hit, later]
      rfl
    · rw [if_pos hit, if_neg hit]
      exact ih distinct.of_cons

def Tells (item : TrackingEntry) (track : Track) : Prop :=
  item.status = (track.status.map atoi).getD (-1) ∧ item.requestTime = track.requestTime

structure Represents (list : TrackingList) (table : Table) : Prop where
  distinct : DistinctIds list
  entries : ∀ id, Option.Rel Tells (trackingLookup id list) (table id)

theorem Represents.get (represents : Represents list table) (id : CString) : trackingGet id list = table.get id := by
  have entry := represents.entries id
  rw [trackingGet_eq represents.distinct, Table.get]
  generalize trackingLookup id list = found, table id = known at entry ⊢
  cases entry with
  | none => rfl
  | @some item track tells =>
    rw [Option.map_some, Option.getD_some, tells.1]
    cases track with
    | mk status requestTime => cases status <;> rfl

theorem represents_nil : Represents [] fun _ => none := ⟨List.Pairwise.nil, fun _ => .none⟩

theorem Represents.request (represents : Represents list table) {id : CString} (now : Int)
    (fresh : ∀ item ∈ list, strcasecmp item.id id ≠ .eq) :
    Represents ({ id, status := -1, requestTime := now } :: list) (table.step (.request id now)) := by
  refine ⟨List.pairwise_cons.mpr ⟨fun item member same => ?_, represents.distinct⟩, fun key => ?_⟩
  · exact fresh item member (Std.OrientedCmp.eq_symm same)
  · rw [trackingLookup, KeyedList.lookup_cons, Table.step]
    dsimp only
    split
    · exact .some ⟨rfl, rfl⟩
    · exact represents.entries key

theorem Represents.status (represents : Represents list table) (id value : CString) :
    Represents (trackingSet id value list) (table.step (.status id value)) := by
  rw [trackingSet_eq]
  refine ⟨KeyedList.distinct_setFirst (fun _ => rfl) represents.distinct, fun key => ?_⟩
  have set_ := @KeyedList.lookup_setFirst _ _ TrackingEntry.id strcasecmp id key list _
    (fun item => { item with status := atoi value }) fun _ => rfl
  rw [trackingLookup, set_, Table.step]
  have entry := represents.entries key
  rw [trackingLookup] at entry
  dsimp only
  generalize KeyedList.lookup TrackingEntry.id strcasecmp key list = found, table key = known at entry ⊢
  split
  · cases entry with
    | none => exact .none
    | some tells => exact .some ⟨rfl, tells.2⟩
  · exact entry

theorem trackingCleanup_eq (now : Int) (w : Upsd) (distinct : DistinctIds w.trackingList) :
    (trackingCleanup now w).trackingList =
      w.trackingList.filter fun item => !decide (now - item.requestTime > w.trackingDelay) := by
  rw [<- KeyedList.sweep_eq distinct fun item => decide (now - item.requestTime > w.trackingDelay)]
  simp only [trackingCleanup, trackingDel_eq, decide_eq_true_eq]

theorem Represents.cleanup (represents : Represents list table) (now delay : Int) :
    Represents (list.filter fun item => !decide (now - item.requestTime > delay)) (table.step (.cleanup now delay)) := by
  refine ⟨KeyedList.distinct_filter represents.distinct _, fun key => ?_⟩
  have entry := represents.entries key
  rw [trackingLookup] at entry ⊢
  rw [KeyedList.lookup_filter represents.distinct, Table.step]
  dsimp only
  generalize KeyedList.lookup TrackingEntry.id strcasecmp key list = found, table key = known at entry ⊢
  cases entry with
  | none => exact .none
  | some tells =>
    simp only [Option.filter, tells.2]
    split
    · exact .some tells
    · exact .none

end Lists

def sentStatuses (w : Upsd) (name : CString) : DriverEvent -> List (CString × CString)
  | .read _ buf =>
    match getUpsPtr w name with
    | some ups => if ups.connected then (readLines ups.sockCtx buf).filterMap statusOf else []
    | none => []
  | _ => []

def setStatus (list : TrackingList) (status : CString × CString) : TrackingList :=
  trackingSet status.1 status.2 list

def Table.setStatus (table : Table) (status : CString × CString) : Table :=
  table.step (.status status.1 status.2)

section Drivers

variable {list : TrackingList} {table : Table}

theorem sstateLine_tracking (now : Int) (s : Upstype × TrackingList) (arg : List CString) :
    (sstateLine now s arg).2 = (statusOf arg).toList.foldl setStatus s.2 := by
  obtain ⟨_, _, _, effect, same⟩ := sstateLine_cases now s arg
  rw [same]
  cases effect with
  | data _ _ other => rw [other]; rfl
  | commands _ other => rw [other]; rfl
  | tree _ other => rw [other]; rfl
  | status sent => rw [sent]; rfl

theorem sstateReadline_tracking (now : Int) (ups : Upstype) (list : TrackingList) (buf : CString) :
    (sstateReadline now ups list buf).2 = ((readLines ups.sockCtx buf).filterMap statusOf).foldl setStatus list := by
  have lines (words : List (List CString)) (s : Upstype × TrackingList) :
      (words.foldl (sstateLine now) s).2 = (words.filterMap statusOf).foldl setStatus s.2 := by
    induction words generalizing s with
    | nil => rfl
    | cons arg rest ih =>
      rw [List.foldl_cons, ih, sstateLine_tracking, List.filterMap_cons]
      cases statusOf arg <;> rfl
  simp only [sstateReadline, readChars_eq]
  exact lines _ (ups, list)

theorem serveDriver_tracking (w : Upsd) (name : CString) (event : DriverEvent) :
    (serveDriver w name event).trackingList = (sentStatuses w name event).foldl setStatus w.trackingList := by
  cases event with
  | quiet => rfl
  | hangup => rfl
  | read now buf =>
    simp only [serveDriver, sentStatuses]
    cases getUpsPtr w name with
    | none => rfl
    | some ups =>
      cases open_ : ups.connected with
      | false => simp [open_]
      | true =>
        simp only [open_, Bool.not_true, Bool.false_eq_true, if_false, if_true]
        exact sstateReadline_tracking now ups w.trackingList buf

theorem Represents.statuses (represents : Represents list table) (statuses : List (CString × CString)) :
    Represents (statuses.foldl Nut.setStatus list) (statuses.foldl Table.setStatus table) := by
  induction statuses generalizing list table with
  | nil => exact represents
  | cons status rest ih => exact ih (represents.status status.1 status.2)

theorem Represents.known (represents : Represents list table) (statuses : List (CString × CString)) :
    statuses.foldl Nut.setStatus list =
      (statuses.filter fun status => (table status.1).isSome).foldl Nut.setStatus list := by
  have domain (table : Table) (status : CString × CString) (id : CString) :
      (table.setStatus status id).isSome = (table id).isSome := by
    rw [Table.setStatus, Table.step]
    dsimp only
    split <;> simp
  induction statuses generalizing list table with
  | nil => rfl
  | cons status rest ih =>
    have next := ih (represents.status status.1 status.2)
    have same : (rest.filter fun other => (table.step (.status status.1 status.2) other.1).isSome) =
        rest.filter fun other => (table other.1).isSome := List.filter_congr fun other _ => domain table status other.1
    rw [same] at next
    rw [List.foldl_cons, Nut.setStatus, next, List.filter_cons]
    split
    next => rfl
    next unknown =>
      have absent : trackingLookup status.1 list = none := by
        have entry := represents.entries status.1
        rw [Option.not_isSome_iff_eq_none.mp unknown] at entry
        cases found : trackingLookup status.1 list with
        | none => rfl
        | some item =>
          rw [found] at entry
          cases entry
      rw [trackingSet_eq, KeyedList.setFirst_unknown absent]

end Drivers

inductive Outcome (now : Int) (w w' : Upsd) : Reply -> Prop where
  | err (errtype : String) (list : w'.trackingList = w.trackingList) : Outcome now w w' (.err errtype)
  | ok (list : w'.trackingList = w.trackingList) : Outcome now w w' ok
  | tracked (id : CString) (list : w'.trackingList = { id, status := -1, requestTime := now } :: w.trackingList)
      (fresh : ∀ item ∈ w.trackingList, strcasecmp item.id id ≠ .eq) : Outcome now w w' (.okTracking id)

def Answered (now : Int) (id : Nat) (w w' : Upsd) : Prop :=
  ∃ reply sent, w'.replies = w.replies ++ [(id, reply, sent)] ∧ Outcome now w w' reply

section Requests

variable {now : Int} {w : Upsd} {client : Client} {arglist : List CString}

theorem answered_from {start w' : Upsd} {id : Nat} (replies : start.replies = w.replies)
    (list : start.trackingList = w.trackingList) (answered : Answered now id start w') : Answered now id w w' := by
  obtain ⟨reply, sent, added, outcome⟩ := answered
  refine ⟨reply, sent, replies ▸ added, ?_⟩
  cases outcome with
  | err errtype same => exact .err errtype (same.trans list)
  | ok same => exact .ok (same.trans list)
  | tracked tid new fresh => exact .tracked tid (list ▸ new) (list ▸ fresh)

theorem reply_replies (w : Upsd) (id : Nat) (reply : Reply) :
    ∃ sent, (w.reply id reply).replies = w.replies ++ [(id, reply, sent)] := by
  refine ⟨w.nextWrite, ?_⟩
  simp only [Upsd.reply, sendback]
  split <;> rfl

theorem answered_err (w : Upsd) (id : Nat) (errtype : String) : Answered now id w (sendErr w id errtype) := by
  obtain ⟨sent, replies⟩ := reply_replies w id (.err errtype)
  exact ⟨_, sent, replies, .err errtype (steady_err id errtype).list⟩

def Trackable (w : Upsd) (id : CString) : Prop :=
  w.nextWrite = true ∧ w.trackingEnabled = true ∧ ∀ item ∈ w.trackingList, strcasecmp item.id id ≠ .eq

theorem answered_relay {ups : Upstype} (connected : ups.connected = true) (cmd : CString) {trackingId : Option CString}
    (failed : String) (clean : ∀ id, trackingId = some id -> Trackable w id) :
    Answered now client.id w (relay now w client ups cmd trackingId failed) := by
  cases trackingId with
  | none =>
    have sent := unmoved_sstateSendline w ups cmd
    obtain ⟨_, _, _, same, _⟩ := sstateSendline_fst w ups cmd
    have replies : (sstateSendline w ups cmd).1.replies = w.replies := by rw [same]
    unfold relay track
    dsimp only
    split
    next w' result =>
      rw [result] at sent replies
      exact answered_from replies sent.2 (answered_err w' client.id failed)
    next w' result =>
      rw [result] at sent replies
      obtain ⟨out, added⟩ := reply_replies w' client.id ok
      exact ⟨ok, out, replies ▸ added, .ok ((steady_reply client.id ok).list.trans sent.2)⟩
  | some id =>
    obtain ⟨write, enabled, fresh⟩ := clean id rfl
    have added : track now w (some id) =
        { w with trackingList := { id, status := -1, requestTime := now } :: w.trackingList } := by
      rw [track, trackingAdd, if_pos enabled]
    have sent : sstateSendline (track now w (some id)) ups cmd = ((track now w (some id)).writeLine ups cmd, true) := by
      have same : (track now w (some id)).nextWrite = true := by
        rw [added]
        exact write
      simp only [sstateSendline, connected, same, Bool.not_true, Bool.false_eq_true, if_false, if_true]
    unfold relay
    rw [sent, added]
    obtain ⟨out, more⟩ := reply_replies
      ({ w with trackingList := { id, status := -1, requestTime := now } :: w.trackingList }.writeLine ups cmd)
      client.id (.okTracking id)
    exact ⟨_, out, more, .tracked id (steady_reply _ _).list fresh⟩

inductive Passes (w : Upsd) (client : Client) : List CString -> Prop
  | setVar {cmd kind upsname var newval : CString} {rest : List CString} {ups : Upstype}
      (isSet : isCommand cmd "SET" = true) (isVar : isCommand kind "VAR" = true)
      (known : getUpsPtr w upsname = some ups) (connected : ups.connected = true) (fresh : ups.stale = false)
      (admits : SetAdmits w client ups var newval)
      (enums : enumAllows (stateGetenumlist ups.inforoot var) newval = true)
      (ranges : rangeAllows (stateGetrangelist ups.inforoot var) newval = true) :
      Passes w client (cmd :: kind :: upsname :: var :: newval :: rest)
  | instcmd {cmd devname cmdname : CString} {rest : List CString} {ups : Upstype}
      (isInstcmd : isCommand cmd "INSTCMD" = true) (known : getUpsPtr w devname = some ups)
      (connected : ups.connected = true) (fresh : ups.stale = false)
      (supported : ups.cmdlist.any (fun name => strcasecmp name cmdname == .eq) = true)
      (user : userCheckinstcmd w.users client.username client.password cmdname = true) :
      Passes w client (cmd :: devname :: cmdname :: rest)

def isRequest : List CString -> Bool
  | [] => false
  | [cmd] => isCommand cmd "INSTCMD"
  | cmd :: kind :: _ => isCommand cmd "INSTCMD" || isCommand cmd "SET" && isCommand kind "VAR"

-- The id that is drawn for a client with tracking is fresh, and there is a flag to track with.
def CleanRequest (w : Upsd) (client : Client) (arglist : List CString) : Prop :=
  client.tracking = true -> Passes w client arglist -> Trackable w (nutUuidV4 w.randoms)

theorem newTrackingId_some {id : CString} (drawn : (newTrackingId w client).1 = some id) :
    client.tracking = true ∧ id = nutUuidV4 w.randoms := by
  unfold newTrackingId at drawn
  split at drawn
  next tracking => exact ⟨tracking, (Option.some.inj drawn).symm⟩
  next => cases drawn

theorem answered_newTrackingId {w' : Upsd} {id : Nat} (answered : Answered now id (newTrackingId w client).2 w') :
    Answered now id w w' := by
  obtain ⟨randoms, drawn⟩ := newTrackingId_eq w client
  rw [drawn] at answered
  exact @answered_from now w { w with randoms } w' id rfl rfl answered

theorem answered_setVar {cmd kind upsname var newval : CString} {rest : List CString}
    (isSet : isCommand cmd "SET" = true) (isVar : isCommand kind "VAR" = true)
    (clean : CleanRequest w client (cmd :: kind :: upsname :: var :: newval :: rest)) : Answered now client.id w
      (setVar now (newTrackingId w client).2 client upsname var newval (newTrackingId w client).1) := by
  apply answered_newTrackingId
  obtain ⟨randoms, drawn⟩ := newTrackingId_eq w client
  have track (id : CString) (some_ : (newTrackingId w client).1 = some id) := newTrackingId_some some_
  generalize (newTrackingId w client).1 = trackingId at track ⊢
  rw [drawn]
  refine setVar_rule (answered_err _ client.id) fun ups known connected fresh admits enums ranges => ?_
  refine answered_relay connected _ _ fun id some_ => ?_
  obtain ⟨tracking, rfl⟩ := track id some_
  have admits' : SetAdmits w client ups var newval := { admits with }
  exact clean tracking (.setVar isSet isVar known connected fresh admits' enums ranges)

theorem answered_sendInstcmd {cmd devname cmdname : CString} {rest : List CString}
    (isInstcmd : isCommand cmd "INSTCMD" = true) (clean : CleanRequest w client (cmd :: devname :: cmdname :: rest))
    (value : Option CString) : Answered now client.id w
      (sendInstcmd now (newTrackingId w client).2 client devname cmdname value (newTrackingId w client).1) := by
  apply answered_newTrackingId
  obtain ⟨randoms, drawn⟩ := newTrackingId_eq w client
  have track (id : CString) (some_ : (newTrackingId w client).1 = some id) := newTrackingId_some some_
  generalize (newTrackingId w client).1 = trackingId at track ⊢
  rw [drawn]
  refine withUps_rule (answered_err _ _ _) fun ups known => ?_
  unfold ifAvailable
  split_ifs with closed stale unsupported user
  · exact answered_err _ _ _
  · exact answered_err _ _ _
  · exact answered_err _ _ _
  · exact answered_err _ _ _
  · have connected : ups.connected = true := by simpa using closed
    refine answered_relay connected _ _ fun id some_ => ?_
    obtain ⟨tracking, rfl⟩ := track id some_
    exact clean tracking
      (.instcmd isInstcmd known connected (by simpa using stale) (by simpa using unsupported) (by simpa using user))

theorem answered_netInstcmd {cmd : CString} {arg : List CString} (isInstcmd : isCommand cmd "INSTCMD" = true)
    (clean : CleanRequest w client (cmd :: arg)) : Answered now client.id w (netInstcmd now w client arg) := by
  unfold netInstcmd
  split
  next devname cmdname args => exact answered_sendInstcmd isInstcmd clean _
  next => exact answered_err _ _ _

theorem answered_netSet {cmd kind : CString} {arg : List CString} (isSet : isCommand cmd "SET" = true)
    (isVar : isCommand kind "VAR" = true) (clean : CleanRequest w client (cmd :: kind :: arg)) :
    Answered now client.id w (netSet now w client (kind :: arg)) := by
  obtain _ | ⟨upsname, _ | ⟨var, _ | ⟨newval, rest⟩⟩⟩ := arg
  · exact answered_err _ _ _
  · simp only [netSet, isVar, if_true]
    exact answered_err _ _ _
  · simp only [netSet, isVar, if_true]
    exact answered_err _ _ _
  · simp only [netSet, isVar, if_true]
    exact answered_setVar isSet isVar clean

theorem checkCommand_refused {cmd : NetCmd} {arg : List CString} (user : cmd.user = true)
    (refused : ¬ MayUse w client) : ∃ errtype, checkCommand now cmd w client arg = sendErr w client.id errtype := by
  unfold checkCommand
  rw [if_pos user]
  cases name : client.username with
  | none => exact ⟨_, rfl⟩
  | some username =>
    cases word : client.password with
    | none => exact ⟨_, rfl⟩
    | some password =>
      have denied : w.build.hostsAccess client.addr username = false := by
        by_contra allowed
        exact refused ⟨username, password, name, word, by simpa using allowed⟩
      simp only [denied, Bool.not_false, if_true]
      exact ⟨_, rfl⟩

theorem answered_checkCommand {cmd : NetCmd} {arg : List CString} (user : cmd.user = true)
    (func : MayUse w client -> Answered now client.id w (cmd.func now w client arg)) :
    Answered now client.id w (checkCommand now cmd w client arg) := by
  by_cases admitted : MayUse w client
  · rw [checkCommand_admitted admitted]
    exact func admitted
  · obtain ⟨errtype, err⟩ := @checkCommand_refused now w client cmd arg user admitted
    rw [err]
    exact answered_err w client.id errtype

theorem answered_parseNet (request : isRequest arglist = true) (clean : MayUse w client -> CleanRequest w client arglist) :
    Answered now client.id w (parseNet now w client arglist) := by
  cases arglist with
  | nil => cases request
  | cons cmd arg =>
    by_cases isInstcmd : isCommand cmd "INSTCMD" = true
    · rw [parseNet_instcmd now w client isInstcmd]
      exact answered_checkCommand rfl fun admitted => answered_netInstcmd isInstcmd (clean admitted)
    · cases arg with
      | nil => exact absurd request isInstcmd
      | cons kind arg =>
        simp only [isRequest, isInstcmd, Bool.false_or, Bool.and_eq_true] at request
        rw [parseNet_set now w client request.1]
        exact answered_checkCommand rfl fun admitted => answered_netSet request.1 request.2 (clean admitted)

theorem parseNet_list (request : isRequest arglist = false) :
    (parseNet now w client arglist).trackingList = w.trackingList := by
  have err (errtype : String) : (sendErr w client.id errtype).trackingList = w.trackingList := (steady_err _ _).list
  cases arglist with
  | nil => exact err _
  | cons cmd arg =>
    have isInstcmd : isCommand cmd "INSTCMD" = false := by
      cases arg with
      | nil => exact request
      | cons kind arg => exact (Bool.or_eq_false_iff.mp request).1
    cases isSet : isCommand cmd "SET" with
    | false => exact (steady_parseNet now w client arg isSet isInstcmd).list
    | true =>
      rw [parseNet_set now w client isSet]
      refine @checkCommand_rule w client (fun w' => w'.trackingList = w.trackingList) now _ arg err ?_
      obtain _ | ⟨kind, _ | ⟨value, rest⟩⟩ := arg
      · exact err _
      · exact err _
      · have notVar : isCommand kind "VAR" = false := by simpa [isRequest, isInstcmd, isSet] using request
        simp only [netSet, notVar, Bool.false_eq_true, if_false]
        split_ifs
        · exact (steady_reply client.id ok).list
        · exact (steady_reply client.id ok).list
        · exact err _
        · exact err _

end Requests

def CleanStep (w : Upsd) : Action -> Prop
  | .command id _ arglist => ∀ client, w.findClient id = some client -> client.tracking = true -> MayUse w client ->
      Passes w client arglist -> w.nextWrite = true ∧
        ∀ item ∈ w.trackingList, strcasecmp item.id (nutUuidV4 w.randoms) ≠ .eq
  | _ => True

def replyTo (w : Upsd) (act : Action) : Option Reply :=
  ((perform w act).replies.drop w.replies.length).head?.map fun reply => reply.2.1

def trackedId : Reply -> Option CString
  | .okTracking id => some id
  | _ => none

def Action.trackEvents (w : Upsd) : Action -> List TrackEvent
  | .trackingCleanup now => [.cleanup now w.trackingDelay]
  | .driver name event => (sentStatuses w name event).map fun status => .status status.1 status.2
  | .command id now arglist =>
    if isRequest arglist then
      ((replyTo w (.command id now arglist)).bind trackedId).toList.map fun tid => .request tid now
    else []
  | _ => []

def trackStep (s : Upsd × Table) (act : Action) : Upsd × Table :=
  (perform s.1 act, (act.trackEvents s.1).foldl Table.step s.2)

def tableOf (start : Upsd) (actions : List Action) : Table :=
  (actions.foldl trackStep (start, fun _ => none)).2

structure StepRight (w : Upsd) (table : Table) (act : Action) : Prop where
  refused : ∀ id now arglist errtype, act = .command id now arglist -> isRequest arglist = true ->
    replyTo w act = some (.err errtype) -> (perform w act).trackingList = w.trackingList
  accepted : ∀ id now arglist tid, act = .command id now arglist -> isRequest arglist = true ->
    replyTo w act = some (.okTracking tid) ->
      (perform w act).trackingList = { id := tid, status := -1, requestTime := now } :: w.trackingList ∧
        ∀ item ∈ w.trackingList, strcasecmp item.id tid ≠ .eq
  asked : ∀ id now get kind tid rest client, act = .command id now (get :: kind :: tid :: rest) ->
    isCommand get "GET" = true -> isCommand kind "TRACKING" = true -> w.findClient id = some client ->
      client.tracking = true -> replyTo w act = some (.line (cstr (table.get tid) ++ cstr "\n"))
  unknown : ∀ name event, act = .driver name event ->
    (perform w act).trackingList =
      ((sentStatuses w name event).filter fun status => (table status.1).isSome).foldl setStatus w.trackingList

section Steps

variable {w : Upsd} {table : Table} {client : Client}

theorem trackStep_fst (actions : List Action) (s : Upsd × Table) :
    (actions.foldl trackStep s).1 = actions.foldl perform s.1 := by
  induction actions generalizing s with
  | nil => rfl
  | cons act rest ih => exact ih _

theorem tableOf_append (start : Upsd) (before : List Action) (act : Action) : tableOf start (before ++ [act]) =
      (act.trackEvents (before.foldl perform start)).foldl Table.step (tableOf start before) := by
  simp only [tableOf, List.foldl_append, List.foldl_cons, List.foldl_nil, trackStep, trackStep_fst]

theorem replyTo_of (act : Action) {id : Nat} {reply : Reply} {sent : Bool}
    (added : (perform w act).replies = w.replies ++ [(id, reply, sent)]) : replyTo w act = some reply := by
  rw [replyTo, added, List.drop_left]
  rfl

theorem passes_heard (now : Int) (id : Nat) {arglist : List CString}
    (passes : Passes (w.updateClient id (Client.hear now)) (client.hear now) arglist) : Passes w client arglist := by
  cases passes with
  | setVar isSet isVar known connected fresh admits enums ranges =>
    exact .setVar isSet isVar known connected fresh { admits with } enums ranges
  | instcmd isInstcmd known connected fresh supported user =>
    exact .instcmd isInstcmd known connected fresh supported user

theorem answered_serveLine {id : Nat} {now : Int} {arglist : List CString} (covers : FlagCovers w)
    (found : w.findClient id = some client) (request : isRequest arglist = true)
    (clean : CleanStep w (.command id now arglist)) : Answered now id w (serveLine now id w arglist) := by
  have id_ : (client.hear now).id = id := (findClient_spec found).2
  have answered : Answered now (client.hear now).id (w.updateClient id (Client.hear now))
      (parseNet now (w.updateClient id (Client.hear now)) (client.hear now) arglist) := by
    refine answered_parseNet request fun admitted tracking passes => ?_
    obtain ⟨written, fresh⟩ := clean client found tracking admitted (passes_heard now id passes)
    exact ⟨written, covers client (findClient_spec found).1 tracking, fresh⟩
  rw [serveLine_found now found, <- id_]
  rw [id_] at answered ⊢
  exact @answered_from now w (w.updateClient id (Client.hear now)) _ id rfl rfl answered

theorem serveLine_getTracking (now : Int) {id : Nat} (found : w.findClient id = some client)
    (tracking : client.tracking = true) {get kind : CString} (isGet : isCommand get "GET" = true)
    (isTracking : isCommand kind "TRACKING" = true) (tid : CString) (rest : List CString) :
    serveLine now id w (get :: kind :: tid :: rest) =
      (w.updateClient id (Client.hear now)).reply id (.line (cstr (trackingGet tid w.trackingList) ++ cstr "\n")) := by
  have entry : (netcmds.find? fun cmd => isCommand (cstr "GET") cmd.name) = some ⟨"GET", fun _ => netGet, false⟩ := rfl
  have id_ : (client.hear now).id = id := (findClient_spec found).2
  have tracks : (client.hear now).tracking = true := tracking
  rw [serveLine_found now found, parseNet_find now _ _ isGet entry, checkCommand]
  simp only [netGet, isTracking, tracks, Bool.false_eq_true, if_false, if_true, id_]
  rfl

theorem represents_command {id : Nat} {now : Int} {arglist : List CString} (represents : Represents w.trackingList table)
    (covers : FlagCovers w) (clean : CleanStep w (.command id now arglist)) :
    Represents (serveLine now id w arglist).trackingList
      ((Action.trackEvents w (.command id now arglist)).foldl Table.step table) := by
  cases request : isRequest arglist with
  | false =>
    have same : (serveLine now id w arglist).trackingList = w.trackingList := by
      cases found : w.findClient id with
      | none => rw [serveLine_gone now found]
      | some client => rw [serveLine_found now found]; exact parseNet_list request
    rw [same, Action.trackEvents, request]
    exact represents
  | true =>
    rw [Action.trackEvents, if_pos request]
    cases found : w.findClient id with
    | none =>
      have gone := serveLine_gone now found arglist
      have silent : replyTo w (.command id now arglist) = none := by
        rw [replyTo, perform, gone]
        simp
      rw [silent, gone]
      exact represents
    | some client =>
      obtain ⟨reply, sent, added, outcome⟩ := answered_serveLine covers found request clean
      rw [replyTo_of (.command id now arglist) added]
      cases outcome with
      | err errtype list => exact list ▸ represents
      | ok list => exact list ▸ represents
      | tracked tid list fresh => exact list ▸ represents.request now fresh

theorem represents_perform {act : Action} (represents : Represents w.trackingList table) (covers : FlagCovers w)
    (clean : CleanStep w act) :
    Represents (perform w act).trackingList ((act.trackEvents w).foldl Table.step table) := by
  have same {w' : Upsd} (unmoved : Unmoved w w') : Represents w'.trackingList table := unmoved.2 ▸ represents
  cases act with
  | reload now up r => exact same (unmoved_confReload now up r w)
  | scanDriver now up name => exact same (unmoved_scanDriver now up w name)
  | scanClients now => exact same (unmoved_disconnects _ w.firstclient w)
  | disconnect id => exact same (unmoved_clientDisconnect w id)
  | trackingCleanup now =>
    have cleaned := represents.cleanup now w.trackingDelay
    rw [<- trackingCleanup_eq now w represents.distinct] at cleaned
    exact cleaned
  | driver name event =>
    have heard := represents.statuses (sentStatuses w name event)
    rw [<- serveDriver_tracking] at heard
    rw [Action.trackEvents, List.foldl_map]
    exact heard
  | command id now arglist => exact represents_command represents covers clean
  | parsed id ctx => exact represents
  | connect now addr => exact represents

theorem stepRight_perform {act : Action} (represents : Represents w.trackingList table) (covers : FlagCovers w)
    (clean : CleanStep w act) : StepRight w table act := by
  have outcome {id : Nat} {now : Int} {arglist : List CString} {reply : Reply} (same : act = .command id now arglist)
      (request : isRequest arglist = true) (replied : replyTo w act = some reply) : Outcome now w (perform w act) reply := by
    subst same
    cases found : w.findClient id with
    | none =>
      rw [replyTo, perform, serveLine_gone now found] at replied
      simp at replied
    | some client =>
      obtain ⟨reply', sent, added, outcome⟩ := answered_serveLine covers found request clean
      rw [replyTo_of (.command id now arglist) added] at replied
      obtain rfl := Option.some.inj replied
      exact outcome
  refine ⟨?_, ?_, ?_, ?_⟩
  · intro id now arglist errtype same request replied
    cases outcome same request replied with
    | err _ list => exact list
  · intro id now arglist tid same request replied
    cases outcome same request replied with
    | tracked _ list fresh => exact ⟨list, fresh⟩
  · rintro id now get kind tid rest client rfl isGet isTracking found tracking
    have served := serveLine_getTracking now found tracking isGet isTracking tid rest
    obtain ⟨sent, replies⟩ := reply_replies (w.updateClient id (Client.hear now)) id
      (.line (cstr (trackingGet tid w.trackingList) ++ cstr "\n"))
    rw [<- represents.get tid]
    have added : (perform w (.command id now (get :: kind :: tid :: rest))).replies =
        w.replies ++ [(id, .line (cstr (trackingGet tid w.trackingList) ++ cstr "\n"), sent)] := by
      rw [perform, served]
      exact replies
    exact replyTo_of _ added
  · rintro name event rfl
    exact (serveDriver_tracking w name event).trans (represents.known _)

end Steps

-- Every run of upsd whose tracked requests can be written to the driver, under fresh ids: the tracking
-- list changes as the replies say, and GET TRACKING tells the last status until the entry is removed.
theorem tracking_right (start : Upsd) (noClients : start.firstclient = []) (none_ : start.trackingList = [])
    (actions : List Action) (clean : Always perform (EachAction CleanStep) start actions) :
    ∀ before act after, actions = before ++ act :: after ->
      StepRight (before.foldl perform start) (tableOf start before) act := by
  have start_ : FlagCovers start := by
    intro client inside
    rw [noClients] at inside
    cases inside
  have represents (before : List Action) (clean : Always perform (EachAction CleanStep) start before) :
      Represents (before.foldl perform start).trackingList (tableOf start before) := by
    induction before using List.reverseRecOn with
    | nil => exact none_ ▸ represents_nil
    | append_singleton before act ih =>
      rw [tableOf_append, List.foldl_append]
      exact represents_perform (ih (always_upto clean)) (flagCovers_foldl start_ before) (always_last clean)
  intro before act after split
  have upto : Always perform (EachAction CleanStep) start (before ++ [act]) := by
    rw [split, List.append_cons] at clean
    exact always_upto clean
  exact stepRight_perform (represents before (always_upto upto)) (flagCovers_foldl start_ before) (always_last upto)

def requestLine : List CString :=
  [cstr "INSTCMD", cstr "ups", cstr "test.start"]

def sampleTid : CString :=
  cstr "00000000-0000-4000-8000-000000000000"

def requestActions : List Action :=
  trackingActions ++
    [.command 0 1001 requestLine, .driver (cstr "ups") (.read 1002 (cstr "TRACKING " ++ sampleTid ++ cstr " 0\n"))]

def askAction : Action :=
  .command 0 1003 [cstr "GET", cstr "TRACKING", sampleTid]

theorem cleanStep_other {w : Upsd} {id : Nat} (now : Int) {arglist : List CString} (other : isRequest arglist = false) :
    CleanStep w (.command id now arglist) := by
  intro client _ _ _ passes
  cases passes with
  | setVar isSet isVar => simp [isRequest, isSet, isVar] at other
  | instcmd isInstcmd => simp [isRequest, isInstcmd] at other

theorem tracking_right_sample :
    StepRight (requestActions.foldl perform sampleUpsd) (tableOf sampleUpsd requestActions) askAction :=
  have request : CleanStep (trackingActions.foldl perform sampleUpsd) (.command 0 1001 requestLine) :=
    fun _ _ _ _ _ => by decide +kernel
  have clean : Always perform (EachAction CleanStep) sampleUpsd (requestActions ++ [askAction]) :=
    ⟨trivial, cleanStep_other 1000 rfl, cleanStep_other 1000 rfl, cleanStep_other 1000 rfl, request, trivial,
      cleanStep_other 1003 rfl, trivial⟩
  tracking_right sampleUpsd rfl rfl (requestActions ++ [askAction]) clean requestActions askAction [] rfl

-- The write to the driver fails: the client gets an error, and the entry stays.
theorem tracking_not_right :
    ¬ StepRight (trackingActions.foldl perform { sampleUpsd with writes := [true, true, true, false] })
      (tableOf { sampleUpsd with writes := [true, true, true, false] } trackingActions) (.command 0 1001 requestLine) := by
  intro right
  have same := right.refused 0 1001 requestLine "INSTCMD-FAILED" rfl (by decide) (by decide +kernel)
  revert same
  decide +kernel

end Nut
