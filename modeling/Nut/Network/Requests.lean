import Nut.Drivers.Connections
import Nut.Network.Broadcasts
import Nut.Server.Relay

set_option autoImplicit false

namespace Nut

-- A handler may leave anything in `errno` but what the loop takes for a lost connection.
structure World.Sound (world : World) (fd : Nat) : Prop where
  delivers : world.Delivers fd
  instcmd : ∀ writes cmdname value, (world.instcmd writes cmdname value).errno ≠ .enotconn
  setvar : ∀ writes var newval, ∀ handling ∈ world.setvar writes var newval, handling.errno ≠ .enotconn

namespace Sock

variable {world : World} {fd other : Nat} {s : Sock}

section Steady

def Has (fd : Nat) (conn : Conn) (s : Sock) : Prop :=
  s.conn? fd = some conn ∧ conn.closing = false

variable {conn : Conn}

theorem Has.isOpen (has : Has fd conn s) : s.isOpen fd = true := isOpen_iff.mpr ⟨conn, has⟩

theorem has_congr {s' : Sock} (has : Has fd conn s) (same : s'.connhead = s.connhead) : Has fd conn s' := by
  unfold Has conn? at has ⊢
  rwa [same]

theorem has_other {f : Conn -> Conn} (has : Has fd conn s) (kept : ∀ conn, (f conn).fd = conn.fd) (apart : fd ≠ other) :
    Has fd conn (s.updateConn other f) := by
  have own := conn?_fd has.1
  refine ⟨?_, has.2⟩
  rw [conn?_updateConn kept, has.1, Option.map_some, if_neg (own ▸ apart)]

theorem has_reap (has : Has fd conn s) : Has fd conn s.reap := by
  refine ⟨?_, has.2⟩
  obtain ⟨own, before, after, split, earlier⟩ := List.find?_eq_some_iff_append.mp has.1
  unfold conn? reap
  dsimp only
  rw [List.find?_eq_some_iff_append]
  refine ⟨own, before.filter fun conn => !conn.closing, after.filter fun conn => !conn.closing, ?_,
    fun prior member => earlier prior (List.mem_filter.mp member).1⟩
  simp [split, has.2]

theorem foldl_has {ι : Type} {step : Sock -> ι -> Sock} {items : List ι} (kept : ∀ s item, Has fd conn s -> Has fd conn (step s item))
    (has : Has fd conn s) : Has fd conn (items.foldl step s) := by
  induction items generalizing s with
  | nil => exact has
  | cons item items ih => exact ih (kept s item has)

theorem afterFailure_has {send : CString -> Sock -> Sock} (kept : ∀ line s, Has fd conn s -> Has fd conn (send line s)) (ret : WriteRet)
    (has : Has fd conn s) : Has fd conn (afterFailure world send ret s) := by
  unfold afterFailure
  refine foldl_has (fun s line => kept line s) (has_congr has ?_)
  split <;> rfl

theorem goesOn_has (cnext : Option Nat) (has : Has fd conn s) : Has fd conn (goesOn cnext s) :=
  has_congr has (goesOn_connhead cnext s)

theorem sendToEach_has (delivers : world.Delivers fd) {send : CString -> Sock -> Sock}
    (kept : ∀ line s, Has fd conn s -> Has fd conn (send line s)) (buf : CString) (has : Has fd conn s) :
    Has fd conn (sendToEach world send buf s other) := by
  unfold sendToEach
  cases s.conn? other with
  | none => exact has
  | some conn' =>
    by_cases quiet : conn'.nobroadcast = true
    · simpa [quiet] using has
    · simp only [quiet]
      have still : Has fd conn (s.write world other buf).1 := has_congr has (write_connhead buf)
      by_cases own : fd = other
      · subst own
        rw [write_complete delivers]
        exact has
      · split
        · exact has
        · split
          · exact still
          · exact goesOn_has _ (afterFailure_has kept _ (has_other still (fun _ => rfl) own))

theorem sendToAll_has (delivers : world.Delivers fd) (again : Nat) (text : CString) (has : Has fd conn s) :
    Has fd conn (sendToAll world again text s) := by
  induction again generalizing text s with
  | zero => exact has
  | succ again ih =>
    unfold sendToAll
    split
    · exact has
    · exact has_reap (foldl_has (fun s other has => sendToEach_has delivers (fun line s => ih line) _ has) has)

theorem applyOp_has (delivers : world.Delivers fd) (op : DstateOp) (has : Has fd conn s) : Has fd conn (applyOp world s op) := by
  unfold applyOp
  exact foldl_has (fun _ line has => sendToAll_has delivers 3 line has) has

theorem handle_has (delivers : world.Delivers fd) (handling : Handling) (has : Has fd conn s) : Has fd conn (handle world handling s) :=
  foldl_has (fun _ op has => applyOp_has delivers op has) has

theorem sendToAll_errno (again : Nat) (text : CString) (fine : s.errno ≠ .enotconn) : (sendToAll world again text s).errno ≠ .enotconn := by
  cases again with
  | zero => exact fine
  | succ again =>
    unfold sendToAll
    split
    · exact fine
    · simp

theorem applyOp_errno (op : DstateOp) (fine : s.errno ≠ .enotconn) : (applyOp world s op).errno ≠ .enotconn := by
  have all (lines : List CString) (s : Sock) (fine : s.errno ≠ .enotconn) :
      (lines.foldl (fun s line => broadcast world line s) s).errno ≠ .enotconn := by
    induction lines generalizing s with
    | nil => exact fine
    | cons line rest ih => exact ih _ (sendToAll_errno 3 line fine)
  unfold applyOp
  dsimp only
  exact all _ _ fine

end Steady

def serve (world : World) (fd : Nat) (request : Request) (id : Option CString) (s : Sock) : Sock × Int :=
  match request with
  | .instcmd cmdname value =>
    let handling := world.instcmd s.writes cmdname value
    report world fd id handling.ret (handle world handling s)
  | .set var newval =>
    match world.setvar s.writes var newval with
    | some handling => report world fd id handling.ret (handle world handling s)
    | none => (s, 1)

inductive Asks : List CString -> Prop
  | ping : Asks [cstr "PING"]
  | dumpall : Asks [cstr "DUMPALL"]
  | request (request : Request) (id : Option CString) : Asks (request.words id)

section Serving

variable {conn : Conn}

theorem sockArg_words (open_ : s.isOpen fd = true) (request : Request) (id : Option CString) :
    sockArg world fd (request.words id) s = serve world fd request id s := by
  have tracking : isCommand (cstr "TRACKING") "TRACKING" = true := by decide
  have words : isCommand (cstr "SET") "SET" = true ∧ isCommand (cstr "SET") "INSTCMD" = false ∧
      isCommand (cstr "INSTCMD") "INSTCMD" = true := by decide
  have others (keyword : CString) (either : keyword = cstr "SET" ∨ keyword = cstr "INSTCMD") :
      ∀ word ∈ ["LOGOUT", "GETPID", "DUMPALL", "DUMPSTATUS", "DUMPVALUE", "PING", "NOBROADCAST", "BROADCAST"],
        isCommand keyword word = false := by
    obtain rfl | rfl := either <;> decide
  obtain ⟨var, newval⟩ | ⟨cmdname, _ | value⟩ := request
  · cases handler : world.setvar s.writes var newval <;> cases id <;>
      simp [sockArg, ifOpen_open open_, Request.words, Request.trackingWords, serve, setvar, tracking, words, others, handler]
  all_goals cases id <;>
    simp [sockArg, ifOpen_open open_, Request.words, Request.trackingWords, serve, instcmd, tracking, words, others]

structure Steady (fd : Nat) (conn : Conn) (sent : Sock × Int) : Prop where
  has : Has fd conn sent.1
  fine : sent.1.errno ≠ .enotconn
  more : sent.2 ≠ 2

theorem sends_steady {lines : List CString} {sent : Sock × Int} (has : Has fd conn s) (fine : s.errno ≠ .enotconn)
    (sends : Sends fd lines s sent) : Steady fd conn sent := by
  rw [sends.whole fine]
  exact ⟨has, fine, by simp⟩

theorem report_steady (delivers : world.Delivers fd) (has : Has fd conn s) (fine : s.errno ≠ .enotconn) (id : Option CString)
    (ret : Int) : Steady fd conn (report world fd id ret s) := by
  cases id with
  | none => exact ⟨has, fine, by simp [report]⟩
  | some id => exact sends_steady has fine (answer_sends (sends_open has.isOpen (sendToOne_sends delivers has.isOpen _)))

theorem serve_steady (sound : world.Sound fd) (has : Has fd conn s) (fine : s.errno ≠ .enotconn) (request : Request)
    (id : Option CString) : Steady fd conn (serve world fd request id s) := by
  cases request with
  | instcmd cmdname value =>
    exact report_steady sound.delivers (handle_has sound.delivers _ has) (sound.instcmd s.writes cmdname value) id _
  | set var newval =>
    unfold serve
    dsimp only
    cases handler : world.setvar s.writes var newval with
    | none => exact ⟨has, fine, by simp⟩
    | some handling =>
      exact report_steady sound.delivers (handle_has sound.delivers _ has) (sound.setvar s.writes var newval handling handler) id _

theorem asks_steady (sound : world.Sound fd) (has : Has fd conn s) (fine : s.errno ≠ .enotconn) {words : List CString}
    (asks : Asks words) : Steady fd conn (sockArg world fd words s) := by
  cases asks with
  | ping =>
    have pong : sockArg world fd [cstr "PING"] s = answer (sendToOne world fd (cstr "PONG\n") s) := by
      have others : ∀ word ∈ ["LOGOUT", "GETPID", "DUMPALL", "DUMPSTATUS", "DUMPVALUE"], isCommand (cstr "PING") word = false := by
        decide
      have ping : isCommand (cstr "PING") "PING" = true := by decide
      simp [sockArg, ifOpen_open has.isOpen, others, ping]
    rw [pong]
    exact sends_steady has fine (answer_sends (sendToOne_sends sound.delivers has.isOpen _))
  | dumpall => exact sends_steady has fine (sockArg_dumpall sound.delivers has.isOpen (by decide))
  | request request id =>
    rw [sockArg_words has.isOpen]
    exact serve_steady sound has fine request id

end Serving

section Reading

variable {conn : Conn} {l : Loop}

structure Takes (world : World) (fd : Nat) (words : List CString) (call : Call) : Prop where
  from_ : call.fd = fd
  arg : call.arg = words
  open_ : call.before.isOpen fd = true
  after : call.after = (sockArg world fd words call.before).1

structure Taken (world : World) (fd : Nat) (conn : Conn) (lines : List (List CString)) (l l' : Loop) : Prop where
  has : Has fd conn l'.sock
  fine : l'.sock.errno ≠ .enotconn
  calls : ∃ more, l'.calls = l.calls ++ more ∧ List.Forall₂ (Takes world fd) lines more

theorem has_updateConn {f : Conn -> Conn} (has : Has fd conn s) (same : ∀ conn, (f conn).fd = conn.fd)
    (kept : ∀ conn, (f conn).closing = conn.closing) : Has fd (f conn) (s.updateConn fd f) := by
  refine ⟨?_, (kept conn).trans has.2⟩
  rw [conn?_updateConn same, has.1]
  simp [conn?_fd has.1]

theorem has_ctx (has : Has fd conn s) (ctx : PconfCtx) :
    Has fd { conn with ctx } (s.updateConn fd fun conn => { conn with ctx }) :=
  has_updateConn has (fun _ => rfl) fun _ => rfl

theorem hear_calls {byte : UInt8} (used : Option (List CString)) (before : Sock) :
    (hear fd byte used before l).calls = l.calls := by
  unfold hear
  dsimp only
  split <;> rfl

theorem readBytes_taken (sound : world.Sound fd) {bytes : CString} (has : Has fd conn l.sock) (fine : l.sock.errno ≠ .enotconn)
    (asks : ∀ words ∈ readLines conn.ctx bytes, Asks words) :
    Taken world fd { conn with ctx := readCtx conn.ctx bytes } (readLines conn.ctx bytes) l (readBytes world fd bytes l).1 := by
  induction bytes generalizing l conn with
  | nil => exact ⟨has, fine, [], by simp [readBytes, readLines]⟩
  | cons b bytes ih =>
    have fed := has_ctx has (pconfChar conn.ctx b).1
    have still : (l.sock.updateConn fd fun conn' => { conn' with ctx := (pconfChar conn.ctx b).1 }).errno ≠ .enotconn := fine
    have found := has.1
    unfold readBytes
    rw [found]
    dsimp only
    generalize l.sock.updateConn fd (fun conn' => { conn' with ctx := (pconfChar conn.ctx b).1 }) = s at fed still
    obtain done | more := pconfChar_reads conn.ctx b
    · simp only [readLines, readCtx, done, if_true, true_or, List.mem_cons, forall_eq_or_imp, Int.one_ne_zero, if_false] at asks ⊢
      generalize (pconfChar conn.ctx b).1 = ctx at *
      obtain ⟨has', fine', goes⟩ := asks_steady sound fed still asks.1
      rw [if_neg fine', if_neg goes]
      generalize next : hear fd b _ _ _ = l'
      have sock : l'.sock = (sockArg world fd ctx.arglist s).1 := by rw [<- next, hear_sock]
      have called : l'.calls = l.calls ++ [⟨fd, ctx.arglist, s, (sockArg world fd ctx.arglist s).1⟩] := by
        rw [<- next, hear_calls]
      obtain ⟨has'', fine'', calls, made, takes⟩ :=
        @ih { conn with ctx } l' (by rw [sock]; exact has') (by rw [sock]; exact fine') asks.2
      exact ⟨has'', fine'', ⟨fd, ctx.arglist, s, (sockArg world fd ctx.arglist s).1⟩ :: calls, by simp [made, called],
        .cons ⟨rfl, rfl, fed.isOpen, rfl⟩ takes⟩
    · simp only [readLines, readCtx, more, if_true, or_true, Int.zero_ne_one, if_false] at asks ⊢
      generalize next : hear fd b _ _ _ = l'
      have sock : l'.sock = s := by rw [<- next, hear_sock]
      have same : l'.calls = l.calls := by rw [<- next, hear_calls]
      obtain ⟨has', fine', calls⟩ :=
        @ih { conn with ctx := (pconfChar conn.ctx b).1 } l' (by rw [sock]; exact fed) (by rw [sock]; exact still) asks
      exact ⟨has', fine', by rwa [same] at calls⟩

theorem sockRead_taken (sound : world.Sound fd) {bytes : CString} (has : Has fd conn l.sock) (fine : l.sock.errno ≠ .enotconn)
    (few : bytes.length ≤ smallbuf) (asks : ∀ words ∈ readLines conn.ctx bytes, Asks words) :
    Taken world fd { conn with ctx := readCtx conn.ctx bytes, readzero := 0 } (readLines conn.ctx bytes) l
      (sockRead world fd (.bytes bytes) l).1 := by
  have reading : Has fd { conn with readzero := 0 } (l.sock.updateConn fd fun conn => { conn with readzero := 0 }) :=
    has_updateConn has (fun _ => rfl) fun _ => rfl
  have still : (l.sock.updateConn fd fun conn => { conn with readzero := 0 }).errno ≠ .enotconn := fine
  have found := has.1
  have kept : ¬ conn.closing = true := by simp [has.2]
  unfold sockRead
  rw [found]
  dsimp only
  rw [if_neg kept, List.take_of_length_le few]
  generalize l.sock.updateConn fd (fun conn => { conn with readzero := 0 }) = s at reading still
  obtain ⟨has', fine', calls⟩ := @readBytes_taken _ _ _ { l with sock := s } sound bytes reading still asks
  exact ⟨has', fine', calls⟩

end Reading

end Sock

end Nut
