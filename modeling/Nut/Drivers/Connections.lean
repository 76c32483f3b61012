import Nut.Common.ParseConfFeeds
import Nut.Drivers.Sock
import Nut.Library.Runs

set_option autoImplicit false

namespace Nut

def World.Delivers (world : World) (fd : Nat) : Prop :=
  ∀ writes, world.write writes fd = .complete

namespace Sock

variable {world : World} {fd other : Nat} {s : Sock}

def sends (fd : Nat) (lines : List CString) (s : Sock) : Sock :=
  { s with writes := s.writes + lines.length, written := s.written ++ lines.map fun line => (fd, line) }

theorem write_complete (delivers : world.Delivers fd) (buf : CString) :
    s.write world fd buf = (s.sends fd [buf], .complete) := by
  simp [write, delivers s.writes, sends]

section Open

theorem isOpen_iff : s.isOpen fd = true ↔ ∃ conn, s.conn? fd = some conn ∧ conn.closing = false := by
  unfold isOpen
  cases s.conn? fd <;> simp

theorem conn?_fd {conn : Conn} (found : s.conn? fd = some conn) : conn.fd = fd :=
  beq_iff_eq.mp (@List.find?_some Conn (fun conn => conn.fd == fd) conn s.connhead found)

theorem conn?_updateConn {f : Conn -> Conn} (same : ∀ conn, (f conn).fd = conn.fd) :
    (s.updateConn other f).conn? fd = (s.conn? fd).map fun conn => if conn.fd = other then f conn else conn := by
  have kept : (fun conn : Conn => conn.fd == fd) ∘ (fun conn => if conn.fd = other then f conn else conn) =
      fun conn => conn.fd == fd := by
    funext conn
    simp only [Function.comp_apply]
    split <;> simp [same]
  rw [conn?, updateConn, List.find?_map, kept]
  rfl

theorem isOpen_updateConn {f : Conn -> Conn} (same : ∀ conn, (f conn).fd = conn.fd)
    (open_ : ∀ conn, conn.fd = fd -> (f conn).closing = conn.closing ∨ fd ≠ other) :
    (s.updateConn other f).isOpen fd = s.isOpen fd := by
  rw [isOpen, conn?_updateConn same, isOpen]
  cases found : s.conn? fd with
  | none => rfl
  | some conn =>
    have own := conn?_fd found
    simp only [Option.map_some, Option.any_some]
    by_cases here : conn.fd = other
    · obtain kept | different := open_ conn own
      · simp [here, kept]
      · exact absurd (own.symm.trans here) different
    · simp [here]

theorem updateConn_open {f : Conn -> Conn} (open_ : s.isOpen fd = true) (same : ∀ conn, (f conn).fd = conn.fd)
    (kept : ∀ conn, (f conn).closing = conn.closing) : (s.updateConn other f).isOpen fd = true :=
  (isOpen_updateConn same fun conn _ => Or.inl (kept conn)).trans open_

theorem isOpen_filter {keep : Conn -> Bool} (open_ : s.isOpen fd = true)
    (kept : ∀ conn, conn.fd = fd -> conn.closing = false -> keep conn = true) :
    { s with connhead := s.connhead.filter keep }.isOpen fd = true := by
  obtain ⟨conn, found, live⟩ := isOpen_iff.mp open_
  have stays := kept conn (conn?_fd found) live
  obtain ⟨own, before, after, split, earlier⟩ := List.find?_eq_some_iff_append.mp found
  refine isOpen_iff.mpr ⟨conn, ?_, live⟩
  rw [conn?, List.find?_eq_some_iff_append]
  refine ⟨own, before.filter keep, after.filter keep, ?_, fun prior member => earlier prior (List.mem_filter.mp member).1⟩
  simp [split, stays]

theorem isOpen_reap (open_ : s.isOpen fd = true) : s.reap.isOpen fd = true :=
  isOpen_filter open_ fun conn _ live => by simp [live]

theorem write_connhead (buf : CString) : (s.write world other buf).1.connhead = s.connhead := by
  unfold write
  cases world.write s.writes other <;> rfl

theorem isOpen_congr {s' : Sock} (same : s'.connhead = s.connhead) : s'.isOpen fd = s.isOpen fd := by
  rw [isOpen, isOpen, conn?, conn?, same]

theorem foldl_isOpen {ι : Type} {step : Sock -> ι -> Sock} {items : List ι}
    (kept : ∀ s item, s.isOpen fd = true -> (step s item).isOpen fd = true) (open_ : s.isOpen fd = true) :
    (items.foldl step s).isOpen fd = true := by
  induction items generalizing s with
  | nil => exact open_
  | cons item items ih => exact ih (kept s item open_)

theorem afterFailure_isOpen {send : CString -> Sock -> Sock}
    (kept : ∀ line s, s.isOpen fd = true -> (send line s).isOpen fd = true) (ret : WriteRet) (open_ : s.isOpen fd = true) :
    (afterFailure world send ret s).isOpen fd = true := by
  unfold afterFailure
  refine foldl_isOpen (fun s line => kept line s) ?_
  rw [<- open_]
  apply isOpen_congr
  split <;> rfl

theorem goesOn_connhead (cnext : Option Nat) (s : Sock) : (goesOn cnext s).connhead = s.connhead := by
  unfold goesOn
  split <;> rfl

theorem sendToEach_isOpen (delivers : world.Delivers fd) {send : CString -> Sock -> Sock}
    (kept : ∀ line s, s.isOpen fd = true -> (send line s).isOpen fd = true) (buf : CString)
    (open_ : s.isOpen fd = true) : (sendToEach world send buf s other).isOpen fd = true := by
  unfold sendToEach
  cases s.conn? other with
  | none => exact open_
  | some conn =>
    by_cases quiet : conn.nobroadcast = true
    · simp only [quiet, if_true]
      exact open_
    · simp only [quiet]
      have still : (s.write world other buf).1.isOpen fd = true := by
        rw [isOpen_congr (write_connhead buf), open_]
      by_cases own : fd = other
      · subst own
        rw [write_complete delivers]
        exact open_
      · split
        · exact open_
        · split
          · exact still
          · rw [isOpen_congr (goesOn_connhead _ _)]
            refine afterFailure_isOpen kept _ ?_
            refine (isOpen_updateConn ?_ fun _ _ => Or.inr own).trans still
            exact fun _ => rfl

theorem sendToAll_isOpen (delivers : world.Delivers fd) (again : Nat) (text : CString) (open_ : s.isOpen fd = true) :
    (sendToAll world again text s).isOpen fd = true := by
  induction again generalizing text s with
  | zero => exact open_
  | succ again ih =>
    unfold sendToAll
    split
    · exact open_
    · exact isOpen_reap (foldl_isOpen (fun s other open_ => sendToEach_isOpen delivers (fun line s => ih line) _ open_) open_)

theorem handle_isOpen (delivers : world.Delivers fd) (handling : Handling) (open_ : s.isOpen fd = true) :
    (handle world handling s).isOpen fd = true := by
  refine @foldl_isOpen fd s _ (applyOp world) _ (fun s op open_ => ?_) open_
  unfold applyOp
  exact foldl_isOpen (fun s line open_ => sendToAll_isOpen delivers 3 line open_) open_

end Open

section Sending

variable {lines more : List CString} {sent : Sock × Int}

theorem sends_sends : (s.sends fd lines).sends fd more = s.sends fd (lines ++ more) := by
  simp [sends, Nat.add_assoc]

theorem isOpen_sends (open_ : s.isOpen fd = true) : (s.sends fd lines).isOpen fd = true := open_

theorem dstate_sends {d : Dstate} (same : s.dstate = d) : (s.sends fd lines).dstate = d := same

-- What a function writes that sends `lines`: with `ENOTCONN` left over from before, it gives up after the first.
structure Sends (fd : Nat) (lines : List CString) (s : Sock) (sent : Sock × Int) : Prop where
  whole : s.errno ≠ .enotconn -> sent = (s.sends fd lines, 1)
  cut : s.errno = .enotconn -> ∃ few, few.length ≤ 1 ∧ sent.1 = s.sends fd few

theorem Sends.isOpen (sends : Sends fd lines s sent) (open_ : s.isOpen fd = true) : sent.1.isOpen fd = true := by
  by_cases left : s.errno = .enotconn
  · obtain ⟨few, _, same⟩ := sends.cut left
    rw [same]
    exact open_
  · rw [sends.whole left]
    exact open_

theorem sends_nothing : Sends fd [] s (s, 1) where
  whole := fun _ => by simp [Sock.sends]
  cut := fun _ => ⟨[], by simp, by simp [Sock.sends]⟩

theorem ifOpen_open (open_ : s.isOpen fd = true) (next : Sock -> Sock × Int) : ifOpen fd s next = next s := by
  obtain ⟨conn, found, live⟩ := isOpen_iff.mp open_
  simp [ifOpen, found, live]

theorem sends_open (open_ : s.isOpen fd = true) {next : Sock -> Sock × Int} (sends : Sends fd lines s (next s)) :
    Sends fd lines s (ifOpen fd s next) := by
  rw [ifOpen_open open_]
  exact sends

theorem checkSend_sends {failed : Int} {next : Sock -> Sock × Int} (first : Sends fd lines s sent)
    (second : Sends fd more (s.sends fd lines) (next (s.sends fd lines))) :
    Sends fd (lines ++ more) s (checkSend failed sent next) := by
  constructor
  · intro fine
    rw [first.whole fine, checkSend, if_neg (show ¬ (s.sends fd lines).errno = .enotconn from fine), if_neg Int.one_ne_zero,
      second.whole fine, sends_sends]
  · intro left
    obtain ⟨few, one, same⟩ := first.cut left
    refine ⟨few, one, ?_⟩
    rw [checkSend, if_pos (by rw [same]; exact left), same]

theorem answer_sends (first : Sends fd lines s sent) : Sends fd lines s (answer sent) := by
  constructor
  · intro fine
    rw [first.whole fine, answer, checkSend, if_neg (show ¬ (s.sends fd lines).errno = .enotconn from fine),
      if_neg Int.one_ne_zero]
  · intro left
    obtain ⟨few, one, same⟩ := first.cut left
    refine ⟨few, one, ?_⟩
    rw [answer, checkSend, if_pos (by rw [same]; exact left), same]

theorem nodeTexts_lines (node : StNode) : (nodeTexts node).flatMap sockLine = Nut.stTreeDumpConnOneNode node := by
  unfold nodeTexts Nut.stTreeDumpConnOneNode
  simp only [List.flatMap_cons, List.flatMap_append, List.flatMap_map, List.append_assoc]
  congr 4 <;> split <;> simp

variable (delivers : world.Delivers fd) (open_ : s.isOpen fd = true)

include delivers open_

theorem sendToOne_sends (text : CString) :
    Sends fd (sockLine text) s (sendToOne world fd text s) := by
  have sent : sendToOne world fd text s = (s.sends fd (sockLine text), 1) := by
    rw [sendToOne, ifOpen_open open_, sockLine]
    by_cases empty : text = []
    · simp [empty, sends]
    · simp [empty, write_complete delivers]
  refine ⟨fun _ => sent, fun _ => ⟨sockLine text, ?_, by rw [sent]⟩⟩
  unfold sockLine
  split <;> simp

theorem sendTexts_sends (texts : List CString) :
    Sends fd (texts.flatMap sockLine) s (sendTexts world fd texts s) := by
  induction texts generalizing s with
  | nil => exact sends_nothing
  | cons text texts ih => exact checkSend_sends (sendToOne_sends delivers open_ text) (ih open_)

theorem stTreeDumpConnOneNode_sends (node : StNode) :
    Sends fd (Nut.stTreeDumpConnOneNode node) s (stTreeDumpConnOneNode world fd node s) := by
  rw [<- nodeTexts_lines]
  exact sends_open open_ (sendTexts_sends delivers open_ _)

theorem stTreeDumpConn_sends (tree : StTree) :
    Sends fd (Nut.stTreeDumpConn tree) s (stTreeDumpConn world fd tree s) := by
  induction tree generalizing s with
  | nil => exact sends_open open_ sends_nothing
  | node left node right ihLeft ihRight =>
    have children : ∀ s : Sock, s.isOpen fd = true -> Sends fd (Nut.stTreeDumpConn right) s (if right = .nil then (s, 1)
          else
            if (stTreeDumpConn world fd right s).1.errno = .enotconn then ((stTreeDumpConn world fd right s).1, -2)
            else stTreeDumpConn world fd right s) := by
      intro s open_
      by_cases missing : right = .nil
      · rw [if_pos missing, missing]
        exact sends_nothing
      · rw [if_neg missing]
        have own := ihRight open_
        constructor
        · intro fine
          rw [own.whole fine, if_neg (show ¬ (s.sends fd _).errno = .enotconn from fine)]
        · intro left
          obtain ⟨few, one, same⟩ := own.cut left
          refine ⟨few, one, ?_⟩
          split <;> exact same
    have rest : ∀ s : Sock, s.isOpen fd = true -> Sends fd (Nut.stTreeDumpConnOneNode node ++ Nut.stTreeDumpConn right) s
          (checkSend 0 (stTreeDumpConnOneNode world fd node s) fun s =>
            if right = .nil then (s, 1)
            else
              if (stTreeDumpConn world fd right s).1.errno = .enotconn then ((stTreeDumpConn world fd right s).1, -2)
              else stTreeDumpConn world fd right s) :=
      fun s open_ => checkSend_sends (stTreeDumpConnOneNode_sends delivers open_ node) (children _ open_)
    refine sends_open open_ ?_
    by_cases missing : left = .nil
    · simp only [missing, if_true, Nut.stTreeDumpConn, List.nil_append]
      exact rest s open_
    · simp only [missing, if_false, Nut.stTreeDumpConn, List.append_assoc]
      exact checkSend_sends (ihLeft open_) (rest _ open_)

variable {d : Dstate}

theorem cmdDumpConn_sends (same : s.dstate = d) :
    Sends fd (Nut.cmdDumpConn d.cmdhead) s (cmdDumpConn world fd s) := by
  have lines : (s.dstate.cmdhead.map fun cmd => formatWord (cstr "ADDCMD") cmd).flatMap sockLine =
      Nut.cmdDumpConn d.cmdhead := by
    rw [List.flatMap_map, same]
    rfl
  rw [<- lines]
  exact sends_open open_ (sendTexts_sends delivers open_ _)

theorem dumpEnd_sends (same : s.dstate = d) :
    Sends fd ((if d.stale then [] else sockLine (cstr "DATAOK\n")) ++ sockLine (cstr "DUMPDONE\n")) s
      (dumpEnd world fd s) := by
  have done (s : Sock) (open_ : s.isOpen fd = true) :
      Sends fd (sockLine (cstr "DUMPDONE\n")) s (answer (sendToOne world fd (cstr "DUMPDONE\n") s)) :=
    answer_sends (sendToOne_sends delivers open_ _)
  unfold dumpEnd
  rw [same]
  cases d.stale with
  | true => exact done s open_
  | false =>
    simp only [Bool.false_eq_true, if_false]
    apply checkSend_sends (sendToOne_sends delivers open_ _)
    exact done _ (isOpen_sends open_)

theorem dumpAll_sends (same : s.dstate = d) :
    Sends fd (sockArgDumpall d) s (dump world fd (dumpAll world fd) s) := by
  have all (s : Sock) (open_ : s.isOpen fd = true) (same : s.dstate = d) : Sends fd
      (Nut.stTreeDumpConn d.dtreeRoot ++ (Nut.cmdDumpConn d.cmdhead ++
        ((if d.stale then [] else sockLine (cstr "DATAOK\n")) ++ sockLine (cstr "DUMPDONE\n")))) s
      (dumpAll world fd s) := by
    unfold dumpAll
    rw [same]
    apply checkSend_sends (stTreeDumpConn_sends delivers open_ _)
    apply checkSend_sends (cmdDumpConn_sends delivers (isOpen_sends open_) (dstate_sends same))
    exact dumpEnd_sends delivers (isOpen_sends (isOpen_sends open_)) (dstate_sends (dstate_sends same))
  have lines : sockArgDumpall d = (if d.stale then sockLine (cstr "DATASTALE\n") else []) ++
      (Nut.stTreeDumpConn d.dtreeRoot ++ (Nut.cmdDumpConn d.cmdhead ++
        ((if d.stale then [] else sockLine (cstr "DATAOK\n")) ++ sockLine (cstr "DUMPDONE\n")))) := by
    simp only [sockArgDumpall, List.append_assoc]
  rw [lines, dump, same]
  have first := all s open_ same
  have behind := all _ (@isOpen_sends fd s (sockLine (cstr "DATASTALE\n")) open_) (dstate_sends same)
  cases stale : d.stale with
  | true =>
    simp only [stale, if_true] at behind ⊢
    exact checkSend_sends (sendToOne_sends delivers open_ _) behind
  | false =>
    simpa only [stale, Bool.false_eq_true, if_false, List.nil_append] using first

end Sending

section Requests

variable {arg : List CString}

def isDumpall (arg : List CString) : Bool :=
  arg.head?.any fun arg0 => isCommand arg0 "DUMPALL"

theorem isCommand_upper {arg0 : CString} {word other : String} (isWord : isCommand arg0 word = true)
    (different : foldCase (cstr word) ≠ foldCase (cstr other)) : isCommand arg0 other = false := by
  unfold isCommand at isWord ⊢
  have same := (strcasecmp_eq_iff _ _).mp (beq_iff_eq.mp isWord)
  rw [beq_eq_false_iff_ne, ne_eq, strcasecmp_eq_iff, same]
  exact different

theorem isOpen_ite {choice : Prop} [Decidable choice] {first second : Sock × Int} (yes : first.1.isOpen fd = true)
    (no : second.1.isOpen fd = true) : (if choice then first else second).1.isOpen fd = true := by
  split
  · exact yes
  · exact no

variable (delivers : world.Delivers fd) (open_ : s.isOpen fd = true)

include delivers open_

theorem sockArg_dumpall (dumpall : isDumpall arg = true) :
    Sends fd (sockArgDumpall s.dstate) s (sockArg world fd arg s) := by
  cases arg with
  | nil => cases dumpall
  | cons arg0 args =>
    have isDump : isCommand arg0 "DUMPALL" = true := dumpall
    have logout : isCommand arg0 "LOGOUT" = false := isCommand_upper isDump (by decide)
    have getpid : isCommand arg0 "GETPID" = false := isCommand_upper isDump (by decide)
    apply sends_open open_
    simp only [logout, getpid, isDump, Bool.false_eq_true, if_false, if_true]
    exact dumpAll_sends delivers open_ rfl

theorem dumpOne_isOpen (varname : CString) :
    (dumpOne world fd varname s).1.isOpen fd = true := by
  unfold dumpOne
  cases stateTreeFind s.dstate.dtreeRoot varname with
  | none => exact (dumpEnd_sends delivers open_ rfl).isOpen open_
  | some node =>
    have all := @checkSend_sends fd s _ _ _ (-3) (dumpEnd world fd) (stTreeDumpConnOneNode_sends delivers open_ node)
      (dumpEnd_sends delivers (isOpen_sends open_) rfl)
    exact all.isOpen open_

theorem dump_isOpen {body : Sock -> Sock × Int}
    (kept : ∀ s : Sock, s.isOpen fd = true -> (body s).1.isOpen fd = true) :
    (dump world fd body s).1.isOpen fd = true := by
  unfold dump
  split
  · have first := (sendToOne_sends delivers open_ (cstr "DATASTALE\n")).isOpen open_
    unfold checkSend
    split
    · exact first
    · split
      · exact first
      · exact kept _ first
  · exact kept s open_

theorem report_isOpen (id : Option CString) (ret : Int) :
    (report world fd id ret s).1.isOpen fd = true := by
  cases id with
  | none => exact open_
  | some id => exact (answer_sends (sends_open open_ (sendToOne_sends delivers open_ _))).isOpen open_

theorem instcmd_isOpen (args : List CString) :
    (instcmd world fd args s).1.isOpen fd = true := by
  have call (cmdname : CString) (cmdparam cmdid : Option CString) :
      (report world fd cmdid (world.instcmd s.writes cmdname cmdparam).ret
        (handle world (world.instcmd s.writes cmdname cmdparam) s)).1.isOpen fd = true :=
    report_isOpen delivers (handle_isOpen delivers _ open_) _ _
  unfold instcmd
  split
  · exact call _ _ _
  · exact call _ _ _
  · split
    · exact call _ _ _
    · exact open_
  · split
    · exact call _ _ _
    · exact open_
  · exact open_

theorem setvar_isOpen (args : List CString) :
    (setvar world fd args s).1.isOpen fd = true := by
  unfold setvar
  dsimp only
  split
  next var value keyword setid =>
    split
    next =>
      cases world.setvar s.writes var value with
      | some handling => exact report_isOpen delivers (handle_isOpen delivers handling open_) _ _
      | none => exact open_
    next => exact open_
  next var value _ _ =>
    cases world.setvar s.writes var value with
    | some handling => exact report_isOpen delivers (handle_isOpen delivers handling open_) _ _
    | none => exact open_
  next => exact open_

theorem sockArg_isOpen (stays : (sockArg world fd arg s).2 ≠ 2) : (sockArg world fd arg s).1.isOpen fd = true := by
  have answered (text : CString) : (answer (sendToOne world fd text s)).1.isOpen fd = true :=
    (answer_sends (sendToOne_sends delivers open_ text)).isOpen open_
  have dumped (varname : CString) : (dump world fd (dumpOne world fd varname) s).1.isOpen fd = true :=
    dump_isOpen delivers open_ fun s open_ => dumpOne_isOpen delivers open_ varname
  unfold sockArg at stays ⊢
  rw [ifOpen_open open_] at stays ⊢
  cases arg with
  | nil => exact open_
  | cons arg0 args =>
    simp only at stays ⊢
    split at stays
    next => exact absurd rfl stays
    next logout =>
      rw [if_neg logout]
      refine isOpen_ite (answered _) ?_
      refine isOpen_ite ((dumpAll_sends delivers open_ rfl).isOpen open_) ?_
      refine isOpen_ite (dumped _) (isOpen_ite (dumped _) ?_)
      refine isOpen_ite (answered _) (isOpen_ite ?_ (isOpen_ite ?_ ?_))
      · apply updateConn_open open_ <;> exact fun _ => rfl
      · cases args with
        | nil => apply updateConn_open open_ <;> exact fun _ => rfl
        | cons arg1 args => apply updateConn_open open_ <;> exact fun _ => rfl
      · exact isOpen_ite (instcmd_isOpen delivers open_ args) (isOpen_ite (setvar_isOpen delivers open_ args) open_)

end Requests

section Runs

variable {l : Loop} {conn : Conn} {byte : UInt8}

-- What came of a byte: the connection's parser took it, or a read was given up before.
structure Heard.Taken (world : World) (heard : Heard) (conn : Conn) : Prop where
  found : heard.before.conn? heard.fd = some conn
  open_ : world.Delivers heard.fd -> heard.before.isOpen heard.fd = true
  line : (pconfChar conn.ctx heard.byte).2 = 1 -> heard.used = some (pconfChar conn.ctx heard.byte).1.arglist ∧
    heard.after = (sockArg world heard.fd (pconfChar conn.ctx heard.byte).1.arglist
      (heard.before.updateConn heard.fd fun conn' => { conn' with ctx := (pconfChar conn.ctx heard.byte).1 })).1
  rest : (pconfChar conn.ctx heard.byte).2 ≠ 1 -> heard.used = none

structure Heard.ThrownAway (heard : Heard) : Prop where
  used : heard.used = none
  given : heard.before.errno = .enotconn ∨ heard.before.dangling = true

def Loop.Made (world : World) (l : Loop) : Prop :=
  ∀ heard ∈ l.heard, (∃ conn, heard.Taken world conn) ∨ heard.ThrownAway

theorem hear_made (made : l.Made world) {used : Option (List CString)} {before : Sock}
    (new : ∀ arg, (∃ conn, Heard.Taken world ⟨fd, arg, byte, used, before, l.sock⟩ conn) ∨
      Heard.ThrownAway ⟨fd, arg, byte, used, before, l.sock⟩) : (hear fd byte used before l).Made world := by
  unfold hear
  dsimp only
  split
  · intro heard member
    obtain earlier | last := List.mem_append.mp member
    · exact made heard earlier
    · rw [List.mem_singleton.mp last]
      exact new _
  · exact made

theorem hear_sock (used : Option (List CString)) (before : Sock) : (hear fd byte used before l).sock = l.sock := by
  unfold hear
  dsimp only
  split <;> rfl

theorem throwAway_made (bytes : CString) (made : l.Made world)
    (given : l.sock.errno = .enotconn ∨ l.sock.dangling = true) : (throwAway fd bytes l).Made world := by
  unfold throwAway
  induction bytes generalizing l with
  | nil => exact made
  | cons b bytes ih =>
    refine ih (hear_made made fun arg => Or.inr ⟨rfl, given⟩) ?_
    rw [hear_sock]
    exact given

theorem readBytes_made (bytes : CString) (made : l.Made world)
    (open_ : world.Delivers fd -> l.sock.isOpen fd = true) : (readBytes world fd bytes l).1.Made world := by
  induction bytes generalizing l with
  | nil => exact made
  | cons b bytes ih =>
    unfold readBytes
    cases found : l.sock.conn? fd with
    | none => exact throwAway_made _ made (Or.inr rfl)
    | some conn =>
      have fed : world.Delivers fd ->
          (l.sock.updateConn fd fun conn' => { conn' with ctx := (pconfChar conn.ctx b).1 }).isOpen fd = true := by
        intro delivers
        apply updateConn_open (open_ delivers) <;> exact fun _ => rfl
      simp only
      obtain line | more := pconfChar_reads conn.ctx b
      · rw [if_neg (by simp [line]), if_pos line]
        have called : Loop.Made world (hear fd b (some (pconfChar conn.ctx b).1.arglist) l.sock
            { l with
              sock := (sockArg world fd (pconfChar conn.ctx b).1.arglist
                (l.sock.updateConn fd fun conn' => { conn' with ctx := (pconfChar conn.ctx b).1 })).1
              calls := l.calls ++ [{ fd, arg := (pconfChar conn.ctx b).1.arglist
                                     before := l.sock.updateConn fd fun conn' => { conn' with ctx := (pconfChar conn.ctx b).1 }
                                     after := (sockArg world fd (pconfChar conn.ctx b).1.arglist
                                       (l.sock.updateConn fd fun conn' => { conn' with ctx := (pconfChar conn.ctx b).1 })).1 }] }) := by
          apply hear_made
          · exact made
          · exact fun arg => Or.inl ⟨conn, found, open_, fun _ => ⟨rfl, rfl⟩, fun other => absurd line other⟩
        split
        next left => exact throwAway_made _ called (Or.inl (by rw [hear_sock]; exact left))
        next =>
          split
          next => exact throwAway_made _ called (Or.inl rfl)
          next stays =>
            refine ih called fun delivers => ?_
            rw [hear_sock]
            exact sockArg_isOpen delivers (fed delivers) stays
      · rw [if_pos more]
        have none_ : (pconfChar conn.ctx b).2 ≠ 1 := by simp [more]
        refine ih ?_ fun delivers => ?_
        · apply hear_made
          · exact made
          · exact fun arg => Or.inl ⟨conn, found, open_, fun line => absurd line none_, fun _ => rfl⟩
        · rw [hear_sock]
          exact fed delivers

theorem sockRead_made (read : ReadRet) (made : l.Made world) : (sockRead world fd read l).1.Made world := by
  unfold sockRead
  cases found : l.sock.conn? fd with
  | none => exact made
  | some conn =>
    by_cases closing : conn.closing = true
    · simp only [closing, if_true]
      exact made
    · simp only [closing]
      cases read with
      | failed errno =>
        simp only [Bool.false_eq_true, if_false]
        split <;> exact made
      | nothing nonblocking =>
        simp only [Bool.false_eq_true, if_false]
        split <;> exact made
      | bytes buf =>
        have open_ := isOpen_iff.mpr ⟨conn, found, Bool.eq_false_iff.mpr closing⟩
        refine readBytes_made _ made fun _ => ?_
        apply updateConn_open open_ <;> exact fun _ => rfl

theorem driverStep_made (event : DriverEvent) (made : l.Made world) : (driverStep world l event).Made world := by
  cases event with
  | op op => exact made
  | errno errno => exact made
  | poll poll =>
    intro heard member
    unfold driverStep dstatePollFds at member
    refine @invariant_foldl Loop Nat _ (fun l => l.Made world) (fun l fd made => ?_) _ ?_ _ heard member
    · cases poll.ready fd with
      | some read =>
        have after := @sockRead_made world fd l read made
        dsimp only
        split <;> exact after
      | none => exact made
    · exact made

theorem driverRun_made (world : World) (doSynchronous : Int) (events : List DriverEvent) :
    (driverRun world doSynchronous events).Made world := by
  have run (events : List DriverEvent) (l : Loop) (made : l.Made world) :
      (events.foldl (driverStep world) l).Made world := by
    induction events generalizing l with
    | nil => exact made
    | cons event events ih => exact ih _ (driverStep_made event made)
  exact run events _ fun call member => absurd member (List.not_mem_nil)

structure Heard.Answered (heard : Heard) : Prop where
  used : heard.used = some heard.arg
  written : heard.after.written =
    heard.before.written ++ (sockArgDumpall heard.before.dstate).map fun line => (heard.fd, line)
  open_ : heard.after.isOpen heard.fd = true
  defined : heard.after.dangling = false

-- The connection's parser was given all of the line, and the last byte completes it there, too.
def Heard.Whole (heard : Heard) : Prop :=
  ∃ conn, heard.before.conn? heard.fd = some conn ∧ (pconfChar conn.ctx heard.byte).2 = 1 ∧
    (pconfChar conn.ctx heard.byte).1.arglist = heard.arg

structure Heard.Undisturbed (heard : Heard) : Prop where
  whole : heard.Whole
  errno : heard.before.errno ≠ .enotconn
  defined : heard.before.dangling = false

theorem sockArgDumpall_long (d : Dstate) : 2 ≤ (sockArgDumpall d).length := by
  have one (text : CString) (some_ : text ≠ []) : (sockLine text).length = 1 := by simp [sockLine, some_]
  have done := one (cstr "DUMPDONE\n") (by decide)
  have fresh := one (cstr "DATAOK\n") (by decide)
  have stale := one (cstr "DATASTALE\n") (by decide)
  unfold sockArgDumpall
  cases d.stale with
  | true =>
    simp only [if_true, List.length_append, done, stale]
    omega
  | false =>
    simp only [Bool.false_eq_true, if_false, List.length_append, done, fresh]
    omega

-- Every DUMPALL that is read from a connection, on whatever the loop does with what it reads.
theorem dumpall_answered (world : World) (doSynchronous : Int) (events : List DriverEvent) {heard : Heard}
    (member : heard ∈ (driverRun world doSynchronous events).heard) (dumpall : isDumpall heard.arg = true)
    (delivers : world.Delivers heard.fd) : heard.Answered ↔ heard.Undisturbed := by
  have made := driverRun_made world doSynchronous events heard member
  constructor
  · intro answered
    obtain ⟨conn, taken⟩ | thrown := made
    · have line : (pconfChar conn.ctx heard.byte).2 = 1 := by
        by_contra other
        have used := answered.used
        rw [taken.rest other] at used
        cases used
      obtain ⟨used, after⟩ := taken.line line
      have same : (pconfChar conn.ctx heard.byte).1.arglist = heard.arg :=
        Option.some.inj (used.symm.trans answered.used)
      have fed : (heard.before.updateConn heard.fd fun conn' =>
          { conn' with ctx := (pconfChar conn.ctx heard.byte).1 }).isOpen heard.fd = true := by
        apply updateConn_open (taken.open_ delivers) <;> exact fun _ => rfl
      have sends := sockArg_dumpall delivers fed dumpall
      rw [same] at after
      have fine : heard.before.errno ≠ .enotconn := by
        intro left
        obtain ⟨few, one, cut⟩ := sends.cut left
        have written := answered.written
        rw [after, cut] at written
        have lengths := congrArg List.length written
        simp only [Sock.sends, updateConn, List.length_append, List.length_map] at lengths
        have := sockArgDumpall_long heard.before.dstate
        omega
      refine ⟨⟨conn, taken.found, line, same⟩, fine, ?_⟩
      have defined := answered.defined
      rw [after, sends.whole fine] at defined
      exact defined
    · have used := answered.used
      rw [thrown.used] at used
      cases used
  · rintro ⟨⟨conn, found, line, same⟩, fine, defined⟩
    obtain ⟨other, taken⟩ | thrown := made
    · obtain rfl : other = conn := Option.some.inj (taken.found.symm.trans found)
      obtain ⟨used, after⟩ := taken.line line
      have fed : (heard.before.updateConn heard.fd fun conn' =>
          { conn' with ctx := (pconfChar other.ctx heard.byte).1 }).isOpen heard.fd = true := by
        apply updateConn_open (taken.open_ delivers) <;> exact fun _ => rfl
      rw [same] at used after
      rw [(sockArg_dumpall delivers fed dumpall).whole fine] at after
      exact ⟨used, by rw [after]; rfl, by rw [after]; exact fed, by rw [after]; exact defined⟩
    · obtain left | gone := thrown.given
      · exact absurd left fine
      · rw [defined] at gone
        cases gone

def quietWorld : World :=
  { write := fun _ _ => .complete
    now := fun _ => 0
    pid := 1
    instcmd := fun _ _ _ => { ops := [], errno := .ok, ret := 0 }
    setvar := fun _ _ _ => none }

def pollOf (accept : Option Nat) (requests : List (Nat × String)) : DriverEvent :=
  .poll { accept, ready := fun fd => (requests.lookup fd).map fun request => .bytes (cstr request) }

def Heard.place (heard : Heard) : Nat × List CString × UInt8 × Sock :=
  (heard.fd, heard.arg, heard.byte, heard.before)

theorem exists_place {l : Loop} {before after : List (Nat × List CString × UInt8 × Sock)}
    {place : Nat × List CString × UInt8 × Sock} (places : l.heard.map Heard.place = before ++ place :: after) :
    ∃ heard ∈ l.heard, heard.place = place := by
  have member : place ∈ l.heard.map Heard.place := by simp [places]
  exact List.mem_map.mp member

theorem dumpall_answered_sample :
    ∃ heard ∈ (driverRun quietWorld 0 [pollOf (some 5) [], pollOf none [(5, "DUMPALL\n")]]).heard, heard.Answered := by
  have places : (driverRun quietWorld 0 [pollOf (some 5) [], pollOf none [(5, "DUMPALL\n")]]).heard.map Heard.place =
      [] ++ (5, [cstr "DUMPALL"], 10,
        { (driverStart 0).sock with connhead := [⟨5, readCtx pconfInit (cstr "DUMPALL"), false, 0, false⟩] }) :: [] := by
    decide +kernel
  obtain ⟨⟨fd, arg, byte, used, before, after⟩, member, place⟩ := exists_place places
  simp only [Heard.place, Prod.mk.injEq] at place
  obtain ⟨rfl, rfl, rfl, rfl⟩ := place
  have dumpall : isDumpall [cstr "DUMPALL"] = true := by decide
  have line : (pconfChar (readCtx pconfInit (cstr "DUMPALL")) 10).2 = 1 ∧
      (pconfChar (readCtx pconfInit (cstr "DUMPALL")) 10).1.arglist = [cstr "DUMPALL"] := by
    decide +kernel
  exact ⟨_, member, (dumpall_answered quietWorld 0 _ member dumpall fun _ => rfl).mpr
    ⟨⟨_, rfl, line.1, line.2⟩, Errno.noConfusion, rfl⟩⟩

def disturbance : List DriverEvent :=
  [pollOf (some 5) [], pollOf (some 6) [], pollOf none [(6, "LOGOUT\n"), (5, "DUMPALL\n")]]

theorem dumpall_disturbed :
    ∃ heard ∈ (driverRun quietWorld 0 disturbance).heard, isDumpall heard.arg = true ∧ quietWorld.Delivers heard.fd ∧
      heard.after.written = heard.before.written ++ [(heard.fd, cstr "DATASTALE\n")] ∧ ¬ heard.Answered := by
  have lines : (driverRun quietWorld 0 disturbance).heard.map (fun heard => (heard.fd, heard.arg)) =
      [(6, [cstr "LOGOUT"]), (5, [cstr "DUMPALL"])] := by
    decide +kernel
  have sent : (driverRun quietWorld 0 disturbance).heard.map (fun heard => (heard.before.written, heard.after.written)) =
      [([], [(6, cstr "OK Goodbye\n")]),
        ([(6, cstr "OK Goodbye\n")], [(6, cstr "OK Goodbye\n"), (5, cstr "DATASTALE\n")])] := by
    decide +kernel
  obtain ⟨logout, rest, split, _, later⟩ := List.map_eq_cons_iff.mp lines
  obtain ⟨heard, none_, behind, same, _⟩ := List.map_eq_cons_iff.mp later
  rw [split, behind] at sent
  simp only [List.map_cons, List.cons.injEq, Prod.mk.injEq] at same sent
  obtain ⟨fd, arg⟩ := same
  obtain ⟨_, ⟨before, after⟩, _⟩ := sent
  have member : heard ∈ (driverRun quietWorld 0 disturbance).heard := by
    rw [split, behind]
    simp
  have written : heard.after.written = heard.before.written ++ [(heard.fd, cstr "DATASTALE\n")] := by
    rw [fd, before, after]
    rfl
  refine ⟨heard, member, by rw [arg]; decide, fun _ => rfl, written, fun answered => ?_⟩
  have whole := answered.written
  rw [written, List.append_cancel_left_eq] at whole
  have lengths := congrArg List.length whole
  simp only [List.length_map, List.length_singleton] at lengths
  have := sockArgDumpall_long heard.before.dstate
  omega

end Runs

end Sock

end Nut
