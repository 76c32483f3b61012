import Nut.Clients.Answers
import Nut.Server.Upsd

set_option autoImplicit false

namespace Nut

namespace Upsconn

def pending (ups : Upsconn) : CString :=
  ups.readbuf ++ ups.incoming.flatten

def reading (ups : Upsconn) (readbuf : CString) (incoming : List CString) : Upsconn :=
  { ups with readbuf := readbuf, incoming := incoming }

@[simp] theorem reading_reading (ups : Upsconn) (readbuf readbuf' : CString) (incoming incoming' : List CString) :
    (ups.reading readbuf incoming).reading readbuf' incoming' = ups.reading readbuf' incoming' := rfl

def Chunked (ups : Upsconn) : Prop :=
  ∀ chunk ∈ ups.incoming, chunk ≠ []

end Upsconn

section Loop

variable {ups after : Upsconn} {b : UInt8} {rest : CString}

theorem nextByte_pending (some_ : ups.nextByte = (after, some b)) : ups.pending = b :: after.pending := by
  unfold Upsconn.nextByte at some_
  split at some_
  next buffered =>
    cases some_
    simp [Upsconn.pending, buffered]
  next empty =>
    split at some_
    next arrived =>
      cases some_
      simp [Upsconn.pending, empty, arrived]
    next => cases some_

theorem nextByte_chunked (chunked : ups.Chunked) (pending : ups.pending = b :: rest) :
    ∃ readbuf incoming, ups.nextByte = (ups.reading readbuf incoming, some b) ∧
      (ups.reading readbuf incoming).pending = rest ∧ (ups.reading readbuf incoming).Chunked := by
  unfold Upsconn.nextByte
  cases buffered : ups.readbuf with
  | cons b' more =>
    simp only [Upsconn.pending, buffered, List.cons_append, List.cons.injEq] at pending
    exact ⟨more, ups.incoming, by simp [Upsconn.reading, pending.1], pending.2, chunked⟩
  | nil =>
    cases arrived : ups.incoming with
    | nil => simp [Upsconn.pending, buffered, arrived] at pending
    | cons chunk incoming =>
      cases chunk with
      | nil => exact absurd rfl (chunked [] (by simp [arrived]))
      | cons b' more =>
        simp only [Upsconn.pending, buffered, arrived, List.nil_append, List.flatten_cons, List.cons_append,
          List.cons.injEq] at pending
        exact ⟨more, incoming, by simp [Upsconn.reading, pending.1], pending.2,
          fun chunk member => chunked chunk (by rw [arrived]; exact List.mem_cons_of_mem _ member)⟩

theorem readlineLoop_pending {room : Nat} {buf line : CString} (read : ups.readlineLoop room buf = (after, some line)) :
    ∃ taken, line = buf ++ taken ∧ taken.length ≤ room ∧ 10 ∉ taken ∧
      (ups.pending = taken ++ 10 :: after.pending ∧ taken.length < room ∨
        ups.pending = taken ++ after.pending ∧ taken.length = room) := by
  induction room generalizing ups buf with
  | zero =>
    cases read
    exact ⟨[], by simp, by simp, by simp, Or.inr ⟨rfl, rfl⟩⟩
  | succ room ih =>
    unfold Upsconn.readlineLoop at read
    split at read
    next => cases read
    next middle b came =>
      have first := nextByte_pending came
      split at read
      next newline =>
        cases read
        exact ⟨[], by simp, by simp, by simp, Or.inl ⟨by rw [first, newline]; rfl, by simp⟩⟩
      next other =>
        obtain ⟨taken, grown, few, free, ended⟩ := ih read
        have apart : 10 ∉ b :: taken := by
          simp only [List.mem_cons, not_or]
          exact ⟨fun same => other same.symm, free⟩
        refine ⟨b :: taken, by simp [grown], by simp; omega, apart, ?_⟩
        simpa [first] using ended

theorem readlineLoop_line {room : Nat} {buf content : CString} (chunked : ups.Chunked) (free : 10 ∉ content)
    (fits : content.length < room) (pending : ups.pending = content ++ 10 :: rest) :
    ∃ readbuf incoming, ups.readlineLoop room buf = (ups.reading readbuf incoming, some (buf ++ content)) ∧
      (ups.reading readbuf incoming).pending = rest ∧ (ups.reading readbuf incoming).Chunked := by
  induction content generalizing ups room buf with
  | nil =>
    obtain ⟨room, rfl⟩ : ∃ n, room = n + 1 := ⟨room - 1, by simp at fits; omega⟩
    obtain ⟨readbuf, incoming, came, left, still⟩ := nextByte_chunked chunked pending
    exact ⟨readbuf, incoming, by simp [Upsconn.readlineLoop, came], left, still⟩
  | cons b content ih =>
    obtain ⟨room, rfl⟩ : ∃ n, room = n + 1 := ⟨room - 1, by simp at fits; omega⟩
    simp only [List.mem_cons, not_or] at free
    have other : b ≠ 10 := fun same => free.1 same.symm
    obtain ⟨readbuf, incoming, came, left, still⟩ := nextByte_chunked chunked pending
    obtain ⟨readbuf', incoming', read, done⟩ := @ih _ room (buf ++ [b]) still free.2 (by simpa using fits) left
    exact ⟨readbuf', incoming', by simpa [Upsconn.readlineLoop, came, other] using read, done⟩

end Loop

def Reply.OneLine (reply : Reply) : Prop :=
  ∃ content, reply.format = content ++ [10] ∧ 10 ∉ content

namespace Upsconn

def InStep (ups : Upsconn) : List Reply -> Prop
  | [] => ups.pending = []
  | reply :: replies =>
    (∃ line, (ups.readline upscliNetbufLen).2 = some line ∧ line ++ [10] = reply.format) ∧
      (ups.readline upscliNetbufLen).1.InStep replies

end Upsconn

namespace ClientCall

def request (ups : Upsconn) : ClientCall -> Upsconn × Bool
  | get query => ups.sendline (buildCmd upscliNetbufLen (cstr "GET") query)
  | listStart query => ups.sendline (buildCmd upscliNetbufLen (cstr "LIST") query)
  | listNext _ => (ups, true)
  | getVar query _ => ups.sendline (buildCmd upscliNetbufLen (cstr "GET") query)

def line (ups : Upsconn) (call : ClientCall) : Option CString :=
  ((call.request ups).1.readline upscliNetbufLen).2

-- A request without words is refused before it is sent.
def Asks : ClientCall -> Prop
  | get query => query ≠ []
  | listStart query => query ≠ []
  | listNext _ => True
  | getVar query _ => query ≠ []

end ClientCall

def Upsconn.Matched (ups : Upsconn) : List (ClientCall × Reply) -> Prop
  | [] => ups.pending = []
  | (call, reply) :: exchanges =>
    (∃ line, call.line ups = some line ∧ line ++ [10] = reply.format) ∧ (call.perform ups).1.Matched exchanges

structure Upsconn.Receives (ups : Upsconn) (replies : List Reply) : Prop where
  connected : ups.connected = true
  writable : ups.writable = true
  unread : ups.readbuf = []
  stream : ups.incoming.flatten = replies.flatMap Reply.ans
  split : ∀ chunk ∈ ups.incoming, chunk ≠ [] ∧ chunk.length ≤ upscliReadbufLen

section Lines

variable {ups after : Upsconn} {reply : Reply} {replies : List Reply} {rest : CString}

theorem readline_line {content : CString} (connected : ups.connected = true) (chunked : ups.Chunked) (free : 10 ∉ content)
    (fits : content.length ≤ 510) (pending : ups.pending = content ++ 10 :: rest) :
    ∃ readbuf incoming, ups.readline upscliNetbufLen = (ups.reading readbuf incoming, some content) ∧
      (ups.reading readbuf incoming).pending = rest ∧ (ups.reading readbuf incoming).Chunked := by
  have room : content.length < upscliNetbufLen - 1 := by
    rw [show upscliNetbufLen - 1 = 511 from rfl]
    omega
  obtain ⟨readbuf, incoming, read, done⟩ := @readlineLoop_line ups rest _ [] content chunked free room pending
  exact ⟨readbuf, incoming, by simpa [Upsconn.readline, connected] using read, done⟩

theorem ans_fits (fits : reply.format.length ≤ 511) : reply.ans = reply.format :=
  snprintf_fits (by rw [show nutNetAnswerMax + 1 = 513 from rfl]; omega)

theorem readline_taken {line : CString} (read : (ups.readline upscliNetbufLen).2 = some line)
    (whole : line ++ [10] = reply.format) :
    ups.pending.length = reply.ans.length + (ups.readline upscliNetbufLen).1.pending.length ∧
        reply.OneLine ∧ reply.format.length ≤ 511 ∨
      ups.pending.length + 1 = reply.ans.length + (ups.readline upscliNetbufLen).1.pending.length := by
  have size : reply.format.length = line.length + 1 := by rw [<- whole]; simp
  unfold Upsconn.readline at read ⊢
  split at read
  next => cases read
  next connected =>
    rw [if_neg connected]
    cases came : ups.readlineLoop (upscliNetbufLen - 1) [] with
    | mk after outcome =>
      rw [came] at read
      simp only at read
      subst read
      obtain ⟨taken, same, _, free, ended⟩ := readlineLoop_pending came
      rw [List.nil_append] at same
      subst same
      rw [show upscliNetbufLen - 1 = 511 from rfl] at ended
      cases ended with
      | inl newline =>
        have fits : reply.format.length ≤ 511 := by omega
        refine Or.inl ⟨?_, ⟨line, whole.symm, free⟩, fits⟩
        rw [newline.1, ans_fits fits, <- whole]
        simp
        omega
      | inr full =>
        have cut : reply.ans.length = 512 := by
          rw [Reply.ans, snprintf, List.length_take, show nutNetAnswerMax + 1 - 1 = 512 from rfl]
          omega
        refine Or.inr ?_
        rw [full.1, cut, List.length_append]
        simp
        omega

theorem inStep_fits (inStep : ups.InStep replies) : ups.pending.length ≤ (replies.flatMap Reply.ans).length ∧
      (ups.pending.length = (replies.flatMap Reply.ans).length ->
        ∀ reply ∈ replies, reply.OneLine ∧ reply.format.length ≤ 511) := by
  induction replies generalizing ups with
  | nil =>
    rw [show ups.pending = [] from inStep]
    simp
  | cons reply replies ih =>
    obtain ⟨⟨line, read, whole⟩, later⟩ := inStep
    obtain ⟨few, all⟩ := ih later
    rw [List.flatMap_cons, List.length_append]
    rcases readline_taken read whole with ⟨taken, fits⟩ | cut
    · refine ⟨by omega, fun same => ?_⟩
      simp only [List.mem_cons, forall_eq_or_imp]
      exact ⟨fits, all (by omega)⟩
    · exact ⟨by omega, fun same => by omega⟩

theorem fits_inStep (connected : ups.connected = true) (chunked : ups.Chunked)
    (fits : ∀ reply ∈ replies, reply.OneLine ∧ reply.format.length ≤ 511)
    (pending : ups.pending = replies.flatMap Reply.ans) : ups.InStep replies := by
  induction replies generalizing ups with
  | nil => exact pending
  | cons reply replies ih =>
    simp only [List.mem_cons, forall_eq_or_imp] at fits
    obtain ⟨⟨⟨content, whole, free⟩, short⟩, later⟩ := fits
    have few : content.length ≤ 510 := by
      rw [whole, List.length_append, List.length_singleton] at short
      omega
    rw [List.flatMap_cons, ans_fits short, whole, List.append_assoc] at pending
    obtain ⟨readbuf, incoming, read, left, still⟩ := readline_line connected chunked free few pending
    unfold Upsconn.InStep
    rw [read]
    exact ⟨⟨content, rfl, whole.symm⟩, ih connected still later left⟩

end Lines

section Calls

variable {ups : Upsconn} {call : ClientCall} {rest : CString}

theorem perform_reading (ups : Upsconn) (call : ClientCall) :
    ∃ error, (call.perform ups).1 = { (call.reply ups).1 with upserror := error } := by
  have judged (ups : Upsconn) (ok : Option Bool) : ∃ error, ups.judge ok = { ups with upserror := error } := by
    unfold Upsconn.judge
    split
    · exact ⟨ups.upserror, rfl⟩
    · exact ⟨_, rfl⟩
  have got (query : List CString) :
      ∃ error, (ups.upscliGet query).1 = { (ups.ask "GET" query).1 with upserror := error } := by
    unfold Upsconn.upscliGet
    split
    next after failed => exact ⟨after.upserror, by rw [failed]⟩
    next after came => rw [came]; exact judged _ _
  cases call with
  | get query => exact got query
  | listStart query =>
    change ∃ error, (ups.upscliListStart query).1 = { (ups.ask "LIST" query).1 with upserror := error }
    unfold Upsconn.upscliListStart
    split
    next after failed => exact ⟨after.upserror, by rw [failed]⟩
    next after came => rw [came]; exact judged _ _
  | listNext query =>
    change ∃ error, (ups.upscliListNext query).1 = { ups.receive.1 with upserror := error }
    unfold Upsconn.upscliListNext
    split
    next after failed => exact ⟨after.upserror, by rw [failed]⟩
    next after came => rw [came]; exact judged _ _
  | getVar query bufsize =>
    have same : (ups.getVar query bufsize).1 = (ups.upscliGet query).1 := by
      unfold Upsconn.getVar
      split
      next came =>
        rw [came]
        split <;> rfl
      next came => rw [came]
    change ∃ error, (ups.getVar query bufsize).1 = { (ups.ask "GET" query).1 with upserror := error }
    rw [same]
    exact got query

theorem buildCmd_prefix (bufsize : Nat) (cmdname : CString) (args : List CString) :
    snprintf bufsize cmdname <+: buildCmd bufsize cmdname args := by
  have grows (args : List CString) (buf : CString) :
      buf <+: args.foldl (fun buf arg => snprintfcat buf bufsize (encodedField arg)) buf := by
    induction args generalizing buf with
    | nil => exact List.prefix_refl _
    | cons arg args ih =>
      have first : buf <+: snprintfcat buf bufsize (encodedField arg) := by
        unfold snprintfcat
        split
        · exact List.prefix_refl _
        · exact List.prefix_append _ _
      exact first.trans (ih _)
  exact (grows args _).trans (List.prefix_append _ _)

theorem request_sent (connected : ups.connected = true) (writable : ups.writable = true) (asks : call.Asks) :
    ∃ sent, call.request ups = ({ ups with sent := sent }, true) ∧
      call.reply ups = Upsconn.receive { ups with sent := sent } := by
  have sendline {cmdname : String} {query : List CString} (some_ : snprintf upscliNetbufLen (cstr cmdname) ≠ []) :
      ∃ sent, ups.sendline (buildCmd upscliNetbufLen (cstr cmdname) query) = ({ ups with sent := sent }, true) := by
    have text : buildCmd upscliNetbufLen (cstr cmdname) query ≠ [] := by
      intro none_
      have start := buildCmd_prefix upscliNetbufLen (cstr cmdname) query
      rw [none_, List.prefix_nil] at start
      exact some_ start
    exact ⟨ups.sent ++ [buildCmd upscliNetbufLen (cstr cmdname) query], by simp [Upsconn.sendline, connected, writable, text]⟩
  have asked {cmdname : String} {query : List CString} (some_ : snprintf upscliNetbufLen (cstr cmdname) ≠ [])
      (words : query ≠ []) :
      ∃ sent, ups.sendline (buildCmd upscliNetbufLen (cstr cmdname) query) = ({ ups with sent := sent }, true) ∧
        ups.ask cmdname query = Upsconn.receive { ups with sent := sent } := by
    obtain ⟨sent, written⟩ := @sendline cmdname query some_
    have positive : ¬ query.length < 1 := by
      have length := List.length_pos_of_ne_nil words
      omega
    exact ⟨sent, written, by simp [Upsconn.ask, positive, written]⟩
  cases call with
  | get query => exact asked (by decide) asks
  | listStart query => exact asked (by decide) asks
  | listNext query => exact ⟨ups.sent, rfl, rfl⟩
  | getVar query bufsize => exact asked (by decide) asks

theorem receive_line {content : CString} (connected : ups.connected = true) (chunked : ups.Chunked) (free : 10 ∉ content)
    (fits : content.length ≤ 510) (pending : ups.pending = content ++ 10 :: rest) :
    (ups.readline upscliNetbufLen).2 = some content ∧ ups.receive.1.connected = true ∧
      ups.receive.1.writable = ups.writable ∧ ups.receive.1.Chunked ∧ ups.receive.1.pending = rest := by
  obtain ⟨readbuf, incoming, read, left, still⟩ := readline_line connected chunked free fits pending
  unfold Upsconn.receive
  rw [read]
  simp only [Upsconn.accept, true_and]
  split
  · exact ⟨connected, rfl, still, left⟩
  · exact ⟨connected, rfl, still, left⟩

theorem fits_matched {exchanges : List (ClientCall × Reply)} (connected : ups.connected = true)
    (writable : ups.writable = true) (chunked : ups.Chunked) (asks : ∀ exchange ∈ exchanges, exchange.1.Asks)
    (fits : ∀ reply ∈ exchanges.map Prod.snd, reply.OneLine ∧ reply.format.length ≤ 511)
    (pending : ups.pending = (exchanges.map Prod.snd).flatMap Reply.ans) : ups.Matched exchanges := by
  induction exchanges generalizing ups with
  | nil => exact pending
  | cons exchange exchanges ih =>
    obtain ⟨call, reply⟩ := exchange
    simp only [List.map_cons, List.mem_cons, forall_eq_or_imp] at fits asks
    obtain ⟨⟨⟨content, whole, free⟩, short⟩, later⟩ := fits
    have few : content.length ≤ 510 := by
      rw [whole, List.length_append, List.length_singleton] at short
      omega
    rw [List.map_cons, List.flatMap_cons, ans_fits short, whole, List.append_assoc] at pending
    obtain ⟨sent, request, reply_⟩ := request_sent connected writable asks.1
    obtain ⟨read, open_, still_writable, still, left⟩ :=
      @receive_line { ups with sent := sent } _ content connected chunked free few pending
    obtain ⟨error, state⟩ := perform_reading ups call
    rw [reply_] at state
    unfold Upsconn.Matched ClientCall.line
    rw [request, state]
    exact ⟨⟨content, read, whole.symm⟩, ih open_ (still_writable.trans writable) still asks.2 later left⟩

end Calls

def Upsconn.byByte (replies : List Reply) : Upsconn :=
  (Upsconn.expecting []).reading [] ((replies.flatMap Reply.ans).map fun b => [b])

theorem byByte_receives (replies : List Reply) : (Upsconn.byByte replies).Receives replies where
  connected := rfl
  writable := rfl
  unread := rfl
  stream := by simp [Upsconn.byByte, Upsconn.reading, <- List.flatMap_def]
  split := by
    intro chunk member
    simp only [Upsconn.byByte, Upsconn.reading, List.mem_map] at member
    obtain ⟨b, _, rfl⟩ := member
    exact ⟨by simp, by simp [upscliReadbufLen]⟩

-- Client and server stay in step where each reply is a line that the buffer of the client takes.
theorem replies_in_step (replies : List Reply) : (∀ ups : Upsconn, ups.Receives replies -> ups.InStep replies ∧
          ∀ exchanges, exchanges.map Prod.snd = replies -> (∀ exchange ∈ exchanges, exchange.1.Asks) ->
            ups.Matched exchanges) ↔ ∀ reply ∈ replies, reply.OneLine ∧ reply.format.length ≤ 511 := by
  constructor
  · intro delivered
    have received := byByte_receives replies
    obtain ⟨inStep, _⟩ := delivered _ received
    exact (inStep_fits inStep).2 (by simp [Upsconn.pending, received.unread, received.stream])
  · intro fits ups received
    have chunked : ups.Chunked := fun chunk member => (received.split chunk member).1
    have pending : ups.pending = replies.flatMap Reply.ans := by
      simp [Upsconn.pending, received.unread, received.stream]
    refine ⟨fits_inStep received.connected chunked fits pending, ?_⟩
    rintro exchanges rfl asks
    exact fits_matched received.connected received.writable chunked asks fits pending

-- The reply to `GET DESC ups` and a name of 476 bytes, which a client can send, fills the buffer of upsd.
def Reply.longest : Reply :=
  .described "DESC" (cstr "ups") (List.replicate 476 97) none

-- It is written whole, but its newline is left over and answers the next request.
theorem longest_left_over : Reply.longest.ans = Reply.longest.format ∧
      ¬ ∀ ups : Upsconn, ups.Receives [Reply.longest, .upsdesc (cstr "ups") none] ->
          ups.InStep [Reply.longest, .upsdesc (cstr "ups") none] := by
  refine ⟨by decide +kernel, fun all => ?_⟩
  obtain ⟨_, ⟨line, read, whole⟩, _⟩ := all _ (byByte_receives _)
  have second : (((Upsconn.byByte [Reply.longest, .upsdesc (cstr "ups") none]).readline
      upscliNetbufLen).1.readline upscliNetbufLen).2 = some [] := by decide +kernel
  rw [second] at read
  cases read
  exact absurd whole (by decide)

end Nut
