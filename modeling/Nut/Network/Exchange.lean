import Mathlib.Data.List.TakeWhile
import Nut.Clients.BuildCmd
import Nut.Clients.Readline
import Nut.Common.ParseConfEof
import Nut.Server.Clients

set_option autoImplicit false

namespace Nut

-- How the bytes that come in are cut into reads.
structure Cutting where
  pieces : CString -> List CString
  whole : ∀ text, (pieces text).flatten = text
  nonempty : ∀ text, ∀ piece ∈ pieces text, piece ≠ []

def Cutting.byByte : Cutting where
  pieces text := text.map fun b => [b]
  whole text := by simp [<- List.flatMap_def]
  nonempty text piece member := by
    obtain ⟨b, -, rfl⟩ := List.mem_map.mp member
    exact List.cons_ne_nil b []

def Upsd.answers (w after : Upsd) (id : Nat) : List Reply :=
  ((after.replies.drop w.replies.length).filter fun entry => entry.1 = id && entry.2.2).map fun entry => entry.2.1

def Upsconn.gets (cutting : Cutting) (ups : Upsconn) (bytes : CString) : Upsconn :=
  { ups with incoming := ups.incoming ++ cutting.pieces bytes }

structure Exchanged where
  upsd : Upsd
  ups : Upsconn
  value : Option CString

def exchange (cutting : Cutting) (now : Int) (id : Nat) (w : Upsd) (ups : Upsconn) (query : List CString) (bufsize : Nat) :
    Exchanged :=
  let after := clientReadline now w id (some (buildCmd upscliNetbufLen (cstr "GET") query))
  let got := (ups.gets cutting ((w.answers after id).flatMap Reply.ans)).getVar query bufsize
  { upsd := after, ups := got.1, value := got.2.result.join }

structure Linked (w : Upsd) (id : Nat) (client : Client) (ups : Upsconn) : Prop where
  found : w.findClient id = some client
  line : AtLineStart client.ctx ∧ client.ctx.argLimit = 32 ∧ client.ctx.wordlenLimit = 512
  connected : ups.connected = true ∧ ups.writable = true
  chunked : ups.Chunked
  quiet : ups.pending = []
  parser : WithinLimits 32 512 ups.pcCtx ∧ ups.pcCtx.wordbuf = []

def Askable (word : CString) : Prop :=
  Sendable word ∧ ∀ b ∈ word, isText b = true

section Request

theorem fieldOf_token {arg : CString} (askable : Askable arg) : Token (fieldOf arg) arg := by
  obtain ⟨sendable, isText⟩ := askable
  unfold fieldOf
  split
  next => exact token_quoted (quotedAs_escapeAll isText)
  next unspaced =>
    rcases sendable with spaced | ⟨nonempty, unequal⟩ | rfl
    · exact absurd spaced unspaced
    · refine .bare (bareAs_escapeAll isText fun b member => ⟨?_, ?_⟩) (by simpa using nonempty) ?_
      · rintro rfl
        exact unspaced member
      · rintro rfl
        exact unequal member
      · -- A quote at the start is escaped.
        cases arg with
        | nil => exact absurd rfl nonempty
        | cons b rest =>
          rw [escapeAll_cons]
          split
          · simp
          next plain =>
            rintro same
            obtain rfl : b = 34 := by simpa using same
            exact absurd rfl plain
    · exact .equals

theorem lineOf_cmdText {cmdname : CString} (bare : BareWord cmdname) {args : List CString}
    (askable : ∀ arg ∈ args, Askable arg) : LineOf (cmdText cmdname args) (cmdname :: args) := by
  have behind {text word : CString} (token : Token text word) (args : List CString) (askable : ∀ arg ∈ args, Askable arg) :
      LineOf (text ++ args.flatMap fun arg => 32 :: fieldOf arg) (word :: args) := by
    induction args generalizing text word with
    | nil => simpa using LineOf.last token
    | cons arg rest ih =>
      have later := ih (fieldOf_token (askable arg List.mem_cons_self)) fun other member => askable other (List.mem_cons_of_mem arg member)
      simpa using LineOf.more token later
  exact behind bare.token args askable

theorem isLine_buildCmd {cmdname : CString} (bare : BareWord cmdname) {args : List CString}
    (askable : ∀ arg ∈ args, Askable arg) (few : args.length < 32) (fits : (cmdText cmdname args).length ≤ 510) :
    IsLine 32 512 (buildCmd upscliNetbufLen cmdname args) (cmdname :: args) := by
  have nameText : ∀ b ∈ cmdname, isText b = true := fun b member => (isBare_iff.mp (bare.2.2 b member)).1
  have short : cmdname.length ≤ 510 := by
    rw [cmdText, List.length_append] at fits
    omega
  obtain ⟨buf, made, written⟩ := buildCmd_written nameText short fun arg member => (askable arg member).2
  refine ⟨buf, made, written.whole fits ▸ lineOf_cmdText bare askable, by rw [List.length_cons]; omega, ?_⟩
  intro word member
  rcases List.mem_cons.mp member with rfl | inside
  · omega
  · have arrives := arriving_short fits word
    refine arrives (List.mem_flatMap.mpr ⟨word, inside, ?_⟩)
    rw [arrivingWords_sendable (askable word inside).1]
    exact List.mem_singleton_self word

end Request

section Server

variable {w : Upsd} {id : Nat} {client : Client}

theorem clientReadline_line (now : Int) (found : w.findClient id = some client)
    (line : AtLineStart client.ctx ∧ client.ctx.argLimit = 32 ∧ client.ctx.wordlenLimit = 512) {text : CString} {words : List CString}
    (isLine : IsLine 32 512 text words) : clientReadline now w id (some text) =
      (serveLine now id w words).updateClient id fun client => { client with ctx := ⟨.endofline, words, [], 32, 512⟩ } := by
  obtain ⟨start, args, wordlen⟩ := line
  have isLine' : IsLine client.ctx.argLimit client.ctx.wordlenLimit text words := by
    rw [args, wordlen]
    exact isLine
  have read := readChars_line (serveLine now id) start w isLine' []
  have some_ : text ≠ [] := by
    obtain ⟨body, rfl, -⟩ := isLine
    simp
  rw [List.append_nil, args, wordlen] at read
  unfold clientReadline
  rw [found]
  cases text with
  | nil => exact absurd rfl some_
  | cons b rest =>
    dsimp only
    rw [read]
    rfl

theorem serveLine_get (now : Int) (found : w.findClient id = some client) (query : List CString) :
    serveLine now id w (cstr "GET" :: query) = netGet (w.updateClient id (Client.hear now)) (client.hear now) query := by
  have table : (netcmds.find? fun cmd => isCommand (cstr "GET") cmd.name) = some ⟨"GET", fun _ => netGet, false⟩ := rfl
  rw [serveLine_found now found, parseNet, table]
  rfl

theorem answers_one {between : Upsd} (same : between.replies = w.replies) (writes : between.nextWrite = true) (reply : Reply)
    (ctx : PconfCtx) :
    w.answers ((between.reply id reply).updateClient id fun client => { client with ctx }) id = [reply] := by
  simp [Upsd.answers, Upsd.reply, sendback, writes, Upsd.updateClient, same]

end Server

section Reply

variable {ups : Upsconn} {query words : List CString} {text : CString}

theorem receive_words (connected : ups.connected = true) (chunked : ups.Chunked)
    (parser : WithinLimits 32 512 ups.pcCtx ∧ ups.pcCtx.wordbuf = []) (pending : ups.pending = text ++ [10])
    (line : LineOf text words) (few : words.length ≤ 32) (short : ∀ word ∈ words, word.length ≤ 512)
    (fits : text.length ≤ 510) (noError : Upsconn.errcheck text = none) :
    ∃ after, ups.receive = (after, true) ∧ after.pcCtx.arglist = words ∧
      (after.connected = true ∧ after.writable = ups.writable) ∧ after.Chunked ∧ after.pending = [] ∧
      WithinLimits 32 512 after.pcCtx ∧ after.pcCtx.wordbuf = [] := by
  have isText := line.isText
  have free : 10 ∉ text := fun member => isText_ne_newline (isText 10 member) rfl
  obtain ⟨readbuf, incoming, read, left, still⟩ := readline_line connected chunked free fits (pending : ups.pending = text ++ 10 :: [])
  have words_ : (pconfLine ups.pcCtx text).arglist = words := by
    rw [pconfLine_fresh parser.1 parser.2, pconfLine_words 32 512 line, addArgs_fits (by simpa using few) short]
    rfl
  refine ⟨(ups.reading readbuf incoming).parse text, ?_, words_, ⟨connected, rfl⟩, still, left, ?_, ?_⟩
  · rw [Upsconn.receive, read]
    dsimp only
    rw [takeWhile_text (isText_noNul isText), Upsconn.accept, noError]
  · exact within_pconfLine parser.1 text
  · exact pconfLine_wordbuf parser.2 text

theorem getVar_words (bufsize : Nat) (connected : ups.connected = true ∧ ups.writable = true) (chunked : ups.Chunked)
    (parser : WithinLimits 32 512 ups.pcCtx ∧ ups.pcCtx.wordbuf = []) (pending : ups.pending = text ++ [10]) (asks : query ≠ [])
    (line : LineOf text words) (few : words.length ≤ 32) (short : ∀ word ∈ words, word.length ≤ 512)
    (fits : text.length ≤ 510) (noError : Upsconn.errcheck text = none) (echoes : Echoes query words) {value : CString}
    (behind : words[query.length]? = some value) :
    (ups.getVar query bufsize).2.result.join = some (snprintf bufsize value) ∧
      ((ups.getVar query bufsize).1.connected = true ∧ (ups.getVar query bufsize).1.writable = true) ∧
      (ups.getVar query bufsize).1.Chunked ∧ (ups.getVar query bufsize).1.pending = [] ∧
      WithinLimits 32 512 (ups.getVar query bufsize).1.pcCtx ∧ (ups.getVar query bufsize).1.pcCtx.wordbuf = [] := by
  have asks : (ClientCall.getVar query bufsize).Asks := asks
  obtain ⟨sent, -, asked⟩ := request_sent connected.1 connected.2 asks
  obtain ⟨after, received, same, open_, still, left, parser'⟩ :=
    @receive_words { ups with sent } words text connected.1 chunked parser pending line few short fits noError
  have received' : ups.ask "GET" query = (after, true) := asked.trans received
  have current := ask_slots received'
  have inside : query.length < words.length := (List.getElem?_eq_some_iff.mp behind).1
  have slot : after.slots[query.length]? = some value := by
    obtain ⟨rest, slots⟩ := current
    rw [<- slots, same, List.getElem?_append_left inside]
    exact behind
  obtain ⟨error, state⟩ := perform_reading ups (ClientCall.getVar query bufsize)
  have after_ : (ups.getVar query bufsize).1 = { after with upserror := error } := by
    have replied : (ClientCall.getVar query bufsize).reply ups = (after, true) := received'
    rw [replied] at state
    exact state
  obtain ⟨-, ⟨-, -, -, value_⟩ | ⟨other, -, -⟩⟩ := @getVar_performed ups after query bufsize received'
  · rw [value_, slot, after_]
    exact ⟨rfl, ⟨open_.1, open_.2.trans connected.2⟩, still, left, parser'⟩
  · exact absurd ⟨by rw [Upsconn.numargs, same]; omega, same ▸ echoes⟩ other

end Reply

section Refusal

variable {ups : Upsconn} {query : List CString} {text : CString}

theorem getVar_error (bufsize : Nat) (connected : ups.connected = true ∧ ups.writable = true) (chunked : ups.Chunked)
    (pending : ups.pending = text ++ [10]) (asks : query ≠ []) (oneLine : ∀ b ∈ text, isText b = true)
    (fits : text.length ≤ 510) {error : UpscliErr} (isError : Upsconn.errcheck text = some error) :
    (ups.getVar query bufsize).2.result.join = none ∧
      ((ups.getVar query bufsize).1.connected = true ∧ (ups.getVar query bufsize).1.writable = true) ∧
      (ups.getVar query bufsize).1.Chunked ∧ (ups.getVar query bufsize).1.pending = [] ∧
      (ups.getVar query bufsize).1.pcCtx = ups.pcCtx := by
  have asks : (ClientCall.getVar query bufsize).Asks := asks
  obtain ⟨sent, -, asked⟩ := request_sent connected.1 connected.2 asks
  have free : 10 ∉ text := fun member => isText_ne_newline (oneLine 10 member) rfl
  obtain ⟨readbuf, incoming, read, left, still⟩ :=
    @readline_line { ups with sent } [] text connected.1 chunked free fits (pending : ups.pending = text ++ 10 :: [])
  have received : ups.ask "GET" query = ((Upsconn.reading { ups with sent } readbuf incoming).fails error, false) := by
    refine asked.trans ?_
    rw [Upsconn.receive, read]
    dsimp only
    rw [takeWhile_text (isText_noNul oneLine), Upsconn.accept, isError]
  have refused : ups.getVar query bufsize = ((Upsconn.reading { ups with sent } readbuf incoming).fails error, ⟨[], some none⟩) := by
    simp [Upsconn.getVar, Upsconn.upscliGet, received]
  rw [refused]
  exact ⟨rfl, connected, still, left, rfl⟩

end Refusal

section Exchange

variable {w : Upsd} {id : Nat} {client : Client} {ups : Upsconn} {query words : List CString} {text : CString} {reply : Reply}

-- upsd has read a request, written `reply` and nothing else, and is ready for the next one.
structure RepliedTo (w after : Upsd) (id : Nat) (reply : Reply) : Prop where
  answers : w.answers after id = [reply]
  client : ∃ client, after.findClient id = some client ∧
    AtLineStart client.ctx ∧ client.ctx.argLimit = 32 ∧ client.ctx.wordlenLimit = 512
  writes : after.writes = w.writes.tail
  others : after.firstups = w.firstups ∧ after.trackingList = w.trackingList

theorem serves_request (now : Int) (linked : Linked w id client ups) (written : w.nextWrite = true) (askable : ∀ word ∈ query, Askable word)
    (room : query.length < 32) (request : (cmdText (cstr "GET") query).length ≤ 510)
    (serves : netGet (w.updateClient id (Client.hear now)) (client.hear now) query =
      (w.updateClient id (Client.hear now)).reply id reply) :
    RepliedTo w (clientReadline now w id (some (buildCmd upscliNetbufLen (cstr "GET") query))) id reply := by
  have isLine := @isLine_buildCmd (cstr "GET") (by decide) query askable room request
  have read := clientReadline_line now linked.found linked.line isLine
  rw [serveLine_get now linked.found, serves] at read
  have writes : (w.updateClient id (Client.hear now)).nextWrite = true := written
  have answer := @answers_one w id _ (show (w.updateClient id (Client.hear now)).replies = w.replies from rfl) writes reply
    ⟨.endofline, cstr "GET" :: query, [], 32, 512⟩
  have sent : (w.updateClient id (Client.hear now)).reply id reply =
      { w.updateClient id (Client.hear now) with writes := w.writes.tail, replies := w.replies ++ [(id, reply, true)] } := by
    rw [Upsd.reply, sendback, writes, if_pos rfl]
    rfl
  rw [read]
  refine ⟨answer, ?_, ?_, ?_⟩
  · refine ⟨{ client.hear now with ctx := ⟨.endofline, cstr "GET" :: query, [], 32, 512⟩ }, ?_, ⟨rfl, .inl rfl⟩, rfl, rfl⟩
    rw [sent]
    refine (@findClient_updateClient _ id (fun client => { client with ctx := ⟨.endofline, cstr "GET" :: query, [], 32, 512⟩ })
      fun _ => rfl).trans ?_
    change Option.map _ ((w.updateClient id (Client.hear now)).findClient id) = _
    rw [findClient_updateClient w id (show ∀ client, (Client.hear now client).id = client.id from fun _ => rfl), linked.found]
    rfl
  · rw [sent]
    rfl
  · rw [sent]
    exact ⟨rfl, rfl⟩

theorem gets_pending (cutting : Cutting) (linked : Linked w id client ups) (bytes : CString) :
    (ups.gets cutting bytes).pending = bytes ∧ (ups.gets cutting bytes).Chunked := by
  have quiet := linked.quiet
  simp only [Upsconn.pending, List.append_eq_nil_iff] at quiet
  refine ⟨by simp [Upsconn.gets, Upsconn.pending, quiet.1, quiet.2, cutting.whole], fun chunk member => ?_⟩
  rcases List.mem_append.mp member with old | new
  · exact linked.chunked chunk old
  · exact cutting.nonempty _ chunk new

theorem ans_line (format : reply.format = text ++ [10]) (fits : text.length ≤ 510) : [reply].flatMap Reply.ans = text ++ [10] := by
  rw [List.flatMap_singleton, ans_fits (by rw [format, List.length_append, List.length_singleton]; omega), format]

theorem exchange_reply (cutting : Cutting) (now : Int) (bufsize : Nat) (linked : Linked w id client ups) (asks : query ≠ [])
    (served : RepliedTo w (clientReadline now w id (some (buildCmd upscliNetbufLen (cstr "GET") query))) id reply)
    (format : reply.format = text ++ [10]) (line : LineOf text words) (few : words.length ≤ 32)
    (short : ∀ word ∈ words, word.length ≤ 512) (fits : text.length ≤ 510) (noError : Upsconn.errcheck text = none)
    (echoes : Echoes query words) {value : CString} (behind : words[query.length]? = some value) :
    (exchange cutting now id w ups query bufsize).value = some (snprintf bufsize value) ∧
      ∃ client', Linked (exchange cutting now id w ups query bufsize).upsd id client'
        (exchange cutting now id w ups query bufsize).ups := by
  obtain ⟨pending, chunked⟩ := gets_pending cutting linked (text ++ [10])
  obtain ⟨value_, connected, chunked', quiet, parser⟩ :=
    @getVar_words (ups.gets cutting (text ++ [10])) query words text bufsize linked.connected chunked linked.parser pending asks line few short fits noError echoes _ behind
  obtain ⟨client', found, line'⟩ := served.client
  unfold exchange
  dsimp only
  rw [served.answers, ans_line format fits]
  exact ⟨value_, client', found, line', connected, chunked', quiet, parser⟩

theorem exchange_error (cutting : Cutting) (now : Int) (bufsize : Nat) (linked : Linked w id client ups) (asks : query ≠ [])
    (served : RepliedTo w (clientReadline now w id (some (buildCmd upscliNetbufLen (cstr "GET") query))) id reply)
    (format : reply.format = text ++ [10]) (oneLine : ∀ b ∈ text, isText b = true) (fits : text.length ≤ 510)
    {error : UpscliErr} (isError : Upsconn.errcheck text = some error) :
    (exchange cutting now id w ups query bufsize).value = none ∧
      ∃ client', Linked (exchange cutting now id w ups query bufsize).upsd id client'
        (exchange cutting now id w ups query bufsize).ups := by
  obtain ⟨pending, chunked⟩ := gets_pending cutting linked (text ++ [10])
  obtain ⟨value_, connected, chunked', quiet, parser⟩ :=
    @getVar_error (ups.gets cutting (text ++ [10])) query text bufsize linked.connected chunked pending asks oneLine fits _ isError
  obtain ⟨client', found, line'⟩ := served.client
  unfold exchange
  dsimp only
  rw [served.answers, ans_line format fits]
  exact ⟨value_, client', found, line', connected, chunked', quiet, by rw [parser]; exact linked.parser⟩

end Exchange

end Nut
