import Mathlib.Data.List.DropRight
import Nut.Common.ParseConfRaw
import Nut.Drivers.FailoverTime
import Nut.Server.Relay

set_option autoImplicit false

namespace Nut

def upsdrvqueryNutUuidV4 (randoms : List UInt8) : CString :=
  nutUuidV4 randoms

def upsdrvqueryRequest (query id : CString) : CString :=
  let qbuf := (snprintf largebuf query).rdropWhile (· = 10)
  qbuf ++ snprintf (largebuf - qbuf.length) (cstr " TRACKING " ++ id ++ cstr "\n")

namespace Request

def upstream : Request -> Request
  | set var newval => set (upstreamName var) newval
  | instcmd cmdname value => instcmd (upstreamName cmdname) value

def verbatim : Request -> CString
  | set var newval => cstr "SET " ++ var ++ cstr " \"" ++ newval ++ cstr "\""
  | instcmd cmdname (some value) => cstr "INSTCMD " ++ cmdname ++ cstr " " ++ value
  | instcmd cmdname none => cstr "INSTCMD " ++ cmdname

def Verbatim (request : Request) : Prop :=
  request.verbatim.length < smallbuf ∧
    match request with
    | set var newval => Word var ∧ Plain newval
    | instcmd cmdname value => Word cmdname ∧ ∀ extra ∈ value, Word extra

end Request

namespace Failover

def relay (w : Failover) (request : Request) (now : Int) : Relayed :=
  match request with
  | .set var newval => w.setvar var newval
  | .instcmd cmdname value => (w.instcmd cmdname value now).2

-- It is for the primary, which has what the request names.
def PassesOn (w : Failover) : Request -> Prop
  | .set var _ => ∃ ups ∈ w.primary, (ups.getVar var).isSome
  | .instcmd cmdname _ =>
    (∀ ups ∈ w.upsList, cmdname ≠ ups.socketname ++ cstr ".force.ignore" ∧
      cmdname ≠ ups.socketname ++ cstr ".force.primary") ∧
    ∃ ups ∈ w.primary, ups.hasCmd cmdname = true

end Failover

section Verbatim

variable {request : Request} {id : CString}

theorem setQuery_eq (varname val : CString) :
    setQuery varname val = snprintf smallbuf ((Request.set varname val).upstream.verbatim ++ [10]) := by
  simp only [setQuery, Request.upstream, Request.verbatim, List.append_assoc]
  rfl

theorem instcmdQuery_eq (cmdname : CString) (extra : Option CString) :
    instcmdQuery cmdname extra = snprintf smallbuf ((Request.instcmd cmdname extra).upstream.verbatim ++ [10]) := by
  cases extra with
  | none =>
    simp only [instcmdQuery, Request.upstream, Request.verbatim, List.append_assoc]
    rfl
  | some extra =>
    simp only [instcmdQuery, Request.upstream, Request.verbatim, List.append_assoc]
    rfl

theorem relay_query (w : Failover) (request : Request) (now : Int) (query : CString) :
    w.relay request now = .query query ↔
      w.PassesOn request ∧ query = snprintf smallbuf (request.upstream.verbatim ++ [10]) := by
  cases request with
  | set var newval =>
    rw [<- setQuery_eq]
    simp only [Failover.relay, Failover.setvar, Failover.PassesOn]
    cases primary : w.primary with
    | none => simp
    | some ups => by_cases known : (ups.getVar var).isSome = true <;> simp [known, @eq_comm _ query]
  | instcmd cmdname value =>
    rw [<- instcmdQuery_eq]
    simp only [Failover.relay, Failover.instcmd, Failover.PassesOn]
    split
    next i found =>
      obtain ⟨bound, mine, _⟩ := List.findIdx?_eq_some_iff_getElem.mp found
      simp only [Bool.or_eq_true, decide_eq_true_iff] at mine
      constructor
      · intro handled
        split at handled <;> cases handled
      · intro both
        have free := both.1.1 _ (List.getElem_mem bound)
        exact absurd mine (by simp [free])
    next others =>
      have free := List.findIdx?_eq_none_iff.mp others
      simp only [Bool.or_eq_false_iff, decide_eq_false_iff_not] at free
      cases primary : w.primary with
      | none => simp
      | some ups =>
        have apart : (∀ ups ∈ w.upsList, cmdname ≠ ups.socketname ++ cstr ".force.ignore" ∧
            cmdname ≠ ups.socketname ++ cstr ".force.primary") ↔ True := iff_true_intro free
        rw [apart]
        by_cases known : ups.hasCmd cmdname = true <;> simp [known, @eq_comm _ query]

theorem upsdrvqueryRequest_eq (uuid : Uuid id) (text : CString) :
    ∃ buf, upsdrvqueryRequest (snprintf smallbuf (text ++ [10])) id = buf ++ 32 :: (cstr "TRACKING " ++ id) ++ [10] ∧
      buf <+: text ∧ buf.length < smallbuf ∧ (text.length < smallbuf -> (∀ b ∈ text, b ≠ 10) -> buf = text) := by
  have length := uuid.length
  have cut := snprintf_length smallbuf (text ++ [10])
  have whole : snprintf largebuf (snprintf smallbuf (text ++ [10])) = snprintf smallbuf (text ++ [10]) :=
    snprintf_fits (by simp only [smallbuf, largebuf] at *; omega)
  have stripped := List.rdropWhile_prefix (· = 10) (snprintf smallbuf (text ++ [10]))
  have shorter := stripped.length_le
  have suffix : snprintf (largebuf - ((snprintf smallbuf (text ++ [10])).rdropWhile (· = 10)).length)
      (cstr " TRACKING " ++ id ++ cstr "\n") = cstr " TRACKING " ++ id ++ cstr "\n" := by
    apply snprintf_fits
    simp only [List.length_append, show (cstr " TRACKING ").length = 10 from rfl, show (cstr "\n").length = 1 from rfl]
    simp only [smallbuf, largebuf] at *
    omega
  refine ⟨(snprintf smallbuf (text ++ [10])).rdropWhile (· = 10), ?_, ?_, ?_, fun fits oneLine => ?_⟩
  · simp only [upsdrvqueryRequest, whole, suffix]
    exact (List.append_assoc _ (32 :: (cstr "TRACKING " ++ id)) [10]).symm
  · rcases List.prefix_concat_iff.mp (stripped.trans (List.take_prefix _ _)) with all | begins
    · have newline : (snprintf smallbuf (text ++ [10])).rdropWhile (· = 10) ≠ [] := by simp [all]
      have last := List.rdropWhile_last_not (fun b : UInt8 => decide (b = 10)) _ newline
      simp [all] at last
    · exact begins
  · simp only [smallbuf] at *
    omega
  · have kept : text.rdropWhile (· = 10) = text := by
      rw [List.rdropWhile_eq_self_iff]
      intro nonempty newline
      exact oneLine _ (List.getLast_mem nonempty) (by simpa using newline)
    rcases Nat.lt_or_ge (text.length + 1) smallbuf with room | full
    · rw [snprintf_fits (by simpa using room), List.rdropWhile_concat_pos _ _ _ (by simp)]
      exact kept
    · have noNewline : snprintf smallbuf (text ++ [10]) = text := by
        rw [snprintf, show smallbuf - 1 = text.length by omega]
        exact List.take_left
      rw [noNewline]
      exact kept

theorem lineOf_verbatim (verbatim : request.Verbatim) (id : CString) (uuid : Uuid id) :
    LineOf (request.verbatim ++ Request.trackingText (some id)) (request.words (some id)) := by
  have tracked : ∀ tracked ∈ some id, Uuid tracked := by simpa using uuid
  have setWord : BareWord (cstr "SET") := by decide
  have instcmdWord : BareWord (cstr "INSTCMD") := by decide
  obtain ⟨_, shape⟩ := verbatim
  cases request with
  | set var newval =>
    have value : Token (34 :: newval ++ [34]) newval := .quoted (quotedAs_plain shape.2)
    have line := lineOf_tracking tracked (.more setWord.token (.more shape.1.token (.last value)))
    simpa [Request.verbatim, Request.words, cstr] using line
  | instcmd cmdname value =>
    cases value with
    | none =>
      have line := lineOf_tracking tracked (.more instcmdWord.token (.last shape.1.token))
      simpa [Request.verbatim, Request.words, cstr] using line
    | some extra =>
      have line := lineOf_tracking tracked
        (.more instcmdWord.token (.more shape.1.token (.last (shape.2 extra rfl).token)))
      simpa [Request.verbatim, Request.words, cstr] using line

theorem reads_next (uuid : Uuid id) {args words : List CString} {word buf : CString}
    (isText : ∀ b ∈ buf ++ Request.trackingText (some id), isText b = true ∧ b ≠ 92) (few : args.length ≤ 2)
    (short : buf.length < smallbuf) (more : 2 ≤ words.length)
    (reads : Reads args (buf ++ Request.trackingText (some id)) (word :: words)) :
    ∃ rest, FirstWord buf word rest ∧ (∀ b ∈ rest ++ Request.trackingText (some id), Nut.isText b = true ∧ b ≠ 92) ∧
      rest.length < smallbuf ∧ Reads (args ++ [word]) (rest ++ Request.trackingText (some id)) words := by
  have keyword : BareWord (cstr "TRACKING") := by decide
  have tail : LineOf (cstr "TRACKING " ++ id) [cstr "TRACKING", id] := .more keyword.token (.last uuid.bareWord.token)
  have length := uuid.length
  have behind : Reads args (cstr "TRACKING " ++ id) [cstr "TRACKING", id] := by
    refine reads_line tail (by simp; omega) fun word member => ?_
    simp only [List.mem_cons, List.not_mem_nil, or_false] at member
    rcases member with rfl | rfl
    · decide
    · omega
  have unquoted : 34 ∉ cstr "TRACKING " ++ id := by
    intro member
    rcases List.mem_append.mp member with first | second
    · exact absurd first (by decide)
    · exact (uuid.bare 34 second).2 rfl
  rcases reads_first isText unquoted (by omega) (Nat.le_of_lt short) reads with blank | found
  · have same := congrArg List.length (reads_same blank behind)
    simp only [List.length_cons, List.length_nil] at same
    omega
  · obtain ⟨rest, first, reads⟩ := found
    have suffix := first.rest_suffix
    refine ⟨rest, first, fun b member => ?_, Nat.lt_of_le_of_lt suffix.length_le short, reads⟩
    rcases List.mem_append.mp member with inside | behind
    · exact isText b (List.mem_append_left _ (suffix.subset inside))
    · exact isText b (List.mem_append_right _ behind)

theorem reads_name (uuid : Uuid id) {keyword name behind buf : CString} {words : List CString} (bare : BareWord keyword)
    (isText : ∀ b ∈ buf ++ Request.trackingText (some id), isText b = true ∧ b ≠ 92) (short : buf.length < smallbuf)
    (begins : buf <+: keyword ++ 32 :: (name ++ behind)) (more : 2 ≤ words.length)
    (reads : Reads [] (buf ++ Request.trackingText (some id)) (keyword :: name :: words)) :
    ∃ rest, (∀ b ∈ rest ++ Request.trackingText (some id), Nut.isText b = true ∧ b ≠ 92) ∧ rest.length < smallbuf ∧
      Reads [keyword, name] (rest ++ Request.trackingText (some id)) words ∧
      (Word name ∧ buf = keyword ++ 32 :: (name ++ rest) ∧ rest <+: behind ∨
        ∃ spaces, List.replicate spaces 32 ++ 34 :: (name ++ 34 :: rest) <+: behind) := by
  obtain ⟨afterKeyword, first, isText, short, reads⟩ :=
    reads_next uuid isText (by simp) short (by simpa using Nat.le_succ_of_le more) reads
  rcases firstWord_prefix first begins with ⟨_, wholeKeyword, spaced⟩ | ⟨blank, _⟩
  · obtain ⟨rest, second, isTextRest, shortRest, readsRest⟩ := reads_next uuid isText (by simp) short more reads
    obtain ⟨named, begins, spaced, second⟩ := firstWord_behind_space second spaced
    refine ⟨rest, isTextRest, shortRest, readsRest, ?_⟩
    rcases firstWord_prefix second begins with ⟨word, wholeName, before⟩ | ⟨_, quoted⟩
    · exact Or.inl ⟨word, by rw [wholeKeyword, spaced, wholeName], before⟩
    · exact Or.inr quoted
  · obtain ⟨b, keyword, rfl⟩ := List.exists_cons_of_ne_nil bare.1
    have space := (isBare_iff.mp (bare.2.2 b List.mem_cons_self)).2.1
    exact absurd (blank b List.mem_cons_self) space

theorem verbatim_of_reads (uuid : Uuid id) {buf : CString}
    (isText : ∀ b ∈ buf ++ Request.trackingText (some id), isText b = true ∧ b ≠ 92) (begins : buf <+: request.verbatim)
    (short : buf.length < smallbuf) (reads : Reads [] (buf ++ Request.trackingText (some id)) (request.words (some id))) :
    buf = request.verbatim ∧ request.Verbatim := by
  suffices whole : buf = request.verbatim ∧ (buf = request.verbatim -> _) from
    ⟨whole.1, whole.1 ▸ short, whole.2 whole.1⟩
  cases request with
  | set var newval =>
    rw [show (Request.set var newval).verbatim = cstr "SET" ++ 32 :: (var ++ 32 :: 34 :: (newval ++ [34])) by
      simp [Request.verbatim, cstr]] at *
    obtain ⟨rest, isText, short, reads, named⟩ :=
      reads_name uuid (by decide) isText short begins (by simp [Request.trackingWords]) reads
    obtain ⟨_, value, _⟩ := reads_next uuid isText (by simp) short (by simp [Request.trackingWords]) reads
    rcases named with ⟨word, whole, spaced⟩ | ⟨spaces, quoted⟩
    · obtain ⟨inner, begins, spaced, value⟩ := firstWord_behind_space value spaced
      obtain ⟨unquoted, wholeValue⟩ := firstWord_quoted value begins
      rw [spaced, wholeValue] at isText
      refine ⟨by rw [whole, spaced, wholeValue], fun _ => ⟨word, fun b member => ?_⟩⟩
      have plain := isText b (by simp [member])
      exact ⟨plain.1, fun quote => unquoted (quote ▸ member), plain.2⟩
    · exact absurd quoted (firstWord_not_within value)
  | instcmd cmdname value =>
    cases value with
    | none =>
      rw [show (Request.instcmd cmdname none).verbatim = cstr "INSTCMD" ++ 32 :: (cmdname ++ []) by
        simp [Request.verbatim, cstr]] at *
      obtain ⟨rest, _, _, _, ⟨word, whole, nothing⟩ | ⟨spaces, quoted⟩⟩ :=
        reads_name uuid (by decide) isText short begins (by simp [Request.trackingWords]) reads
      · rw [List.prefix_nil] at nothing
        subst nothing
        exact ⟨whole, fun _ => ⟨word, by simp⟩⟩
      · simp at quoted
    | some extra =>
      rw [show (Request.instcmd cmdname (some extra)).verbatim = cstr "INSTCMD" ++ 32 :: (cmdname ++ 32 :: extra) by
        simp [Request.verbatim, cstr]] at *
      obtain ⟨rest, isText, short, reads, named⟩ :=
        reads_name uuid (by decide) isText short begins (by simp [Request.trackingWords]) reads
      obtain ⟨_, value, _⟩ := reads_next uuid isText (by simp) short (by simp [Request.trackingWords]) reads
      rcases named with ⟨word, whole, spaced⟩ | ⟨spaces, quoted⟩
      · obtain ⟨inner, begins, spaced, value⟩ := firstWord_behind_space value spaced
        rcases firstWord_prefix value (show inner <+: extra ++ [] by simpa using begins) with ⟨wordExtra, wholeExtra, nothing⟩ | ⟨_, spaces, quoted⟩
        · rw [List.prefix_nil] at nothing
          rw [nothing, List.append_nil] at wholeExtra
          exact ⟨by rw [whole, spaced, wholeExtra], fun _ => ⟨word, by simpa using wordExtra⟩⟩
        · simp at quoted
      · have shorter := quoted.length_le
        have longer := value.word_length
        simp only [List.length_append, List.length_cons, List.length_replicate] at shorter
        omega

theorem verbatim_bytes (request : Request) (id : CString)
    (received : ∀ word ∈ request.words (some id), Receivable word) : (∀ b ∈ request.verbatim, isText b = true) ∧
      request.verbatim.count 92 ≤ (request.words (some id)).flatten.count 92 := by
  have constant {text : CString} (all : text.all isText = true) : ∀ b ∈ text, isText b = true := List.all_eq_true.mp all
  cases request with
  | set var newval =>
    have counts : (cstr "SET ").count 92 = 0 ∧ (cstr " \"").count 92 = 0 ∧ (cstr "\"").count 92 = 0 := by decide
    refine ⟨fun b member => ?_, ?_⟩
    · simp only [Request.verbatim, List.mem_append] at member
      rcases member with (((inside | inside) | inside) | inside) | inside
      · exact constant (by decide) b inside
      · exact (received var (by simp [Request.words])).2 b inside
      · exact constant (by decide) b inside
      · exact (received newval (by simp [Request.words])).2 b inside
      · exact constant (by decide) b inside
    · simp only [Request.verbatim, Request.words, List.flatten_cons, List.count_append, counts]
      omega
  | instcmd cmdname value =>
    have counts : (cstr "INSTCMD ").count 92 = 0 ∧ (cstr " ").count 92 = 0 := by decide
    have name := (received cmdname (by simp [Request.words])).2
    cases value with
    | none =>
      refine ⟨fun b member => ?_, ?_⟩
      · rcases List.mem_append.mp member with inside | inside
        · exact constant (by decide) b inside
        · exact name b inside
      · simp only [Request.verbatim, Request.words, List.flatten_cons, List.count_append, counts]
        omega
    | some extra =>
      refine ⟨fun b member => ?_, ?_⟩
      · simp only [Request.verbatim, List.mem_append] at member
        rcases member with ((inside | inside) | inside) | inside
        · exact constant (by decide) b inside
        · exact name b inside
        · exact constant (by decide) b inside
        · exact (received extra (by simp [Request.words])).2 b inside
      · simp only [Request.verbatim, Request.words, List.flatten_cons, List.count_append, counts, Option.toList,
          List.cons_append]
        omega

theorem arrives_verbatim (uuid : Uuid id) (request : Request) :
    Arrives (upsdrvqueryRequest (snprintf smallbuf (request.verbatim ++ [10])) id) (request.words (some id)) ↔
      request.Verbatim := by
  obtain ⟨buf, written, begins, short, whole⟩ := upsdrvqueryRequest_eq uuid request.verbatim
  rw [written, show buf ++ 32 :: (cstr "TRACKING " ++ id) = buf ++ Request.trackingText (some id) from rfl]
  constructor
  · intro arrives
    have received := @received_readLines pconfInit ⟨rfl, receivable_nil, by simp [pconfInit, pconfInitWith]⟩
      (buf ++ Request.trackingText (some id) ++ [10])
    rw [arrives.2 pconfInit (atLineStart_init _ _) rfl rfl] at received
    obtain ⟨bytes, escapes⟩ := verbatim_bytes request id (by simpa using received)
    have tracked := @trackingText_isText (some id) (by simpa using uuid)
    have isText : ∀ b ∈ buf ++ Request.trackingText (some id), isText b = true := by
      intro b member
      rcases List.mem_append.mp member with inside | behind
      · exact bytes b (begins.subset inside)
      · exact tracked b behind
    obtain ⟨done, words⟩ := (arrives_iff (fun b member => isText_ne_newline (isText b member)) _).mp arrives
    have free : (buf ++ Request.trackingText (some id)).count 92 = 0 := by
      have run := escapes_run (waiting []) (buf ++ Request.trackingText (some id) ++ [10])
      have tracking : (Request.trackingText (some id)).count 92 = 0 := by
        refine List.count_eq_zero.mpr fun member => ?_
        rcases List.mem_append.mp member with inside | behind
        · exact absurd inside (by decide)
        · exact (isBare_iff.mp (uuid.bare 92 behind).1).2.2.2.2 rfl
      have fewer := begins.sublist.count_le 92
      have start : (gathered (waiting [])).count 92 = 0 ∧ escaping (waiting []).state = 0 := by decide
      have newline : List.count 92 [(10 : UInt8)] = 0 := by decide
      rw [start.1, start.2] at run
      simp only [gathered, words, List.count_append, newline, tracking] at run
      rw [List.count_append, tracking]
      omega
    have plain : ∀ b ∈ buf ++ Request.trackingText (some id), Nut.isText b = true ∧ b ≠ 92 := fun b member =>
      ⟨isText b member, fun escape => List.count_eq_zero.mp free (escape ▸ member)⟩
    exact (verbatim_of_reads uuid plain begins short ⟨done, words⟩).2
  · intro verbatim
    have line := lineOf_verbatim verbatim id uuid
    have oneLine : ∀ b ∈ request.verbatim, b ≠ 10 := fun b member =>
      isText_ne_newline (line.isText b (List.mem_append_left _ member))
    rw [whole verbatim.1 oneLine]
    have length := uuid.length
    have few : (request.words (some id)).length ≤ 5 := by
      rcases request with ⟨var, newval⟩ | ⟨cmdname, _ | extra⟩ <;> simp [Request.words, Request.trackingWords]
    refine arrives_line line (by omega) ?_
    have fits := verbatim.1
    have keywords : (cstr "SET").length ≤ 512 ∧ (cstr "INSTCMD").length ≤ 512 ∧ (cstr "TRACKING").length ≤ 512 := by decide
    rcases request with ⟨var, newval⟩ | ⟨cmdname, _ | extra⟩ <;>
      simp only [Request.verbatim, List.length_append, smallbuf] at fits <;>
      simp [Request.words, Request.trackingWords, keywords] <;> omega

end Verbatim

-- What the failover driver writes for a request arrives at the upstream driver as the words of the request, if it writes
-- anything, exactly for the requests that need no encoding.
theorem requests_verbatim (w : Failover) (request : Request) (now : Int) (randoms : List UInt8) :
    (∀ query, w.relay request now = .query query ->
      let id := upsdrvqueryNutUuidV4 randoms
      Arrives (upsdrvqueryRequest query id) (request.upstream.words (some id))) ↔
      (w.PassesOn request -> request.upstream.Verbatim) := by
  have arrives := arrives_verbatim (uuid_nutUuidV4 randoms) request.upstream
  simp only [relay_query]
  constructor
  · intro all passesOn
    exact arrives.mp (all _ ⟨passesOn, rfl⟩)
  · rintro verbatim query ⟨passesOn, rfl⟩
    exact arrives.mpr (verbatim passesOn)

namespace Failover

def samplePrimary : Failover :=
  sampleStart.step (.update (sampleRound 1001
    (.bytes (cstr "SETINFO ups.status \"OL\"\nSETINFO ups.id \"\"\nDATAOK\nDUMPDONE\n"))))

end Failover

open Failover in
-- A quote in a value ends it.
theorem requests_not_verbatim : ¬ ∀ (w : Failover) (var newval query : CString) (now : Int) (randoms : List UInt8),
        (∀ b ∈ newval, 32 ≤ b.toNat ∧ b.toNat ≤ 126) -> w.relay (.set var newval) now = .query query ->
          let id := upsdrvqueryNutUuidV4 randoms
          Arrives (upsdrvqueryRequest query id) ((Request.set var newval).upstream.words (some id)) := by
  intro all
  have arrives := all samplePrimary (cstr "ups.id") (cstr "a\"b") (cstr "SET ups.id \"a\"b\"\n") 1002 []
    (by decide +kernel) (by decide +kernel)
  have read := arrives.2 pconfInit (atLineStart_init _ _) rfl rfl
  revert read
  decide +kernel

end Nut
