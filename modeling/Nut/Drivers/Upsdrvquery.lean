import Mathlib.Data.Nat.Find
import Nut.Drivers.FailoverRelay

set_option autoImplicit false

namespace Nut

-- What one `read` from the socket of a driver gives.
structure DriverRead where
  bytes : CString
  some_ : bytes ≠ []
  fits : bytes.length ≤ largebuf

def connBuf (sockfn : CString) (read : DriverRead) : List UInt8 :=
  read.bytes ++ List.replicate (largebuf - read.bytes.length) 0 ++ sockfn ++ [0]

def uuid4Len : Nat := 37

-- `sscanf` with " %d": the number, and how many bytes are looked at.
def sscanfInt (text : CString) : Option Int32 × Nat :=
  let blanks := (text.takeWhile fun b => isspace (charToInt b)).length
  let sign := if (text.drop blanks).head? = some 45 ∨ (text.drop blanks).head? = some 43 then 1 else 0
  let digits := ((text.drop blanks).drop sign).takeWhile isdigit
  (if digits = [] then none else some (atoi text), blanks + sign + digits.length + 1)

-- What becomes of one read; without a status it was an error. `upto` says how far the memory was looked at.
inductive QueryScan where
  | nothing (upto : Nat)
  | reply (status : Option Int32) (place upto : Nat)

def ownReply (id : CString) (buf : List UInt8) : Bool :=
  (cstr "TRACKING ").isPrefixOf buf && (id.take (uuid4Len - 1)).isPrefixOf (buf.drop 9)

-- The walk from one line to the next is that of `strchr`, which stops at a NUL.
def scanLines (id : CString) : Bool -> Nat -> List UInt8 -> QueryScan
  | _, i, [] => .nothing i
  | lineStart, i, b :: rest =>
    if b = 0 then .nothing (i + 1)
    else if lineStart && ownReply id (b :: rest) then
      let offset := 9 + uuid4Len
      let scanned := sscanfInt ((b :: rest).drop offset)
      .reply scanned.1 i (i + offset + scanned.2)
    else scanLines id (b = 10) (i + 1) rest

-- What `upsdrvquery_request` returns (without a status, -1), where in the stream the text was for which it did, what of it
-- had been read, and how far each buffer was looked at.
structure QueryAnswer where
  status : Option Int32
  taken : Option (Nat × CString)
  scanned : List (DriverRead × Nat)

-- The loop that waits for the reply, behind `sent` bytes. When nothing is left to read, the driver has closed its end.
def awaitReply (id sockfn : CString) : Nat -> List DriverRead -> QueryAnswer
  | _, [] => { status := none, taken := none, scanned := [] }
  | sent, read :: rest =>
    match scanLines id true 0 (connBuf sockfn read) with
    | .nothing upto =>
      let later := awaitReply id sockfn (sent + read.bytes.length) rest
      { later with scanned := (read, upto) :: later.scanned }
    | .reply status place upto =>
      { status, taken := some (sent + place, read.bytes.drop place), scanned := [(read, upto)] }

def ownText (id : CString) : CString :=
  cstr "TRACKING " ++ id

def decimalValue (text : CString) : Option Int :=
  let digits := if text.head? = some 45 ∨ text.head? = some 43 then text.tail else text
  if digits ≠ [] ∧ digits.all isdigit = true then
    some (if text.head? = some 45 then -(digitsValue digits : Int) else digitsValue digits)
  else none

def StatusLine (id line : CString) (status : Int32) : Prop :=
  ∃ text, line = ownText id ++ 32 :: text ∧ decimalValue text = some status.toInt

def LineStart (front : CString) : Prop :=
  ∀ b ∈ front.getLast?, b = 10

def ReplyAt (id stream : CString) (place : Nat) (status : Int32) : Prop :=
  ∃ front line back, stream = front ++ line ++ 10 :: back ∧ front.length = place ∧ LineStart front ∧ StatusLine id line status

def FirstReply (id stream : CString) (place : Nat) (status : Int32) : Prop :=
  ReplyAt id stream place status ∧ ∀ other value, ReplyAt id stream other value -> place ≤ other

def driverStream (reads : List DriverRead) : CString :=
  reads.flatMap DriverRead.bytes

structure FindsReply (id : CString) (reads : List DriverRead) (answer : QueryAnswer) : Prop where
  found : ∀ place status, FirstReply id (driverStream reads) place status ->
    answer.status = some status ∧ answer.taken.map Prod.fst = some place
  missing : (∀ place status, ¬ FirstReply id (driverStream reads) place status) ->
    answer.status = none ∧ answer.taken = none
  whole : ∀ place text, answer.taken = some (place, text) ->
    ∃ line status behind, text = line ++ 10 :: behind ∧ StatusLine id line status
  inside : ∀ read upto, (read, upto) ∈ answer.scanned -> upto ≤ min (read.bytes.length + 1) largebuf

def Unclaimed (id bytes : CString) (place : Nat) : Prop :=
  ∀ front rest, bytes = front ++ rest -> front.length < place -> 0 ∉ front -> LineStart front -> ¬ ownText id <+: rest

def PassedOver (id : CString) (read : DriverRead) : Prop :=
  (read.bytes.length < largebuf ∨ 0 ∈ read.bytes) ∧ Unclaimed id read.bytes read.bytes.length

structure ReadWhole (id : CString) (reads quiet : List DriverRead) (read : DriverRead) (front line behind : CString) : Prop where
  bytes : read.bytes = front ++ line ++ 10 :: behind
  noNul : 0 ∉ front
  start : LineStart front
  unclaimed : Unclaimed id read.bytes front.length
  reply : ∃ status, StatusLine id line status
  first : ∃ status, FirstReply id (driverStream reads) ((driverStream quiet).length + front.length) status

def WellCut (id : CString) (reads : List DriverRead) : Prop :=
  (∀ read ∈ reads, PassedOver id read) ∧ (∀ place status, ¬ ReplyAt id (driverStream reads) place status) ∨
    ∃ quiet read more front line behind, reads = quiet ++ read :: more ∧ (∀ read ∈ quiet, PassedOver id read) ∧
      ReadWhole id reads quiet read front line behind

section Scan

variable {id : CString}

theorem ownText_length (uuid : Uuid id) : (ownText id).length = 9 + 36 := by
  rw [ownText, List.length_append, uuid.length]
  rfl

theorem ownText_plain (uuid : Uuid id) {b : UInt8} (member : b ∈ ownText id) : b ≠ 0 ∧ b ≠ 10 := by
  rcases List.mem_append.mp member with keyword | inside
  · have plain : ∀ b ∈ cstr "TRACKING ", b ≠ 0 ∧ b ≠ 10 := by decide
    exact plain b keyword
  · have bounds := isText_iff.mp (uuid.isText b inside)
    constructor <;> rintro rfl <;> revert bounds <;> decide

theorem ownReply_iff (uuid : Uuid id) (buf : List UInt8) : ownReply id buf = true ↔ ownText id <+: buf := by
  have whole : id.take (uuid4Len - 1) = id := List.take_of_length_le (le_of_eq uuid.length)
  unfold ownReply ownText
  rw [whole, Bool.and_eq_true, List.isPrefixOf_iff_prefix, List.isPrefixOf_iff_prefix]
  constructor
  · rintro ⟨⟨rest, split⟩, inside⟩
    have behind : buf.drop 9 = rest := by
      rw [<- split]
      rfl
    rw [behind] at inside
    rw [<- split]
    exact (List.prefix_append_right_inj _).mpr inside
  · rintro ⟨rest, split⟩
    rw [List.append_assoc] at split
    refine ⟨⟨_, split⟩, ?_⟩
    rw [<- split]
    exact List.prefix_append _ _

theorem lineStart_concat (front : CString) (b : UInt8) : LineStart (front ++ [b]) ↔ b = 10 := by
  simp [LineStart]

theorem scanLines_cases (uuid : Uuid id) {before mem : List UInt8} {lineStart : Bool} (nul : 0 ∈ mem)
    (start : lineStart = true ↔ LineStart before) : ∃ front rest, mem = front ++ rest ∧ 0 ∉ front ∧
      (∀ f r, mem = f ++ r -> f.length < front.length -> LineStart (before ++ f) -> ¬ ownText id <+: r) ∧
      ((∃ behind, rest = 0 :: behind) ∧
          scanLines id lineStart before.length mem = .nothing (before.length + front.length + 1) ∨
        LineStart (before ++ front) ∧ ownText id <+: rest ∧ scanLines id lineStart before.length mem =
            .reply (sscanfInt (rest.drop 46)).1 (before.length + front.length)
              (before.length + front.length + 46 + (sscanfInt (rest.drop 46)).2)) := by
  induction mem generalizing before lineStart with
  | nil => cases nul
  | cons b mem ih =>
    by_cases zero : b = 0
    · subst zero
      refine ⟨[], 0 :: mem, rfl, List.not_mem_nil, fun f r _ short => absurd short (Nat.not_lt_zero _), .inl ⟨⟨mem, rfl⟩, ?_⟩⟩
      rfl
    · cases own : lineStart && ownReply id (b :: mem) with
      | true =>
        obtain ⟨atStart, claims⟩ := Bool.and_eq_true_iff.mp own
        refine ⟨[], b :: mem, rfl, List.not_mem_nil, fun f r _ short => absurd short (Nat.not_lt_zero _), .inr ⟨?_, ?_, ?_⟩⟩
        · rw [List.append_nil]
          exact start.mp atStart
        · exact (ownReply_iff uuid _).mp claims
        · unfold scanLines
          rw [if_neg zero, own]
          rfl
      | false =>
        have later : 0 ∈ mem := (List.mem_cons.mp nul).resolve_left (Ne.symm zero)
        have next : scanLines id lineStart before.length (b :: mem) = scanLines id (b = 10) (before ++ [b]).length mem := by
          rw [scanLines, if_neg zero, own, List.length_append, List.length_singleton]
          rfl
        obtain ⟨front, rest, split, noNul, none_, ends⟩ := @ih (before ++ [b]) (b = 10) later (by rw [lineStart_concat, decide_eq_true_eq])
        have place : (before ++ [b]).length + front.length = before.length + (b :: front).length := by
          rw [List.length_append, List.length_singleton, List.length_cons]
          omega
        refine ⟨b :: front, rest, by rw [split]; rfl, ?_, fun f r whole short begins claims => ?_, ?_⟩
        · exact fun member => (List.mem_cons.mp member).elim (Ne.symm zero) noNul
        · cases f with
          | nil =>
            rw [List.append_nil] at begins
            rw [List.nil_append] at whole
            subst whole
            rw [start.mpr begins, (ownReply_iff uuid _).mpr claims] at own
            cases own
          | cons a f =>
            obtain ⟨rfl, tail⟩ := List.cons.inj whole
            refine none_ f r tail (by simpa using short) ?_ claims
            rwa [List.append_assoc]
        · rw [next]
          rw [List.append_assoc, place] at ends
          exact ends

theorem prefix_text {text front behind : List UInt8} (noNul : 0 ∉ text) (initial : text <+: front ++ 0 :: behind) :
    text <+: front := by
  have upto : front ++ [0] <+: front ++ 0 :: behind := ⟨behind, by rw [List.append_assoc]; rfl⟩
  rcases List.prefix_or_prefix_of_prefix initial upto with short | long
  · rcases List.prefix_concat_iff.mp short with whole | short
    · rw [whole] at noNul
      exact absurd (List.mem_append_right _ (List.mem_singleton.mpr rfl)) noNul
    · exact short
  · exact absurd (long.subset (List.mem_append_right _ (List.mem_singleton.mpr rfl))) noNul

theorem connBuf_nul (sockfn : CString) (read : DriverRead) : 0 ∈ connBuf sockfn read :=
  List.mem_append_right _ (List.mem_singleton.mpr rfl)

theorem connBuf_eq (sockfn : CString) (read : DriverRead) :
    ∃ behind, connBuf sockfn read = read.bytes ++ behind ∧ (read.bytes.length < largebuf -> ∃ zeros, behind = 0 :: zeros) := by
  refine ⟨List.replicate (largebuf - read.bytes.length) 0 ++ sockfn ++ [0], by simp [connBuf], fun short => ?_⟩
  obtain ⟨n, left⟩ : ∃ n, largebuf - read.bytes.length = n + 1 := ⟨largebuf - read.bytes.length - 1, by omega⟩
  exact ⟨List.replicate n 0 ++ sockfn ++ [0], by rw [left]; rfl⟩

theorem connBuf_text {sockfn : CString} {read : DriverRead} (ends : read.bytes.length < largebuf ∨ 0 ∈ read.bytes) :
    ∃ shown behind, connBuf sockfn read = shown ++ 0 :: behind ∧ shown <+: read.bytes ∧ shown.length < largebuf := by
  obtain ⟨behind, whole, short⟩ := connBuf_eq sockfn read
  by_cases room : read.bytes.length < largebuf
  · obtain ⟨zeros, rfl⟩ := short room
    exact ⟨read.bytes, zeros, whole, List.prefix_refl _, room⟩
  · obtain ⟨shown, more, split⟩ := List.append_of_mem (ends.resolve_left room)
    refine ⟨shown, more ++ behind, by rw [whole, split]; simp, ⟨0 :: more, split.symm⟩, ?_⟩
    have fits := read.fits
    rw [split, List.length_append, List.length_cons] at fits
    omega

theorem connBuf_cases (uuid : Uuid id) (sockfn : CString) (read : DriverRead) :
    ∃ front rest, connBuf sockfn read = front ++ rest ∧ 0 ∉ front ∧
      (∀ f r, connBuf sockfn read = f ++ r -> f.length < front.length -> LineStart f -> ¬ ownText id <+: r) ∧
      ((∃ behind, rest = 0 :: behind) ∧ scanLines id true 0 (connBuf sockfn read) = .nothing (front.length + 1) ∨
        LineStart front ∧ ownText id <+: rest ∧ scanLines id true 0 (connBuf sockfn read) =
            .reply (sscanfInt (rest.drop 46)).1 front.length (front.length + 46 + (sscanfInt (rest.drop 46)).2)) := by
  have cases := @scanLines_cases id uuid [] _ true (connBuf_nul sockfn read) (by simp [LineStart])
  simpa only [List.nil_append, List.length_nil, Nat.zero_add] using cases

theorem own_plain (uuid : Uuid id) {front : CString} (noNul : 0 ∉ front) : 0 ∉ front ++ ownText id := by
  intro member
  rcases List.mem_append.mp member with there | there
  · exact noNul there
  · exact (ownText_plain uuid there).1 rfl

theorem silent_nothing (uuid : Uuid id) (sockfn : CString) {read : DriverRead} (silent : PassedOver id read) :
    ∃ upto, scanLines id true 0 (connBuf sockfn read) = .nothing upto ∧ upto ≤ min (read.bytes.length + 1) largebuf := by
  obtain ⟨shown, behind, whole, inside, short⟩ := @connBuf_text sockfn read silent.1
  obtain ⟨front, rest, split, noNul, -, ends⟩ := connBuf_cases uuid sockfn read
  have text {t : List UInt8} (plain : 0 ∉ t) (initial : t <+: connBuf sockfn read) : t <+: read.bytes ∧ t.length ≤ shown.length := by
    rw [whole] at initial
    have found := prefix_text plain initial
    exact ⟨found.trans inside, found.length_le⟩
  rcases ends with ⟨-, nothing⟩ | ⟨start, ⟨more, claims⟩, -⟩
  · obtain ⟨initial, length⟩ := text noNul ⟨rest, split.symm⟩
    refine ⟨_, nothing, ?_⟩
    have bound := initial.length_le
    omega
  · obtain ⟨⟨back, bytes⟩, -⟩ := text (own_plain uuid noNul) ⟨more, by rw [split, <- claims, List.append_assoc]⟩
    rw [List.append_assoc] at bytes
    have length := ownText_length uuid
    refine absurd (List.prefix_append _ _) (silent.2 front _ bytes.symm ?_ noNul start)
    rw [<- bytes, List.length_append, List.length_append]
    omega

theorem digits_stop {digits : CString} (all : digits.all isdigit = true) (behind : CString) :
    (digits ++ 10 :: behind).takeWhile isdigit = digits ∧ digitsValue (digits ++ 10 :: behind) = digitsValue digits := by
  have every : ∀ b ∈ digits, isdigit b = true := List.all_eq_true.mp all
  have whole : (digits ++ 10 :: behind).takeWhile isdigit = digits := by
    rw [List.takeWhile_append_of_pos every, List.takeWhile_cons_of_neg (by decide), List.append_nil]
  have alone : digits.takeWhile isdigit = digits := List.takeWhile_eq_self_iff.mpr every
  refine ⟨whole, ?_⟩
  rw [digitsValue, digitsValue, whole, alone]

theorem decimalValue_some {text : CString} {value : Int} (number : decimalValue text = some value) :
    ∃ sign digits, text = sign ++ digits ∧ sign ∈ [[], [45], [43]] ∧ digits ≠ [] ∧ digits.all isdigit = true ∧
      value = if sign = [45] then -(digitsValue digits : Int) else digitsValue digits := by
  unfold decimalValue at number
  by_cases minus : text.head? = some 45
  · obtain ⟨rest, rfl⟩ := List.head?_eq_some_iff.mp minus
    simp only [minus, true_or, if_true, List.tail_cons] at number
    split_ifs at number with numeral
    exact ⟨[45], rest, rfl, by decide, numeral.1, numeral.2, (Option.some.inj number).symm⟩
  · by_cases plus : text.head? = some 43
    · obtain ⟨rest, rfl⟩ := List.head?_eq_some_iff.mp plus
      simp only [plus, or_true, if_true, List.tail_cons] at number
      split_ifs at number with numeral contrary
      · exact absurd contrary (by decide)
      · exact ⟨[43], rest, rfl, by decide, numeral.1, numeral.2, (Option.some.inj number).symm⟩
    · simp only [minus, plus, or_self, if_false] at number
      split_ifs at number with numeral
      exact ⟨[], text, rfl, by decide, numeral.1, numeral.2, (Option.some.inj number).symm⟩

theorem sscanfInt_decimal {text : CString} {status : Int32} (value : decimalValue text = some status.toInt) (behind : CString) :
    sscanfInt (text ++ 10 :: behind) = (some status, text.length + 1) := by
  obtain ⟨sign, digits, rfl, signed, some_, all, number⟩ := decimalValue_some value
  obtain ⟨stops, reads⟩ := digits_stop all behind
  have clamp : max longMin (min longMax status.toInt) = status.toInt := by
    have low := status.le_toInt
    have high := status.toInt_lt
    simp only [longMin, longMax]
    omega
  obtain ⟨first, rest, begins⟩ := List.exists_cons_of_ne_nil some_
  have digit : isdigit first = true := List.all_eq_true.mp all first (by rw [begins]; exact List.mem_cons_self)
  obtain ⟨blank, notMinus, notPlus⟩ := isdigit_notSpace digit
  have shown : digits ++ 10 :: behind = first :: (rest ++ 10 :: behind) := by rw [begins]; rfl
  have minusBlank : isspace (charToInt 45) = false := by decide
  have plusBlank : isspace (charToInt 43) = false := by decide
  simp only [List.mem_cons, List.not_mem_nil, or_false] at signed
  have long : strtol (sign ++ digits ++ 10 :: behind) = Int64.ofInt status.toInt := by
    rw [<- clamp, number]
    rcases signed with rfl | rfl | rfl
    · rw [List.nil_append, shown, strtol_digit digit, <- shown, reads]
      rfl
    · simp [strtol, minusBlank, reads]
    · simp [strtol, plusBlank, reads]
  have number_ : atoi (sign ++ digits ++ 10 :: behind) = status := by
    rw [atoi, long]
    simp
  unfold sscanfInt
  rw [number_]
  rcases signed with rfl | rfl | rfl
  · have blanks : ((digits ++ 10 :: behind).takeWhile fun b => isspace (charToInt b)) = [] := by
      rw [shown, List.takeWhile_cons_of_neg (by simp [blank])]
    have head : (digits ++ 10 :: behind).head? = some first := by rw [shown]; rfl
    simp [blanks, head, notMinus, notPlus, stops, some_]
  · simp [minusBlank, stops, some_]
    omega
  · simp [plusBlank, stops, some_]
    omega

theorem decimalValue_plain {text : CString} {value : Int} (number : decimalValue text = some value) {b : UInt8}
    (member : b ∈ text) : b ≠ 0 ∧ b ≠ 10 := by
  obtain ⟨sign, digits, rfl, signed, -, all, -⟩ := decimalValue_some number
  have plain : ∀ sign ∈ ([[], [45], [43]] : List CString), ∀ b ∈ sign, b ≠ 0 ∧ b ≠ 10 := by decide
  rcases List.mem_append.mp member with first | later
  · exact plain sign signed b first
  · have digit : isdigit b = true := List.all_eq_true.mp all b later
    constructor <;> rintro rfl <;> revert digit <;> decide

theorem statusLine_plain (uuid : Uuid id) {line : CString} {status : Int32} (reply : StatusLine id line status) :
    0 ∉ line ∧ 10 ∉ line := by
  obtain ⟨text, rfl, number⟩ := reply
  have plain : ∀ b ∈ ownText id ++ 32 :: text, b ≠ 0 ∧ b ≠ 10 := by
    intro b member
    rcases List.mem_append.mp member with own | rest
    · exact ownText_plain uuid own
    · rcases List.mem_cons.mp rest with rfl | inside
      · decide
      · exact decimalValue_plain number inside
  exact ⟨fun member => (plain 0 member).1 rfl, fun member => (plain 10 member).2 rfl⟩

theorem line_unique {line other behind back : CString} (plain : 10 ∉ line) (plainOther : 10 ∉ other)
    (same : line ++ 10 :: behind = other ++ 10 :: back) : line = other := by
  have cut {text rest : CString} (plain : 10 ∉ text) : (text ++ 10 :: rest).takeWhile (· ≠ 10) = text := by
    have every : ∀ b ∈ text, decide (b ≠ 10) = true := fun b member => decide_eq_true fun is => plain (is ▸ member)
    rw [List.takeWhile_append_of_pos every, List.takeWhile_cons_of_neg (by decide), List.append_nil]
  have cuts := congrArg (List.takeWhile (· ≠ 10)) same
  rwa [cut plain, cut plainOther] at cuts

theorem replyAt_status (uuid : Uuid id) {stream front line behind : CString} {place : Nat} {status value : Int32}
    (there : ReplyAt id stream place value) (split : stream = front ++ line ++ 10 :: behind) (length : front.length = place)
    (reply : StatusLine id line status) : value = status ∧ LineStart front := by
  obtain ⟨front', line', behind', split', length', start, reply'⟩ := there
  rw [List.append_assoc] at split split'
  obtain ⟨sameFront, sameRest⟩ := List.append_inj (split'.symm.trans split) (length'.trans length.symm)
  have sameLine := line_unique (statusLine_plain uuid reply').2 (statusLine_plain uuid reply).2 sameRest
  refine ⟨?_, sameFront ▸ start⟩
  obtain ⟨text', whole', number'⟩ := reply'
  obtain ⟨text, whole, number⟩ := reply
  have sameText : text' = text := by
    have tails := List.append_cancel_left (whole'.symm.trans (sameLine.trans whole))
    exact (List.cons.inj tails).2
  rw [sameText, number] at number'
  exact Int32.toInt_inj.mp (Option.some.inj number').symm

theorem scan_whole (uuid : Uuid id) (sockfn : CString) {read : DriverRead} {front line behind : CString} {status : Int32}
    (bytes : read.bytes = front ++ line ++ 10 :: behind) (noNul : 0 ∉ front) (start : LineStart front)
    (unclaimed : Unclaimed id read.bytes front.length) (reply : StatusLine id line status) :
    scanLines id true 0 (connBuf sockfn read) = .reply (some status) front.length (front.length + line.length + 1) := by
  obtain ⟨noNulLine, -⟩ := statusLine_plain uuid reply
  obtain ⟨text, rfl, number⟩ := reply
  obtain ⟨more, whole, -⟩ := connBuf_eq sockfn read
  have mem : connBuf sockfn read = front ++ (ownText id ++ 32 :: text ++ 10 :: (behind ++ more)) := by
    rw [whole, bytes]
    simp
  have length := ownText_length uuid
  obtain ⟨f, rest, split, noNulF, none_, ends⟩ := connBuf_cases uuid sockfn read
  have own : ownText id <+: ownText id ++ 32 :: text ++ 10 :: (behind ++ more) := ⟨32 :: text ++ 10 :: (behind ++ more), by simp⟩
  have notEarlier : ¬ front.length < f.length := fun short => none_ _ _ mem short start own
  rcases ends with ⟨⟨zeros, rfl⟩, -⟩ | ⟨startF, claims, found⟩
  · have initial : front ++ ownText id <+: f ++ 0 :: zeros := by
      rw [<- split, mem]
      exact (List.prefix_append_right_inj front).mpr own
    have short := (prefix_text (own_plain uuid noNul) initial).length_le
    rw [List.length_append] at short
    omega
  · have notLater : ¬ f.length < front.length := by
      intro short
      obtain ⟨more', claimed⟩ := claims
      have initial : f ++ ownText id <+: connBuf sockfn read := ⟨more', by rw [split, <- claimed, List.append_assoc]⟩
      have inside : f ++ ownText id <+: read.bytes := by
        refine List.prefix_of_prefix_length_le initial ⟨more, whole.symm⟩ ?_
        rw [bytes]
        simp only [List.length_append, List.length_cons]
        omega
      obtain ⟨back, rebuilt⟩ := inside
      rw [List.append_assoc] at rebuilt
      exact unclaimed f _ rebuilt.symm short noNulF startF (List.prefix_append _ _)
    have place : f.length = front.length := by omega
    obtain ⟨rfl, rfl⟩ := List.append_inj (split.symm.trans mem) place
    have behindOwn : (ownText id ++ 32 :: text ++ 10 :: (behind ++ more)).drop 46 = text ++ 10 :: (behind ++ more) := by
      have front46 : (ownText id ++ [32]).length = 46 := by rw [List.length_append, length]; rfl
      have regroup : ownText id ++ 32 :: text ++ 10 :: (behind ++ more) = ownText id ++ [32] ++ (text ++ 10 :: (behind ++ more)) := by simp
      rw [regroup, <- front46, List.drop_left]
    rw [behindOwn, sscanfInt_decimal number] at found
    rw [found]
    congr 1
    rw [List.length_append, length, List.length_cons]
    omega

theorem nothing_silent (uuid : Uuid id) {sockfn : CString} {read : DriverRead} {upto : Nat}
    (nothing : scanLines id true 0 (connBuf sockfn read) = .nothing upto) (inside : upto ≤ min (read.bytes.length + 1) largebuf) :
    PassedOver id read := by
  obtain ⟨front, rest, split, -, none_, ends⟩ := connBuf_cases uuid sockfn read
  obtain ⟨more, whole, -⟩ := connBuf_eq sockfn read
  rcases ends with ⟨⟨zeros, rfl⟩, ended⟩ | ⟨-, -, found⟩
  · have place : upto = front.length + 1 := QueryScan.nothing.inj (nothing.symm.trans ended)
    constructor
    · by_cases room : read.bytes.length < largebuf
      · exact .inl room
      · have ending : front ++ [0] <+: connBuf sockfn read := ⟨zeros, by rw [split, List.append_assoc]; rfl⟩
        have shown : front ++ [0] <+: read.bytes := by
          refine List.prefix_of_prefix_length_le ending ⟨more, whole.symm⟩ ?_
          rw [List.length_append, List.length_singleton]
          omega
        exact .inr (shown.subset (List.mem_append_right _ (List.mem_singleton.mpr rfl)))
    · intro f r bytes _ noNulF start claims
      obtain ⟨tail, claimed⟩ := claims
      have initial : f ++ ownText id <+: front ++ 0 :: zeros := by
        refine ⟨tail ++ more, ?_⟩
        rw [<- split, whole, bytes, <- claimed]
        simp
      have short := (prefix_text (own_plain uuid noNulF) initial).length_le
      have length := ownText_length uuid
      rw [List.length_append] at short
      refine none_ f (r ++ more) (by rw [whole, bytes, List.append_assoc]) (by omega) start ?_
      exact ⟨tail ++ more, by rw [<- claimed, List.append_assoc]⟩
  · rw [found] at nothing
    cases nothing

end Scan

section Requests

variable {id sockfn : CString}

theorem awaitReply_quiet (uuid : Uuid id) {quiet : List DriverRead} (silent : ∀ read ∈ quiet, PassedOver id read) (sent : Nat)
    (rest : List DriverRead) :
    (awaitReply id sockfn sent (quiet ++ rest)).status = (awaitReply id sockfn (sent + (driverStream quiet).length) rest).status ∧
      (awaitReply id sockfn sent (quiet ++ rest)).taken = (awaitReply id sockfn (sent + (driverStream quiet).length) rest).taken ∧
      ∀ read upto, (read, upto) ∈ (awaitReply id sockfn sent (quiet ++ rest)).scanned ->
        upto ≤ min (read.bytes.length + 1) largebuf ∨
          (read, upto) ∈ (awaitReply id sockfn (sent + (driverStream quiet).length) rest).scanned := by
  induction quiet generalizing sent with
  | nil => exact ⟨rfl, rfl, fun _ _ member => .inr member⟩
  | cons read quiet ih =>
    obtain ⟨upto, nothing, inside⟩ := silent_nothing uuid sockfn (silent read List.mem_cons_self)
    have length : (driverStream (read :: quiet)).length = read.bytes.length + (driverStream quiet).length := by
      simp [driverStream]
    obtain ⟨status, taken, scanned⟩ := ih (fun r member => silent r (List.mem_cons_of_mem _ member)) (sent + read.bytes.length)
    rw [List.cons_append, awaitReply, nothing, length, <- Nat.add_assoc]
    refine ⟨status, taken, fun r u member => ?_⟩
    rcases List.mem_cons.mp member with here | later
    · cases here
      exact .inl inside
    · exact scanned r u later

theorem awaitReply_split (uuid : Uuid id) {sent : Nat} {reads : List DriverRead}
    (inside : ∀ read upto, (read, upto) ∈ (awaitReply id sockfn sent reads).scanned -> upto ≤ min (read.bytes.length + 1) largebuf) :
    (∀ read ∈ reads, PassedOver id read) ∧ (awaitReply id sockfn sent reads).taken = none ∨
      ∃ quiet read more status place upto, reads = quiet ++ read :: more ∧ (∀ read ∈ quiet, PassedOver id read) ∧
        scanLines id true 0 (connBuf sockfn read) = .reply status place upto ∧
        (awaitReply id sockfn sent reads).taken = some (sent + (driverStream quiet).length + place, read.bytes.drop place) := by
  induction reads generalizing sent with
  | nil => exact .inl ⟨fun _ member => (by cases member), rfl⟩
  | cons read rest ih =>
    unfold awaitReply at inside ⊢
    cases scan : scanLines id true 0 (connBuf sockfn read) with
    | nothing upto =>
      rw [scan] at inside
      have silent := nothing_silent uuid scan (inside read upto List.mem_cons_self)
      rcases ih fun r u member => inside r u (List.mem_cons_of_mem _ member) with ⟨all, none_⟩ | found
      · refine .inl ⟨fun r member => ?_, none_⟩
        rcases List.mem_cons.mp member with rfl | later
        · exact silent
        · exact all r later
      · obtain ⟨quiet, last, more, status, place, upto', rfl, all, there, taken⟩ := found
        refine .inr ⟨read :: quiet, last, more, status, place, upto', rfl, fun r member => ?_, there, ?_⟩
        · rcases List.mem_cons.mp member with rfl | later
          · exact silent
          · exact all r later
        · have length : (driverStream (read :: quiet)).length = read.bytes.length + (driverStream quiet).length := by
            simp [driverStream]
          rw [length, <- Nat.add_assoc]
          exact taken
    | reply status place upto => exact .inr ⟨[], read, rest, status, place, upto, rfl, fun _ member => (by cases member), scan, rfl⟩

theorem firstReply_exists {stream : CString} {place : Nat} {status : Int32} (there : ReplyAt id stream place status) :
    ∃ first value, FirstReply id stream first value := by
  classical
  have some_ : ∃ first, ∃ value, ReplyAt id stream first value := ⟨place, status, there⟩
  obtain ⟨value, found⟩ := Nat.find_spec some_
  exact ⟨Nat.find some_, value, found, fun other v here => Nat.find_min' some_ ⟨v, here⟩⟩

theorem driverStream_split {quiet more : List DriverRead} {read : DriverRead} {front line behind : CString}
    (bytes : read.bytes = front ++ line ++ 10 :: behind) :
    driverStream (quiet ++ read :: more) = (driverStream quiet ++ front) ++ line ++ 10 :: (behind ++ driverStream more) := by
  simp [driverStream, bytes]

theorem finds_wellCut (uuid : Uuid id) {reads : List DriverRead} (finds : FindsReply id reads (awaitReply id sockfn 0 reads)) :
    WellCut id reads := by
  rcases awaitReply_split uuid finds.inside with ⟨all, nothing⟩ | ⟨quiet, read, more, status, place, upto, rfl, silent, scan, taken⟩
  · refine .inl ⟨all, fun place status there => ?_⟩
    obtain ⟨first, value, found⟩ := firstReply_exists there
    have taken := (finds.found first value found).2
    rw [nothing] at taken
    cases taken
  · obtain ⟨line, value, behind, text, reply⟩ := finds.whole _ _ taken
    obtain ⟨front, rest, split, noNul, none_, ends⟩ := connBuf_cases uuid sockfn read
    obtain ⟨tail, whole, -⟩ := connBuf_eq sockfn read
    rcases ends with ⟨-, ended⟩ | ⟨start, -, found⟩
    · rw [ended] at scan
      cases scan
    · rw [found] at scan
      cases scan
      have inside : front.length ≤ read.bytes.length := by
        by_contra beyond
        rw [List.drop_eq_nil_of_le (by omega)] at text
        exact absurd text.symm (by simp)
      obtain ⟨t, initial⟩ : front <+: read.bytes :=
        List.prefix_of_prefix_length_le ⟨rest, split.symm⟩ ⟨tail, whole.symm⟩ inside
      have bytes : read.bytes = front ++ line ++ 10 :: behind := by
        rw [<- initial, List.drop_left] at text
        rw [<- initial, text, List.append_assoc]
      refine .inr ⟨quiet, read, more, front, line, behind, rfl, silent, bytes, noNul, start, ?_, ⟨value, reply⟩, ?_⟩
      · intro f r here short _ startF claims
        refine none_ f (r ++ tail) (by rw [whole, here, List.append_assoc]) short startF ?_
        exact claims.trans (List.prefix_append _ _)
      · by_contra none_
        have missing (p : Nat) (v : Int32) : ¬ FirstReply id (driverStream (quiet ++ read :: more)) p v := by
          intro first
          have there := (finds.found p v first).2
          rw [taken, Nat.zero_add] at there
          have place : (driverStream quiet).length + front.length = p := Option.some.inj there
          rw [<- place] at first
          exact none_ ⟨v, first⟩
        have nothing := (finds.missing missing).2
        rw [taken] at nothing
        cases nothing

theorem wellCut_finds (uuid : Uuid id) {reads : List DriverRead} (cut : WellCut id reads) :
    FindsReply id reads (awaitReply id sockfn 0 reads) := by
  rcases cut with ⟨silent, none_⟩ | ⟨quiet, read, more, front, line, behind, rfl, silent, readWhole⟩
  · obtain ⟨status, taken, scanned⟩ := @awaitReply_quiet id sockfn uuid reads silent 0 []
    rw [List.append_nil] at status taken scanned
    refine ⟨fun place value first => absurd first.1 (none_ place value), fun _ => ⟨status, taken⟩, fun place text there => ?_,
      fun read upto member => (scanned read upto member).resolve_right fun last => (by cases last)⟩
    rw [taken] at there
    cases there
  · obtain ⟨status, reply⟩ := readWhole.reply
    obtain ⟨value, first⟩ := readWhole.first
    have scan := scan_whole uuid sockfn readWhole.bytes readWhole.noNul readWhole.start readWhole.unclaimed reply
    obtain ⟨same, taken, scanned⟩ := @awaitReply_quiet id sockfn uuid quiet silent 0 (read :: more)
    rw [Nat.zero_add, awaitReply, scan] at same taken scanned
    dsimp only at same taken scanned
    have text : read.bytes.drop front.length = line ++ 10 :: behind := by
      rw [readWhole.bytes, List.append_assoc, List.drop_left]
    have stream := @driverStream_split quiet more read front line behind readWhole.bytes
    constructor
    case found =>
      intro place value' found
      have least := Nat.le_antisymm (found.2 _ _ first.1) (first.2 _ _ found.1)
      obtain ⟨rfl, -⟩ := replyAt_status uuid found.1 stream (by rw [List.length_append, least]) reply
      rw [same, taken, least]
      exact ⟨rfl, rfl⟩
    case missing => exact fun none_ => absurd first (none_ _ _)
    case whole =>
      intro place t there
      rw [taken, text] at there
      cases there
      exact ⟨line, status, behind, rfl, reply⟩
    case inside =>
      intro r upto member
      rcases scanned r upto member with inside | here
      · exact inside
      · obtain ⟨rfl, rfl⟩ := Prod.mk.inj (List.mem_singleton.mp here)
        have fits := r.fits
        have length := congrArg List.length readWhole.bytes
        simp only [List.length_append, List.length_cons] at length
        omega

-- A reply is found as it should be exactly if it comes in one read, and nothing before it seems to be one.
theorem findsReply_iff (randoms : List UInt8) (sockfn : CString) (reads : List DriverRead) :
    let id := upsdrvqueryNutUuidV4 randoms
    FindsReply id reads (awaitReply id sockfn 0 reads) ↔ WellCut id reads :=
  ⟨finds_wellCut (uuid_nutUuidV4 randoms), wellCut_finds (uuid_nutUuidV4 randoms)⟩

def sampleId : CString :=
  upsdrvqueryNutUuidV4 []

def cutReads : List DriverRead :=
  [{ bytes := ownText sampleId ++ cstr " 1", some_ := by decide, fits := by decide },
    { bytes := cstr "2\n", some_ := by decide, fits := by decide }]

-- A status that comes in two reads is taken for its first digit.
theorem status_cut :
    FirstReply sampleId (driverStream cutReads) 0 12 ∧ (awaitReply sampleId (cstr "/run/nut/dummy-ups-a") 0 cutReads).status = some 1 ∧
      ¬ FindsReply sampleId cutReads (awaitReply sampleId (cstr "/run/nut/dummy-ups-a") 0 cutReads) := by
  have line : StatusLine sampleId (ownText sampleId ++ cstr " 12") 12 := ⟨cstr "12", by decide, by decide⟩
  have first : FirstReply sampleId (driverStream cutReads) 0 12 :=
    ⟨⟨[], _, [], by decide, rfl, fun _ member => (by cases member), line⟩, fun _ _ _ => Nat.zero_le _⟩
  have status : (awaitReply sampleId (cstr "/run/nut/dummy-ups-a") 0 cutReads).status = some 1 := by decide +kernel
  refine ⟨first, status, fun finds => ?_⟩
  have whole := (finds.found 0 12 first).1
  rw [status] at whole
  revert whole
  decide

end Requests

end Nut
