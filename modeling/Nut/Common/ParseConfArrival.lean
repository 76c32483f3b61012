import Nut.Common.ParseConfReader
import Nut.Common.ParseConfFeeds

set_option autoImplicit false

namespace Nut

-- What a parser with the default limits lets through.
def Receivable (word : CString) : Prop :=
  word.length ≤ pconfDefaultWordlenLimit ∧ ∀ b ∈ word, isText b = true

structure Received (ctx : PconfCtx) : Prop where
  limit : ctx.wordlenLimit = pconfDefaultWordlenLimit
  word : Receivable ctx.wordbuf
  args : ∀ word ∈ ctx.arglist, Receivable word

section Received

variable {ctx : PconfCtx}

theorem receivable_nil : Receivable [] := by
  simp [Receivable]

theorem received_state (received : Received ctx) (state : PconfState) : Received { ctx with state } :=
  { received with }

theorem received_addchar (received : Received ctx) (ch : Int) : Received (addchar ctx ch) := by
  unfold addchar
  split_ifs with outside full
  · exact received
  · exact received
  · have limit := received.limit
    have text : isText (UInt8.ofNat ch.toNat) = true := by
      rw [isText_iff, UInt8.toNat_ofNat']
      omega
    refine ⟨limit, ⟨?_, fun b member => ?_⟩, received.args⟩
    · simp only [List.length_append, List.length_singleton]
      have := limit ▸ full
      simp only [pconfDefaultWordlenLimit] at *
      omega
    · obtain old | new := List.mem_append.mp member
      · exact received.word.2 b old
      · rwa [List.mem_singleton.mp new]

theorem received_endofword (received : Received ctx) : Received (endofword ctx) := by
  unfold endofword
  split_ifs
  · exact ⟨received.limit, receivable_nil, received.args⟩
  · refine ⟨received.limit, receivable_nil, fun word member => ?_⟩
    obtain old | new := List.mem_append.mp member
    · exact received.args word old
    · rw [List.mem_singleton.mp new]
      exact received.word

theorem received_findwordstart (received : Received ctx) (ch : Int) : Received (findwordstart ctx ch).1 := by
  unfold findwordstart
  split_ifs
  all_goals first
    | exact received
    | exact received_endofword (received_addchar received ch)
    | exact received_addchar received ch

theorem received_parseChar (received : Received ctx) (ch : Int) : Received (parseChar ctx ch) := by
  have entered {x : PconfCtx} (kept : Received x) (state : PconfState) : Received (enter (x, state)) :=
    received_state kept state
  have added := received_addchar received ch
  have ended := received_endofword received
  cases state : ctx.state <;>
    simp only [parseChar, state, findeol, quotecollect, qcLiteral, collect, collectliteral]
  all_goals try split_ifs
  all_goals first
    | exact entered received _
    | exact entered added _
    | exact entered ended _
    | exact entered (received_findwordstart ended ch) _
    | exact entered (received_findwordstart received ch) (findwordstart ctx ch).2

theorem received_pconfChar (received : Received ctx) (ch : UInt8) : Received (pconfChar ctx ch).1 := by
  have started : Received (if lineDone ctx then startLine ctx else ctx) := by
    split_ifs
    · exact ⟨received.limit, received.word, by simp [startLine]⟩
    · exact received
  exact received_parseChar started (charToInt ch)

theorem received_readLines (received : Received ctx) (sent : CString) :
    ∀ arglist ∈ readLines ctx sent, ∀ word ∈ arglist, Receivable word := by
  induction sent generalizing ctx with
  | nil => simp [readLines]
  | cons ch rest ih =>
    have next := received_pconfChar received ch
    simp only [readLines]
    split_ifs
    · intro arglist member
      obtain rfl | later := List.mem_cons.mp member
      · exact next.args
      · exact ih next arglist later
    · exact ih next
    · simp

theorem received_pconfFileNext {ctx : PconfCtx} (received : Received ctx) (file : CString) :
    Received (pconfFileNext ctx file).1 := by
  have started : Received (startLine ctx) := ⟨received.limit, received.word, by simp [startLine]⟩
  have parsed (text : CString) {ctx : PconfCtx} (received : Received ctx) :
      Received (parseUntilDone fgetcToInt ctx text).1 := by
    induction text generalizing ctx with
    | nil => exact received
    | cons b rest ih =>
      have next := received_parseChar received (fgetcToInt b)
      simp only [parseUntilDone]
      split_ifs
      · exact next
      · exact ih next
  have line := parsed file started
  unfold pconfFileNext
  split
  next call => rwa [call] at line
  next call =>
    rw [call] at line
    split_ifs
    · exact received_endofword line
    · exact line
    · exact line

theorem received_fileLists {ctx : PconfCtx} (received : Received ctx) (file : CString) :
    ∀ arglist ∈ fileLists ctx file, ∀ word ∈ arglist, Receivable word := by
  induction ctx, file using fileLists.induct with
  | case1 ctx file next rest call shorter ih =>
    have read := received_pconfFileNext received file
    rw [call] at read
    rw [fileLists_more call]
    intro arglist member
    obtain rfl | later := List.mem_cons.mp member
    · exact read.args
    · exact ih read arglist later
  | case2 ctx file next rest ret call ended =>
    rw [fileLists]
    split
    next call' =>
      rw [call] at call'
      cases call'
      simp [ended]

end Received

def Arrives (line : CString) (words : List CString) : Prop :=
  (∃ text, line = text ++ [10] ∧ ∀ b ∈ text, b ≠ 10) ∧
    ∀ ctx : PconfCtx, AtLineStart ctx -> ctx.argLimit = pconfDefaultArgLimit ->
      ctx.wordlenLimit = pconfDefaultWordlenLimit -> readLines ctx line = [words]

def waiting (args : List CString) : PconfCtx :=
  ⟨.findwordstart, args, [], 32, 512⟩

section Arrives

theorem readLines_one {ctx : PconfCtx} (running : lineDone ctx = false) {text : CString}
    (oneLine : ∀ b ∈ text, b ≠ 10) : readLines ctx (text ++ [10]) =
      if (runChars ctx (text ++ [10])).state = .endofline then [(runChars ctx (text ++ [10])).arglist]
      else [] := by
  induction text generalizing ctx with
  | nil =>
    simp only [List.nil_append, readLines, pconfChar, running, Bool.false_eq_true, if_false, runChars_cons,
      runChars_nil]
    by_cases done : (parseChar ctx (charToInt 10)).state = .endofline
    · simp [done]
    · simp only [done, if_false]
      split_ifs <;> simp_all
  | cons b text ih =>
    have notNewline := oneLine b List.mem_cons_self
    have still := parseChar_not_done running notNewline
    have later := ih still fun c member => oneLine c (List.mem_cons_of_mem b member)
    have step : readLines ctx (b :: (text ++ [10])) = readLines (parseChar ctx (charToInt b)) (text ++ [10]) := by
      simp [readLines, pconfChar_more running notNewline]
    rw [List.cons_append, step, runChars_cons]
    exact later

theorem readLines_startLine {ctx : PconfCtx} (start : AtLineStart ctx) {text : CString} (more : text ≠ []) :
    readLines ctx text = readLines ⟨.findwordstart, [], [], ctx.argLimit, ctx.wordlenLimit⟩ text := by
  have collected (lines : List (List CString)) : lines.foldl (fun read words => read ++ [words]) [] = lines := by
    simp [List.foldl_append_eq_append, <- List.flatMap_def]
  have same := readChars_startLine (fun read words => read ++ [words]) start [] more
  rw [readChars_eq, readChars_eq, collected, collected] at same
  exact (Prod.mk.inj same).2

theorem arrives_iff {text : CString} (oneLine : ∀ b ∈ text, b ≠ 10) (words : List CString) :
    Arrives (text ++ [10]) words ↔ (runChars (waiting []) (text ++ [10])).state = .endofline ∧
        (runChars (waiting []) (text ++ [10])).arglist = words := by
  have one := readLines_one (show lineDone (waiting []) = false from rfl) oneLine
  constructor
  · intro arrives
    have read := arrives.2 (waiting []) ⟨rfl, Or.inr ⟨rfl, rfl⟩⟩ rfl rfl
    rw [one] at read
    split_ifs at read with done
    exact ⟨done, by simpa using read⟩
  · rintro ⟨done, same⟩
    refine ⟨⟨text, rfl, oneLine⟩, fun ctx start argLimit wordlenLimit => ?_⟩
    rw [readLines_startLine start (by simp), argLimit, wordlenLimit]
    change readLines (waiting []) _ = _
    rw [one, if_pos done, same]

theorem arrives_line {text : CString} {words : List CString} (line : LineOf text words) (few : words.length ≤ 32)
    (short : ∀ word ∈ words, word.length ≤ 512) : Arrives (text ++ [10]) words := by
  have run := run_line [] 32 512 line
  rw [addArgs_fits (by simpa using few) short, List.nil_append] at run
  rw [arrives_iff fun b member => isText_ne_newline (line.isText b member), waiting, run]
  exact ⟨rfl, rfl⟩

theorem not_arrives {line : CString} (unfinished : ∀ b ∈ line, b ≠ 10) (words : List CString) :
    ¬ Arrives line words := by
  rintro ⟨⟨text, rfl, _⟩, _⟩
  exact unfinished 10 (by simp) rfl

end Arrives

end Nut
