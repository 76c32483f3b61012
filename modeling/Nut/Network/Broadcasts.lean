import Nut.Common.ParseConfFeeds
import Nut.Library.Replica
import Nut.Server.Incremental

set_option autoImplicit false

namespace Nut

section Pieces

theorem readCtx_append (ctx : PconfCtx) (first rest : CString) : readCtx ctx (first ++ rest) = readCtx (readCtx ctx first) rest := by
  induction first generalizing ctx with
  | nil => rfl
  | cons ch first ih => simp [readCtx, pconfChar_reads, ih]

theorem readLines_append (ctx : PconfCtx) (first rest : CString) :
    readLines ctx (first ++ rest) = readLines ctx first ++ readLines (readCtx ctx first) rest := by
  induction first generalizing ctx with
  | nil => rfl
  | cons ch first ih => obtain done | more := pconfChar_reads ctx ch <;> simp [readLines, readCtx, *]

def Between (ctx : PconfCtx) : Prop :=
  AtLineStart ctx ∧ ctx.argLimit = 32 ∧ ctx.wordlenLimit = 512

theorem read_lines {ctx : PconfCtx} (between : Between ctx) {lines : List CString} {words : List (List CString)}
    (areLines : List.Forall₂ (IsLine 32 512) lines words) :
    readLines ctx lines.flatten = words ∧ Between (readCtx ctx lines.flatten) := by
  obtain ⟨start, args, wordlen⟩ := between
  have collected (lines : List (List CString)) : lines.foldl (fun read words => read ++ [words]) [] = lines := by
    simp [List.foldl_append_eq_append, <- List.flatMap_def]
  have areLines' : List.Forall₂ (IsLine ctx.argLimit ctx.wordlenLimit) lines words := by
    rw [args, wordlen]
    exact areLines
  obtain ⟨after, read, start', args', wordlen'⟩ := readChars_lines (fun read words => read ++ [words]) start [] areLines'
  rw [readChars_eq, collected, collected] at read
  obtain ⟨rfl, same⟩ := Prod.mk.inj read
  exact ⟨same, start', args'.trans args, wordlen'.trans wordlen⟩

theorem words_unique {lines : List CString} {words words' : List (List CString)} (areLines : List.Forall₂ (IsLine 32 512) lines words)
    (areLines' : List.Forall₂ (IsLine 32 512) lines words') : words = words' := by
  have fresh : Between pconfInit := ⟨atLineStart_init _ _, rfl, rfl⟩
  exact (read_lines fresh areLines).1.symm.trans (read_lines fresh areLines').1

end Pieces

def Dstate.values (d : Dstate) : CString -> Option CString :=
  stateGetinfo d.dtreeRoot

abbrev Trailing : Dstate -> List (List CString) -> List Dstate -> Dstate -> Prop :=
  Catches (fun d (s : Upstype × TrackingList) => Synced d s.1) sstateLine Dstate.values

section Calls

variable {d d' : Dstate} {lines : List CString} {ups : Upstype}

theorem relays_words (relays : ∀ ups, Synced d ups -> Relays d' lines ups) (synced : Synced d ups) :
    ∃ words, List.Forall₂ (IsLine 32 512) lines words ∧
      ∀ now s, Synced d s.1 -> Synced d' (words.foldl (sstateLine now) s).1 := by
  obtain ⟨words, areLines, -⟩ := relays ups synced 0 [] ups rfl
  refine ⟨words, areLines, fun now s synced => ?_⟩
  obtain ⟨words', areLines', after⟩ := relays s.1 synced now s.2 s.1 rfl
  rw [words_unique areLines areLines']
  exact after

theorem trailing_few (relays : ∀ ups, Synced d ups -> Relays d' lines ups) (few : lines.length ≤ 1) (synced : Synced d ups) :
    ∃ words, List.Forall₂ (IsLine 32 512) lines words ∧ Trailing d words [d'] d' := by
  obtain ⟨words, areLines, follows⟩ := relays_words relays synced
  refine ⟨words, areLines, ?_⟩
  have short := areLines.length_eq
  match words with
  | [] => exact .silent (fun s synced => follows 0 s synced) (.done d')
  | [word] => exact .hear (fun now s synced => follows now s synced) (.done d')
  | _ :: _ :: _ => simp at short; omega

theorem sockLine_few (text : CString) : (sockLine text).length ≤ 1 := by
  unfold sockLine
  split <;> simp

theorem setflags_few (var : CString) (flags : BitVec 32) (d : Dstate) : (Dstate.dstateSetflags var flags d).2.1.length ≤ 1 := by
  unfold Dstate.dstateSetflags
  split
  next => simp
  next => split_ifs <;> simp [sockLine_few]

theorem addflags_few (var : CString) (flags : BitVec 32) (d : Dstate) : (Dstate.dstateAddflags var flags d).2.1.length ≤ 1 := by
  simp only [Dstate.dstateAddflags]
  split_ifs <;> simp [setflags_few]

theorem delflags_few (var : CString) (flags : BitVec 32) (d : Dstate) : (Dstate.dstateDelflags var flags d).2.1.length ≤ 1 := by
  simp only [Dstate.dstateDelflags]
  split_ifs <;> simp [setflags_few]

theorem if_few (changed : Prop) [Decidable changed] (text : CString) : (if changed then sockLine text else []).length ≤ 1 := by
  split <;> simp [sockLine_few]

theorem addrange_values {t : StTree} (ordered : Ordered t) (now : Int) (var : CString) (min max : Int32) :
    stateGetinfo (stateAddrange now var min max t).1 = stateGetinfo t := by
  let op := StateOp.addrange var min max
  funext name
  change (stateTreeFind (op.apply now t).1 name).map StNode.val = (stateTreeFind t name).map StNode.val
  by_cases same : strcasecmp var name = .eq
  · rw [<- stateTreeFind_congr same, <- stateTreeFind_congr same]
    have self := op.find_apply_self now ordered
    change stateTreeFind (op.apply now t).1 var = (stateTreeFind t var).elim _ _ at self
    rw [self]
    cases stateTreeFind t var with
    | none => rfl
    | some node =>
      by_cases reversed : min > max <;> simp [op, StateOp.found, reversed, StNode.modify, StNode.addrange, StNode.refreshTimestamp]
  · rw [op.find_apply_other now ordered same]

theorem trailing_call {op : DstateOp} (now : Int) (wellFormed : op.WellFormed) (relayable : op.Relayable d) (synced : Synced d ups) :
    ∃ words, List.Forall₂ (IsLine 32 512) (op.apply now d).2 words ∧ Trailing d words [(op.apply now d).1] (op.apply now d).1 := by
  have relays (ups : Upstype) (synced : Synced d ups) := relays_apply now synced wellFormed relayable
  cases op with
  | addrange var min max =>
    -- The range goes out first, then the flag that it sets.
    by_cases changed : (stateAddrange now var min max d.dtreeRoot).2 = 1
    · let between : Dstate := { d with dtreeRoot := (stateAddrange now var min max d.dtreeRoot).1 }
      have relays (ups : Upstype) (synced : Synced d ups) := @relays_range d ups var min max now synced wellFormed
      simp only [if_pos changed] at relays
      obtain ⟨words, areLines, follows⟩ := relays_words relays synced
      have one : (sockLine (formatRange (cstr "ADDRANGE") var min max)).length = 1 := by
        simp [sockLine, formatRange, show cstr "\n" = [10] from rfl]
      obtain ⟨word, rfl⟩ := List.length_eq_one_iff.mp (areLines.length_eq.symm.trans one)
      have flagged := trailing_few (fun ups (synced : Synced between ups) => relays_addflags synced wellFormed)
        (addflags_few var stFlagNumber between) (follows now (ups, []) synced)
      obtain ⟨more, areMore, trailing⟩ := flagged
      refine ⟨[word] ++ more, ?_, .within follows (addrange_values synced.1.1 now var min max) ?_⟩
      · simpa [DstateOp.apply, Dstate.dstateAddrange, changed] using List.rel_append areLines areMore
      · simpa [DstateOp.apply, Dstate.dstateAddrange, changed] using trailing
    · refine trailing_few relays ?_ synced
      simp [DstateOp.apply, Dstate.dstateAddrange, changed]
  | setaux var aux =>
    refine trailing_few relays ?_ synced
    simp only [DstateOp.apply, Dstate.dstateSetaux]
    split
    next => simp
    next => split_ifs <;> simp [sockLine_few]
  | setflags var flags => exact trailing_few relays (setflags_few var flags d) synced
  | addflags var flags => exact trailing_few relays (addflags_few var flags d) synced
  | delflags var flags => exact trailing_few relays (delflags_few var flags d) synced
  | dataok =>
    refine trailing_few relays ?_ synced
    simp only [DstateOp.apply, Dstate.dstateDataok]
    split <;> simp [sockLine_few]
  | datastale =>
    refine trailing_few relays ?_ synced
    simp only [DstateOp.apply, Dstate.dstateDatastale]
    split <;> simp [sockLine_few]
  | _ => exact trailing_few relays (if_few _ _) synced

end Calls

end Nut
