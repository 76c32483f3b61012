import Mathlib.Data.List.TakeWhile
import Nut.Drivers.TransportReplies

set_option autoImplicit false

namespace Nut.Transport

section Fuji

variable {buflen : Nat} {cmd : CString} {returnsLater : CString -> Bool} {writes reads : List UsbTransfer}

def Echoed (returnsLater : CString -> Bool) (cmd : CString) : Prop :=
  returnsLater cmd = false ∧ 3 < ((cText cmd).takeWhile (· ≠ 13)).length

theorem fujiWord_long (returnsLater : CString -> Bool) (cmd : CString) :
    3 < (fujiWord returnsLater cmd).length ↔ Echoed returnsLater cmd := by
  unfold fujiWord Echoed snprintf smallbuf
  cases returnsLater cmd with
  | true =>
    simp only [if_true, List.length_take, Bool.true_eq_false, false_and, iff_false]
    omega
  | false =>
    simp only [Bool.false_eq_true, if_false, List.length_take, true_and]
    omega

theorem begun_trim {r : UsbRun} (ready : Ready r) (trims : Bool) : Ready (if trims then r.write smallbuf 3 1 else r) := by
  split
  · exact ⟨ready.1.write (by decide), ready.2⟩
  · exact ready

theorem fuji_start (returnsLater : CString -> Bool) (cmd : CString) :
    Ready (if returnsLater cmd then ((UsbRun.start.fill smallbuf).fill smallbuf).write smallbuf 3 1
      else (UsbRun.start.fill smallbuf).fill smallbuf) :=
  begun_trim ⟨(begun_start.fill smallbuf).fill smallbuf, rfl⟩ _

theorem fuji_echoed (most : buflen < intMax) (echoed : Echoed returnsLater cmd) :
    ∃ r, Ready r ∧ (fuji returnsLater).command cmd buflen writes reads =
      ((((r.store buflen 0 (snprintf buflen (cText cmd))).move (snprintf buflen (cText cmd)).length).write buflen
        (snprintf buflen (cText cmd)).length 1).returns (cText cmd).length) := by
  refine ⟨_, fuji_start returnsLater cmd, ?_⟩
  rw [command, fujiCommand, capped_eq most]
  dsimp only
  rw [if_pos ((fujiWord_long returnsLater cmd).mpr echoed)]
  rfl

theorem echo_stays {r : UsbRun} (ready : Ready r) (some_ : 0 < buflen) (short : (cText cmd).length < buflen) :
    (fuji returnsLater).Stays buflen ((((r.store buflen 0 (snprintf buflen (cText cmd))).move
      (snprintf buflen (cText cmd)).length).write buflen (snprintf buflen (cText cmd)).length 1).returns (cText cmd).length) := by
  have whole : snprintf buflen (cText cmd) = cText cmd := List.take_of_length_le (by omega)
  have noNul : (cText cmd).takeWhile (· ≠ 0) = cText cmd := List.takeWhile_idem
  rw [whole]
  have stored : Sound (r.store buflen 0 (cText cmd)) :=
    ⟨(ready.1.toSound.write (by omega : 0 + (cText cmd).length ≤ buflen)).within, ready.1.forward⟩
  have sound := (stored.move (Int.natCast_nonneg (cText cmd).length)).write (by omega : (cText cmd).length + 1 ≤ buflen)
  refine ⟨⟨sound.within, sound.forward⟩, ?_⟩
  intro ret returned
  cases returned
  have bytes : ∀ r : UsbRun, r.stored = [] -> (r.store buflen 0 (cText cmd)).stored = cText cmd := by
    intro r none_
    unfold UsbRun.store
    rw [none_]
    rfl
  refine .inr ⟨by omega, ?_, ?_⟩
  · refine congrArg Int.ofNat (congrArg List.length ?_).symm
    exact (congrArg _ (bytes r ready.2)).trans noNul
  · refine Eq.subst (motive := fun text => text <+: _) ((congrArg _ (bytes r ready.2)).trans noNul).symm ?_
    exact List.prefix_append (cText cmd) _

theorem fujiSend_early {r : UsbRun} (ready : Ready r) : Settles Early (· = r) (fujiSend r writes) := by
  cases writes with
  | nil => exact ready.1.early
  | cons t writes =>
    rw [fujiSend]
    split
    next failed => exact ready.1.returns failed
    next => rfl

theorem fuji_tmp {r : UsbRun} (ready : Ready r) {count : Nat} (short : count ≤ 3) :
    Ready ((((r.fill 8).write 8 0 4).write 8 4 count).write 8 7 1) :=
  ⟨(((ready.1.fill 8).write (by decide)).write (by omega)).write (by decide), ready.2⟩

theorem fuji_reply {i : Nat} {r : UsbRun} (holds : Holds buflen i r) :
    (fuji returnsLater).Stays buflen (r.returns ((r.buf.take i).takeWhile (· ≠ 0)).length) := by
  have got : r.buf.take i = r.stored := by rw [holds.bytes, List.take_left' holds.count]
  have part := List.takeWhile_prefix (l := r.stored) (· ≠ 0)
  refine ⟨⟨holds.within, holds.forward⟩, ?_⟩
  intro ret returned
  cases returned
  rw [got]
  refine .inr ⟨?_, rfl, ?_⟩
  · have most := part.length_le
    rw [holds.count] at most
    exact Int.ofNat_le.mpr (Nat.le_trans most holds.fits)
  · have front : r.stored <+: r.buf := by
      rw [holds.bytes]
      exact List.prefix_append _ _
    exact part.trans front

theorem fuji_stays (room : 8 ≤ buflen) (most : buflen < intMax)
    (short : Echoed returnsLater cmd -> (cText cmd).length < buflen) :
    (fuji returnsLater).Stays buflen ((fuji returnsLater).command cmd buflen writes reads) := by
  by_cases echoed : Echoed returnsLater cmd
  · obtain ⟨r, ready, made⟩ := @fuji_echoed buflen cmd returnsLater writes reads most echoed
    rw [made]
    exact echo_stays ready (by omega) (short echoed)
  · have word : ¬ (fujiWord returnsLater cmd).length > 3 := mt (fujiWord_long returnsLater cmd).mp echoed
    have ready := fuji_tmp (fuji_start returnsLater cmd) (Nat.not_lt.mp word)
    rw [command, fujiCommand, capped_eq most]
    apply finish_stays
    dsimp only
    rw [if_neg word]
    refine settles_bind (fujiSend_early ready) ?_
    rintro _ rfl
    refine settles_bind (readChunks_early (ready.clear buflen) room reads) ?_
    intro got holds
    exact fuji_reply holds

theorem fuji_returns (room : 8 ≤ buflen) (most : buflen < intMax) (sends : 0 < writes.length) (gets : buflen < reads.length) :
    Returned ((fuji returnsLater).command cmd buflen writes reads) := by
  rw [command, fujiCommand, capped_eq most]
  apply finish_returned
  dsimp only
  split
  · exact rfl
  · cases writes with
    | nil => cases sends
    | cons t writes =>
      have sent (r : UsbRun) : Settles Returned (fun _ => True) (fujiSend r (t :: writes)) := by
        rw [fujiSend]
        split
        · exact rfl
        · trivial
      refine settles_bind (sent _) ?_
      intro r _
      refine settles_bind (readChunks_ends room (by omega)) ?_
      intro got _
      exact rfl

theorem echo_short {r : UsbRun} (ready : Ready r) (room : 8 ≤ buflen)
    (stays : (fuji returnsLater).Stays buflen ((((r.store buflen 0 (snprintf buflen (cText cmd))).move
      (snprintf buflen (cText cmd)).length).write buflen (snprintf buflen (cText cmd)).length 1).returns (cText cmd).length)) :
    (cText cmd).length < buflen := by
  by_contra long
  rcases stays.length _ rfl with failed | ⟨-, length, -⟩
  · omega
  · have stored : (r.stored ++ snprintf buflen (cText cmd)).length ≤ buflen - 1 := by
      rw [ready.2, List.nil_append, snprintf, List.length_take]
      exact Nat.min_le_left _ _
    have part := (List.takeWhile_prefix (l := r.stored ++ snprintf buflen (cText cmd)) (· ≠ 0)).length_le
    have same : (cText cmd).length = ((r.stored ++ snprintf buflen (cText cmd)).takeWhile (· ≠ 0)).length := Int.ofNat.inj length
    omega

end Fuji

section Sgs

-- The length byte of a report.
def leadByte (t : UsbTransfer) : Nat :=
  ((transferBytes 8 t).headD 0).toNat

inductive SgsReads (buflen : Nat) : Nat -> (Nat -> UsbTransfer) -> Prop where
  | full {i : Nat} {reads : Nat -> UsbTransfer} (full : buflen - 8 < i) : SgsReads buflen i reads
  | nothing {i : Nat} {reads : Nat -> UsbTransfer} (nothing : transferRet 8 (reads 0) ≤ 0) : SgsReads buflen i reads
  | report {i : Nat} {reads : Nat -> UsbTransfer} (some_ : 0 < transferRet 8 (reads 0)) (signed : leadByte (reads 0) < 128)
      (later : SgsReads buflen (i + min (leadByte (reads 0)) 7) fun k => reads (k + 1)) : SgsReads buflen i reads

inductive SgsSends (cmdlen : Nat) (Reads : Prop) : Nat -> (Nat -> UsbTransfer) -> Prop where
  | sent {i : Nat} {writes : Nat -> UsbTransfer} (sent : cmdlen ≤ i) (reads : Reads) : SgsSends cmdlen Reads i writes
  | fails {i : Nat} {writes : Nat -> UsbTransfer} (goes : i < cmdlen) (fails : transferRet 8 (writes 0) ≤ 0) :
      SgsSends cmdlen Reads i writes
  | chunk {i : Nat} {writes : Nat -> UsbTransfer} (goes : i < cmdlen) (some_ : 0 < transferRet 8 (writes 0))
      (later : SgsSends cmdlen Reads (i + ((transferRet 8 (writes 0)).toNat - 1)) fun k => writes (k + 1)) :
      SgsSends cmdlen Reads i writes

variable {buflen cmdlen i : Nat} {Reads : Prop} {reads writes : Nat -> UsbTransfer}

theorem padded_head {t : UsbTransfer} (some_ : 0 < transferRet 8 t) :
    (transferBytes 8 t ++ List.replicate 8 0).headD 0 = (transferBytes 8 t).headD 0 := by
  obtain ⟨ret, -⟩ := transferRet_bytes some_
  cases bytes : transferBytes 8 t with
  | nil =>
    rw [bytes] at ret
    rw [ret] at some_
    exact absurd some_ (by decide)
  | cons b rest => rfl

theorem sgsLength_signed {t : UsbTransfer} (some_ : 0 < transferRet 8 t) (signed : leadByte t < 128) :
    sgsLength (transferBytes 8 t ++ List.replicate 8 0) = (min (leadByte t) 7 : Nat) := by
  unfold sgsLength
  rw [padded_head some_]
  have value : charToInt ((transferBytes 8 t).headD 0) = leadByte t := if_pos signed
  rw [value]
  split <;> omega

theorem sgsLength_negative {t : UsbTransfer} (some_ : 0 < transferRet 8 t) (large : ¬ leadByte t < 128) :
    sgsLength (transferBytes 8 t ++ List.replicate 8 0) < 0 := by
  unfold sgsLength
  rw [padded_head some_]
  have bound := UInt8.toNat_lt ((transferBytes 8 t).headD 0)
  have value : charToInt ((transferBytes 8 t).headD 0) = (leadByte t : Int) - 256 := if_neg large
  rw [value]
  unfold leadByte at large ⊢
  split <;> omega

theorem sizeMove_forward {count : Nat} (small : i + count < 2 ^ 64) : sizeMove i (count : Int) = i + count := by
  unfold sizeMove
  omega

theorem not_timeout {t : UsbTransfer} (some_ : 0 < transferRet 8 t) : t ≠ .error .timeout := by
  rintro rfl
  exact absurd some_ (by decide)

def sgsReport (buflen i : Nat) (t : UsbTransfer) (r : UsbRun) : UsbRun :=
  let tmp := transferBytes 8 t ++ List.replicate 8 0
  let r := (r.fill smallbuf).write smallbuf 0 8
  ((if sgsLength tmp > 0 then r.store buflen i (tmp.tail.take (sgsLength tmp).toNat) else r).fill smallbuf).move (sgsLength tmp)

theorem sgsRead_report {r : UsbRun} {t : UsbTransfer} {rest : List UsbTransfer} (goes : i ≤ buflen - 8)
    (some_ : 0 < transferRet 8 t) : sgsRead buflen i r (t :: rest) =
      sgsRead buflen (sizeMove i (sgsLength (transferBytes 8 t ++ List.replicate 8 0))) (sgsReport buflen i t r) rest := by
  rw [sgsRead, if_pos goes]
  dsimp only
  rw [if_neg (not_timeout some_), if_neg (Int.not_le.mpr some_)]
  rfl

theorem report_holds {r : UsbRun} {t : UsbTransfer} (holds : Holds buflen i r) (room : 8 ≤ buflen) (goes : i ≤ buflen - 8)
    (some_ : 0 < transferRet 8 t) (signed : leadByte t < 128) :
    Holds buflen (i + min (leadByte t) 7) (sgsReport buflen i t r) := by
  have read := (holds.fill smallbuf).write (by decide : 0 + 8 ≤ smallbuf)
  unfold sgsReport
  dsimp only
  rw [sgsLength_signed some_ signed, Int.toNat_natCast]
  refine Holds.move (Holds.fill ?_ smallbuf) (Int.natCast_nonneg _)
  split
  next positive =>
    have bytes : ((transferBytes 8 t ++ List.replicate 8 0).tail.take (min (leadByte t) 7)).length = min (leadByte t) 7 := by
      rw [List.length_take_of_le]
      rw [List.length_tail, List.length_append, List.length_replicate]
      omega
    have stored := @Holds.store _ buflen i read _ (Nat.le_trans (Nat.le_of_eq (congrArg (i + ·) bytes)) (by omega))
    rwa [bytes] at stored
  next none_ =>
    have zero : min (leadByte t) 7 = 0 := by omega
    rw [zero]
    exact read

theorem sgsRead_full (full : ¬ i ≤ buflen - 8) (r : UsbRun) (reads : List UsbTransfer) : sgsRead buflen i r reads = .ok (i, r) := by
  cases reads <;> rw [sgsRead, if_neg full]

theorem sgsSend_whole (sent : cmdlen ≤ i) (r : UsbRun) (writes : List UsbTransfer) : sgsSend cmdlen i r writes = .ok r := by
  cases writes <;> rw [sgsSend, if_pos sent]

def sgsChunk (cmdlen i : Nat) (r : UsbRun) : UsbRun :=
  ((r.fill smallbuf).write smallbuf 0 1).write smallbuf 1 (if cmdlen - i < 7 then cmdlen - i else 7)

theorem sgsSend_chunk (goes : ¬ cmdlen ≤ i) (r : UsbRun) (t : UsbTransfer) (rest : List UsbTransfer) :
    sgsSend cmdlen i r (t :: rest) =
      if transferRet 8 t ≤ 0 then .error ((sgsChunk cmdlen i r).returns (transferRet 8 t))
      else sgsSend cmdlen (i + ((transferRet 8 t).toNat - 1)) (sgsChunk cmdlen i r) rest := by
  rw [sgsSend, if_neg goes]
  rfl

theorem sgsRead_holds (lengths : SgsReads buflen i reads) (room : 8 ≤ buflen) (most : buflen < intMax) (n : Nat) {r : UsbRun}
    (holds : Holds buflen i r) : Settles Early (fun got => Holds buflen got.1 got.2) (sgsRead buflen i r (upto n reads)) := by
  induction lengths generalizing n r with
  | @full i reads full =>
    rw [sgsRead_full (Nat.not_le.mpr full)]
    exact holds
  | @nothing i reads nothing =>
    cases n with
    | zero =>
      rw [upto, sgsRead]
      split
      · exact holds.toBegun.early
      · exact holds
    | succ n =>
      have read := (holds.fill smallbuf).write (by decide : 0 + 8 ≤ smallbuf)
      rw [upto, sgsRead]
      split
      · dsimp only
        split
        next => exact read
        next => exact read.toBegun.returns nothing
      · exact holds
  | @report i reads some_ signed later ih =>
    by_cases goes : i ≤ buflen - 8
    · cases n with
      | zero =>
        rw [upto, sgsRead, if_pos goes]
        exact holds.toBegun.early
      | succ n =>
        have small : i + min (leadByte (reads 0)) 7 < 2 ^ 64 := by
          unfold intMax at most
          omega
        rw [upto, sgsRead_report goes some_, sgsLength_signed some_ signed, sizeMove_forward small]
        exact ih n (report_holds holds room goes some_ signed)
    · rw [sgsRead_full goes]
      exact holds

theorem sgsRead_ends (lengths : SgsReads buflen i reads) (room : 8 ≤ buflen) (most : buflen < intMax) :
    ∃ enough, ∀ n, enough ≤ n -> ∀ r, Settles Returned (fun _ => True) (sgsRead buflen i r (upto n reads)) := by
  induction lengths with
  | @full i reads full =>
    refine ⟨0, fun n _ r => ?_⟩
    rw [sgsRead_full (Nat.not_le.mpr full)]
    trivial
  | @nothing i reads nothing =>
    refine ⟨1, fun n enough r => ?_⟩
    obtain ⟨n, rfl⟩ := Nat.exists_eq_succ_of_ne_zero (Nat.ne_of_gt enough)
    by_cases goes : i ≤ buflen - 8
    · rw [Nat.succ_eq_add_one, upto, sgsRead, if_pos goes]
      dsimp only
      split
      · trivial
      · exact rfl
    · rw [sgsRead_full goes]
      trivial
  | @report i reads some_ signed later ih =>
    obtain ⟨enough, ends⟩ := ih
    refine ⟨enough + 1, fun n most_ r => ?_⟩
    obtain ⟨n, rfl⟩ := Nat.exists_eq_succ_of_ne_zero (by omega : n ≠ 0)
    by_cases goes : i ≤ buflen - 8
    · have small : i + min (leadByte (reads 0)) 7 < 2 ^ 64 := by
        unfold intMax at most
        omega
      rw [Nat.succ_eq_add_one, upto, sgsRead_report goes some_, sgsLength_signed some_ signed, sizeMove_forward small]
      exact ends n (by omega) _
    · rw [sgsRead_full goes]
      trivial

theorem sgsSend_sent (sends : SgsSends cmdlen Reads i writes) (n : Nat) (r : UsbRun) :
    Settles (fun _ => True) (fun _ => Reads) (sgsSend cmdlen i r (upto n writes)) := by
  induction sends generalizing n r with
  | @sent i writes sent reads =>
    rw [sgsSend_whole sent]
    exact reads
  | @fails i writes goes fails =>
    cases n with
    | zero =>
      rw [upto, sgsSend, if_neg (Nat.not_le.mpr goes)]
      trivial
    | succ n =>
      rw [upto, sgsSend_chunk (Nat.not_le.mpr goes), if_pos fails]
      trivial
  | @chunk i writes goes some_ later ih =>
    cases n with
    | zero =>
      rw [upto, sgsSend, if_neg (Nat.not_le.mpr goes)]
      trivial
    | succ n =>
      rw [upto, sgsSend_chunk (Nat.not_le.mpr goes), if_neg (Int.not_le.mpr some_)]
      exact ih n _

theorem sgsSend_ends (sends : SgsSends cmdlen Reads i writes) :
    ∃ enough, ∀ n, enough ≤ n -> ∀ r, Settles Returned (fun _ => True) (sgsSend cmdlen i r (upto n writes)) := by
  induction sends with
  | @sent i writes sent reads =>
    refine ⟨0, fun n _ r => ?_⟩
    rw [sgsSend_whole sent]
    trivial
  | @fails i writes goes fails =>
    refine ⟨1, fun n enough r => ?_⟩
    obtain ⟨n, rfl⟩ := Nat.exists_eq_succ_of_ne_zero (Nat.ne_of_gt enough)
    rw [Nat.succ_eq_add_one, upto, sgsSend_chunk (Nat.not_le.mpr goes), if_pos fails]
    exact rfl
  | @chunk i writes goes some_ later ih =>
    obtain ⟨enough, ends⟩ := ih
    refine ⟨enough + 1, fun n most r => ?_⟩
    obtain ⟨n, rfl⟩ := Nat.exists_eq_succ_of_ne_zero (by omega : n ≠ 0)
    rw [Nat.succ_eq_add_one, upto, sgsSend_chunk (Nat.not_le.mpr goes), if_neg (Int.not_le.mpr some_)]
    exact ends n (by omega) _

def Forwards (r : UsbRun) : Prop :=
  Returned r ∧ ∀ move ∈ r.moves, 0 ≤ move

theorem sgsRead_moves (i : Nat) (r : UsbRun) (reads : List UsbTransfer) :
    Settles (fun last => r.moves ⊆ last.moves) (fun got => r.moves ⊆ got.2.moves) (sgsRead buflen i r reads) := by
  induction reads generalizing i r with
  | nil =>
    rw [sgsRead]
    split <;> exact List.Subset.refl _
  | cons t reads ih =>
    rw [sgsRead]
    split
    · dsimp only
      split
      · exact List.Subset.refl _
      · split
        · exact List.Subset.refl _
        · have moved : r.moves ⊆ (sgsReport buflen i t r).moves := by
            unfold sgsReport
            dsimp only
            split <;> exact List.subset_append_left _ _
          exact settles_mono (ih _ (sgsReport buflen i t r)) (fun _ later => List.Subset.trans moved later)
            fun _ later => List.Subset.trans moved later
    · exact List.Subset.refl _

theorem report_ret {r : UsbRun} {t : UsbTransfer} (waits : r.ret = none) : (sgsReport buflen i t r).ret = none := by
  unfold sgsReport
  dsimp only
  split <;> exact waits

theorem report_move {r : UsbRun} {t : UsbTransfer} :
    sgsLength (transferBytes 8 t ++ List.replicate 8 0) ∈ (sgsReport buflen i t r).moves :=
  List.mem_append_right _ (List.mem_singleton.mpr rfl)

theorem not_returned {r : UsbRun} (waits : r.ret = none) : ¬ Returned r := by
  unfold Returned
  rw [waits]
  exact Bool.false_ne_true

theorem reads_forwards {rest : Nat × UsbRun -> Going UsbRun} (keeps : ∀ got, got.2.moves ⊆ (finish (rest got)).moves)
    (small : buflen < intMax) {n : Nat} {r : UsbRun} (waits : r.ret = none)
    (forwards : Forwards (finish (sgsRead buflen i r (upto n reads) >>= rest))) : SgsReads buflen i reads := by
  induction n generalizing i r reads with
  | zero =>
    by_cases goes : i ≤ buflen - 8
    · rw [upto, sgsRead, if_pos goes] at forwards
      exact absurd forwards.1 (not_returned waits)
    · exact .full (Nat.not_le.mp goes)
  | succ n ih =>
    by_cases goes : i ≤ buflen - 8
    · by_cases some_ : 0 < transferRet 8 (reads 0)
      · rw [upto, sgsRead_report goes some_] at forwards
        have signed : leadByte (reads 0) < 128 := by
          by_contra large
          have backwards := sgsLength_negative some_ large
          have moved : (sgsReport buflen i (reads 0) r).moves ⊆ (finish (sgsRead buflen
              (sizeMove i (sgsLength (transferBytes 8 (reads 0) ++ List.replicate 8 0))) (sgsReport buflen i (reads 0) r)
              (upto n fun k => reads (k + 1)) >>= rest)).moves := by
            have kept := @sgsRead_moves buflen (sizeMove i (sgsLength (transferBytes 8 (reads 0) ++ List.replicate 8 0)))
              (sgsReport buflen i (reads 0) r) (upto n fun k => reads (k + 1))
            revert kept
            generalize sgsRead buflen _ _ _ = going
            intro kept
            cases going with
            | error last => exact kept
            | ok got => exact List.Subset.trans kept (keeps got)
          have := forwards.2 _ (moved report_move)
          omega
        have below : i + min (leadByte (reads 0)) 7 < 2 ^ 64 := by
          unfold intMax at small
          omega
        rw [sgsLength_signed some_ signed, sizeMove_forward below] at forwards
        exact .report some_ signed (ih (report_ret waits) forwards)
      · exact .nothing (Int.not_lt.mp some_)
    · exact .full (Nat.not_le.mp goes)

theorem sends_forwards {rest : UsbRun -> Going UsbRun} (gives : ∀ r, r.ret = none -> Forwards (finish (rest r)) -> Reads) {n : Nat}
    {r : UsbRun} (waits : r.ret = none) (forwards : Forwards (finish (sgsSend cmdlen i r (upto n writes) >>= rest))) :
    SgsSends cmdlen Reads i writes := by
  induction n generalizing i r writes with
  | zero =>
    by_cases sent : cmdlen ≤ i
    · rw [sgsSend_whole sent] at forwards
      exact .sent sent (gives r waits forwards)
    · rw [upto, sgsSend, if_neg sent] at forwards
      exact absurd forwards.1 (not_returned waits)
  | succ n ih =>
    by_cases sent : cmdlen ≤ i
    · rw [sgsSend_whole sent] at forwards
      exact .sent sent (gives r waits forwards)
    · by_cases failed : transferRet 8 (writes 0) ≤ 0
      · exact .fails (Nat.not_le.mp sent) failed
      · rw [upto, sgsSend_chunk sent, if_neg failed] at forwards
        exact .chunk (Nat.not_le.mp sent) (Int.not_le.mp failed) (ih (by exact waits) forwards)

variable {cmd : CString}

theorem sgs_stays (sends : SgsSends cmd.length (SgsReads buflen 0 reads) 0 writes) (room : 8 ≤ buflen) (most : buflen < intMax)
    (n : Nat) : sgs.Stays buflen (sgs.command cmd buflen (upto n writes) (upto n reads)) := by
  rw [command, sgsCommand, capped_eq most]
  apply finish_stays
  have sent := settles_and (sgsSend_early ready_start cmd.length 0 (upto n writes)) (sgsSend_sent sends n .start)
  refine settles_bind (settles_mono sent (fun _ both => both.1) fun _ both => both) ?_
  rintro r ⟨ready, lengths⟩
  refine settles_bind (sgsRead_holds lengths room most n (ready.clear buflen)) ?_
  intro got holds
  exact (addCr_holds holds).stays most fun _ => rfl

theorem sgs_returns (sends : SgsSends cmd.length (SgsReads buflen 0 reads) 0 writes) (room : 8 ≤ buflen)
    (most : buflen < intMax) : ∃ n, Returned (sgs.command cmd buflen (upto n writes) (upto n reads)) := by
  obtain ⟨first, sendsAll⟩ := sgsSend_ends sends
  have returns (n : Nat) (enough : first ≤ n) (readsAll : SgsReads buflen 0 reads ->
      ∀ r, Settles Returned (fun _ => True) (sgsRead buflen 0 r (upto n reads))) :
      Returned (sgs.command cmd buflen (upto n writes) (upto n reads)) := by
    rw [command, sgsCommand, capped_eq most]
    apply finish_returned
    have sent := settles_and (sendsAll n enough .start) (sgsSend_sent sends n .start)
    refine settles_bind (settles_mono sent (fun _ both => both.1) fun _ both => both.2) ?_
    intro r lengths
    refine settles_bind (readsAll lengths _) ?_
    intro got _
    exact rfl
  by_cases lengths : SgsReads buflen 0 reads
  · obtain ⟨second, readsAll⟩ := sgsRead_ends lengths room most
    exact ⟨max first second, returns _ (Nat.le_max_left _ _) fun _ => readsAll _ (Nat.le_max_right _ _)⟩
  · exact ⟨first, returns first (Nat.le_refl _) fun here => absurd here lengths⟩

theorem addCr_moves (i : Nat) (r : UsbRun) : r.moves ⊆ (addCr buflen i r).2.moves := by
  unfold addCr
  split
  · exact List.subset_append_left _ _
  · exact List.Subset.refl _

theorem sgs_sends (most : buflen < intMax) {n : Nat}
    (forwards : Forwards (sgs.command cmd buflen (upto n writes) (upto n reads))) :
    SgsSends cmd.length (SgsReads buflen 0 reads) 0 writes := by
  rw [command, sgsCommand, capped_eq most] at forwards
  refine sends_forwards ?_ rfl forwards
  intro r waits later
  refine reads_forwards ?_ most ?_ later
  · intro got
    exact addCr_moves got.1 got.2
  · exact waits

end Sgs

section Transports

def Suits (t : Transport) (cmd : CString) (buflen : Nat) (writes reads : Nat -> UsbTransfer) : Prop :=
  match t with
  | sgs => SgsSends cmd.length (SgsReads buflen 0 reads) 0 writes
  | fuji returnsLater => Echoed returnsLater cmd -> (cText cmd).length < buflen
  | _ => True

variable {buflen : Nat}

theorem stays_of_returns {t : Transport} {cmd : CString} {writes reads : Nat -> UsbTransfer}
    (stays : ∀ writes reads : List UsbTransfer, t.Stays buflen (t.command cmd buflen writes reads))
    (returns : ∀ writes reads : List UsbTransfer, smallbuf ≤ writes.length -> buflen + cypressFlushReports + 1 < reads.length ->
      Returned (t.command cmd buflen writes reads)) : t.StaysInside cmd buflen writes reads := by
  refine ⟨fun n => stays _ _, buflen + smallbuf + cypressFlushReports + 2, returns _ _ ?_ ?_⟩
  · rw [upto_length]
    omega
  · rw [upto_length]
    unfold smallbuf
    omega

-- Every transport stays inside of its buffers, but for lengths that a device or a command sets.
theorem stays_inside_iff (t : Transport) (cmd : CString) (room : 8 ≤ buflen) (most : buflen < intMax)
    (writes reads : Nat -> UsbTransfer) : t.StaysInside cmd buflen writes reads ↔ t.Suits cmd buflen writes reads := by
  cases t with
  | cypress quirk late =>
    exact iff_of_true (stays_of_returns (fun _ _ => cypress_stays quirk late room most)
      fun _ _ sends gets => cypress_returns quirk late room most sends gets) trivial
  | phoenix =>
    exact iff_of_true (stays_of_returns (fun _ _ => phoenix_stays room most)
      fun _ _ sends gets => phoenix_returns room most sends (by unfold cypressFlushReports at gets; omega)) trivial
  | ippon =>
    exact iff_of_true (stays_of_returns (fun _ _ => ippon_stays room most)
      fun _ _ sends gets => ippon_returns (by unfold smallbuf at sends; omega) (by omega)) trivial
  | omron =>
    exact iff_of_true (stays_of_returns (fun _ _ => omron_stays room most)
      fun _ _ sends gets => omron_returns (by unfold smallbuf at sends; omega) (by omega)) trivial
  | sgs =>
    constructor
    · rintro ⟨stays, n, returned⟩
      exact sgs_sends most ⟨returned, (stays n).forward⟩
    · intro sends
      exact ⟨sgs_stays sends room most, sgs_returns sends room most⟩
  | fuji returnsLater =>
    constructor
    · rintro ⟨stays, -⟩ echoed
      obtain ⟨r, ready, made⟩ := @fuji_echoed buflen cmd returnsLater (upto 0 writes) (upto 0 reads) most echoed
      exact echo_short ready room (made ▸ stays 0)
    · intro short
      exact stays_of_returns (fun _ _ => fuji_stays room most short)
        fun _ _ sends gets => fuji_returns room most (by unfold smallbuf at sends; omega) (by omega)

theorem stays_inside_sgs : sgs.StaysInside (cstr "Q1\r") 16 (fun _ => .ok (List.replicate 8 0))
    fun k => if k = 0 then .ok (3 :: cstr "(22\r   ") else .error .timeout := by
  refine (stays_inside_iff sgs _ (by decide) (by decide) _ _).mpr ?_
  exact .chunk (by decide) (by decide) (.sent (by decide) (.report (by decide) (by decide) (.nothing (by decide))))

-- A length byte of 254 is taken for -2.
theorem sgs_backwards : ¬ sgs.StaysInside (cstr "Q1\r") 16 (fun _ => .ok (List.replicate 8 0))
    fun k => if k = 0 then .ok (3 :: cstr "(22    ") else .ok (254 :: cstr "(22    ") := by
  rintro ⟨stays, -⟩
  exact absurd ((stays 2).forward (-2) (by decide)) (by decide)

end Transports

end Nut.Transport
