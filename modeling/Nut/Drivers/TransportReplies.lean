import Nut.Drivers.TransportBounds

set_option autoImplicit false

namespace Nut.Transport

def upto : Nat -> (Nat -> UsbTransfer) -> List UsbTransfer
  | 0, _ => []
  | n + 1, results => results 0 :: upto n fun k => results (k + 1)

theorem upto_length (n : Nat) (results : Nat -> UsbTransfer) : (upto n results).length = n := by
  induction n generalizing results with
  | zero => rfl
  | succ n ih => rw [upto, List.length_cons, ih]

def reply : Transport -> CString -> CString
  | fuji _, stored => stored.takeWhile (· ≠ 0)
  | _, stored => stored

-- All is inside of the arrays, and what is returned is an error or the length of the reply in `buf`.
structure Stays (t : Transport) (buflen : Nat) (r : UsbRun) : Prop extends Sound r where
  length : ∀ ret, r.ret = some ret ->
    ret ≤ 0 ∨ ret ≤ buflen ∧ ret = (t.reply r.stored).length ∧ t.reply r.stored <+: r.buf

def StaysInside (t : Transport) (cmd : CString) (buflen : Nat) (writes reads : Nat -> UsbTransfer) : Prop :=
  (∀ n, t.Stays buflen (t.command cmd buflen (upto n writes) (upto n reads))) ∧
    ∃ n, (t.command cmd buflen (upto n writes) (upto n reads)).ret.isSome = true

section Returns

variable {t : Transport} {buflen i : Nat} {r : UsbRun}

theorem Early.stays (early : Early r) : t.Stays buflen r :=
  ⟨early.toSound, fun ret returned => .inl (early.failed ret returned)⟩

theorem finish_stays {going : Going UsbRun} (settles : Settles Early (t.Stays buflen) going) : t.Stays buflen (finish going) := by
  cases going with
  | error r => exact settles.stays
  | ok r => exact settles

def Returned (r : UsbRun) : Prop :=
  r.ret.isSome = true

theorem finish_returned {going : Going UsbRun} (settles : Settles Returned Returned going) : Returned (finish going) := by
  cases going <;> exact settles

theorem capped_eq (most : buflen < intMax) : capped buflen = buflen := if_neg (by omega)

theorem lastRet_eq (most : buflen < intMax) (fits : i ≤ buflen) : lastRet i = i := if_neg (by omega)

theorem Holds.stays (holds : Holds buflen i r) (most : buflen < intMax) (whole : ∀ stored, t.reply stored = stored) :
    t.Stays buflen (r.returns (lastRet i)) := by
  refine ⟨⟨holds.within, holds.forward⟩, ?_⟩
  intro ret returned
  cases returned
  rw [lastRet_eq most holds.fits, whole]
  refine .inr ⟨Int.ofNat_le.mpr holds.fits, congrArg Int.ofNat holds.count.symm, ?_⟩
  have buf : r.stored <+: r.buf := by
    rw [holds.bytes]
    exact List.prefix_append _ _
  exact buf

end Returns

section Ends

variable {buflen : Nat}

theorem sendChunks_ends {tmplen i : Nat} {r : UsbRun} {writes : List UsbTransfer} (enough : tmplen ≤ i + writes.length) :
    Settles Returned (fun _ => True) (sendChunks tmplen r i writes) := by
  induction writes generalizing i with
  | nil =>
    rw [List.length_nil, Nat.add_zero] at enough
    rw [sendChunks, if_pos enough]
    trivial
  | cons t writes ih =>
    rw [List.length_cons] at enough
    rw [sendChunks]
    split
    · trivial
    · split
      next => rfl
      next some_ => exact ih (by omega)

theorem omronSend_ends {tmplen i : Nat} {r : UsbRun} {writes : List UsbTransfer} (enough : tmplen ≤ i + writes.length) :
    Settles Returned (fun _ => True) (omronSend tmplen r i writes) := by
  induction writes generalizing i with
  | nil =>
    rw [List.length_nil, Nat.add_zero] at enough
    rw [omronSend, if_pos enough]
    trivial
  | cons t writes ih =>
    rw [List.length_cons] at enough
    rw [omronSend]
    split
    · trivial
    · split
      next => rfl
      next =>
        split
        next => rfl
        next => exact ih (by unfold omronReportSize; omega)

theorem drain_ends {late : Nat -> Bool} {left i : Nat} {r : UsbRun} {reads : List UsbTransfer} (enough : left ≤ reads.length) :
    Settles Returned (fun _ => True) (drain late left i r reads) := by
  induction left generalizing i r reads with
  | zero => trivial
  | succ left ih =>
    cases reads with
    | nil => cases enough
    | cons t reads =>
      rw [drain]
      split
      · trivial
      · split
        next => rfl
        next =>
          split
          next => rfl
          next => exact ih (Nat.le_of_succ_le_succ enough)

theorem flush_ends {left : Nat} {r : UsbRun} {reads : List UsbTransfer} (enough : left ≤ reads.length) :
    Settles Returned (fun _ => True) (flush left r reads) := by
  induction left generalizing r reads with
  | zero => trivial
  | succ left ih =>
    cases reads with
    | nil => cases enough
    | cons t reads =>
      rw [flush]
      split
      · trivial
      · exact ih (Nat.le_of_succ_le_succ enough)

theorem readChunks_ends {i : Nat} {r : UsbRun} {reads : List UsbTransfer} (room : 8 ≤ buflen)
    (enough : buflen < i + reads.length + 8) : Settles Returned (fun _ => True) (readChunks buflen i r reads) := by
  induction reads generalizing i r with
  | nil =>
    rw [List.length_nil, Nat.add_zero] at enough
    rw [readChunks, if_neg (fun goes => by have := goes.1; omega)]
    trivial
  | cons t reads ih =>
    rw [List.length_cons] at enough
    rw [readChunks]
    split
    next =>
      dsimp only
      split
      next => rfl
      next => exact ih (by omega)
    next => trivial

end Ends

section Chunks

variable {buflen : Nat} {cmd : CString} {writes reads : List UsbTransfer}

theorem Ready.clear {r : UsbRun} (ready : Ready r) (buflen : Nat) : Holds buflen 0 (r.clear buflen) :=
  ready.1.clear ready.2 buflen

theorem ready_start : Ready .start := ⟨begun_start, rfl⟩

theorem ready_tmp {r : UsbRun} (ready : Ready r) {room count : Nat} (fits : count ≤ room) :
    Ready ((r.fill room).write room 0 count) := ⟨(ready.1.fill room).write (by omega), ready.2⟩

theorem chunks_stay {t : Transport} {r : UsbRun} (ready : Ready r) (room : 8 ≤ buflen) (most : buflen < intMax)
    (whole : ∀ stored, t.reply stored = stored) : Settles Early (t.Stays buflen) (do
      let r <- sendChunks (min cmd.length smallbuf) ((r.fill smallbuf).write smallbuf 0 (min cmd.length smallbuf)) 0 writes
      let got <- readChunks buflen 0 (r.clear buflen) reads
      .ok (got.2.returns (lastRet got.1))) := by
  have ready' := ready_tmp ready (Nat.min_le_right cmd.length smallbuf)
  refine settles_bind (sendChunks_early ready'.1 _ 0 writes) ?_
  rintro _ rfl
  refine settles_bind (readChunks_early (ready'.clear buflen) room reads) ?_
  intro got holds
  exact holds.stays most whole

theorem chunks_return {r : UsbRun} (room : 8 ≤ buflen) (sends : smallbuf ≤ writes.length) (gets : buflen < reads.length) :
    Settles Returned Returned (do
      let r <- sendChunks (min cmd.length smallbuf) ((r.fill smallbuf).write smallbuf 0 (min cmd.length smallbuf)) 0 writes
      let got <- readChunks buflen 0 (r.clear buflen) reads
      .ok (got.2.returns (lastRet got.1))) := by
  refine settles_bind (sendChunks_ends (by omega)) ?_
  intro r _
  refine settles_bind (readChunks_ends room (by omega)) ?_
  intro got _
  exact rfl

theorem cypress_stays (quirk : Bool) (late : Nat -> Bool) (room : 8 ≤ buflen) (most : buflen < intMax) :
    (cypress quirk late).Stays buflen ((cypress quirk late).command cmd buflen writes reads) := by
  rw [command, cypressCommand, capped_eq most]
  apply finish_stays
  have idle : Settles Early (fun got => Ready got.1) (cypressIdle late quirk reads) := by
    unfold cypressIdle
    split
    · exact settles_mono (drain_early ready_start late _ 0 reads) (fun _ early => early) fun _ both => both.1
    · exact ready_start
  exact settles_bind idle fun got ready => chunks_stay ready room most fun _ => rfl

theorem cypress_returns (quirk : Bool) (late : Nat -> Bool) (room : 8 ≤ buflen) (most : buflen < intMax)
    (sends : smallbuf ≤ writes.length) (gets : buflen + cypressFlushReports + 1 < reads.length) :
    Returned ((cypress quirk late).command cmd buflen writes reads) := by
  rw [command, cypressCommand, capped_eq most]
  apply finish_returned
  have idle : Settles Returned (fun got => reads.length ≤ got.2.length + (cypressFlushReports + 1)) (cypressIdle late quirk reads) := by
    unfold cypressIdle
    split
    · have ends : Settles Returned (fun _ => True) (drain late (cypressFlushReports + 1) 0 .start reads) :=
        drain_ends (by omega)
      refine settles_mono (settles_and ends (drain_early ready_start late _ 0 reads)) (fun _ both => both.1) fun _ both => both.2.2
    · exact Nat.le_add_right _ _
  exact settles_bind idle fun got rest => chunks_return room sends (by omega)

theorem phoenix_stays (room : 8 ≤ buflen) (most : buflen < intMax) :
    phoenix.Stays buflen (phoenix.command cmd buflen writes reads) := by
  rw [command, phoenixCommand, capped_eq most]
  apply finish_stays
  have filled : Ready (UsbRun.start.fill smallbuf) := ⟨begun_start.fill smallbuf, rfl⟩
  exact settles_bind (flush_early filled 8 reads) fun got both => chunks_stay both.1 room most fun _ => rfl

theorem phoenix_returns (room : 8 ≤ buflen) (most : buflen < intMax) (sends : smallbuf ≤ writes.length)
    (gets : buflen + 8 < reads.length) : Returned (phoenix.command cmd buflen writes reads) := by
  rw [command, phoenixCommand, capped_eq most]
  apply finish_returned
  have filled : Ready (UsbRun.start.fill smallbuf) := ⟨begun_start.fill smallbuf, rfl⟩
  have ends : Settles Returned (fun _ => True) (flush 8 (UsbRun.start.fill smallbuf) reads) := flush_ends (by omega)
  refine settles_bind (settles_mono (settles_and ends (flush_early filled 8 reads)) (fun _ both => both.1) fun _ both => both.2.2) ?_
  intro got rest
  exact chunks_return room sends (by omega)

end Chunks

section Whole

variable {buflen : Nat} {cmd : CString} {writes reads : List UsbTransfer}

theorem nulLength_le (received : CString) : nulLength received ≤ received.length := by
  unfold nulLength
  split
  next found => exact Nat.le_of_lt (List.idxOf_lt_length_iff.mpr found)
  next => exact Nat.le_refl _

theorem ipponLength_le (received : CString) : ipponLength received ≤ received.length := by
  unfold ipponLength
  split
  next found => exact List.idxOf_lt_length_iff.mpr found
  next => exact nulLength_le received

theorem omronCrLength_le (received : CString) (i : Nat) : omronCrLength received i ≤ i + received.length := by
  induction received generalizing i with
  | nil => exact Nat.zero_le _
  | cons b received ih =>
    rw [omronCrLength, List.length_cons]
    split
    · have later := ih (i + 1)
      omega
    · omega

theorem omronLength_le (received : CString) : omronLength received ≤ received.length := by
  unfold omronLength
  split
  · exact nulLength_le received
  · have all := omronCrLength_le received 0
    omega

theorem storeWhole_stays {t : Transport} {r : UsbRun} (ready : Ready r) (room : 8 ≤ buflen) (most : buflen < intMax)
    (whole : ∀ stored, t.reply stored = stored) {len : Nat} {received : CString} (has : len ≤ received.length) :
    t.Stays buflen (storeWhole buflen len received r) := by
  unfold storeWhole
  dsimp only
  have fits : (if len < buflen then len else buflen - 1) ≤ buflen ∧ (if len < buflen then len else buflen - 1) ≤ received.length := by
    split <;> omega
  generalize (if len < buflen then len else buflen - 1) = count at fits
  have bytes : (received.take count).length = count := List.length_take_of_le fits.2
  have cleared : Holds buflen 0 (r.clear buflen) := ready.clear buflen
  have stored : Holds buflen (0 + (received.take count).length) ((r.clear buflen).store buflen 0 (received.take count)) :=
    cleared.store (by rw [bytes]; omega)
  rw [bytes, Nat.zero_add] at stored
  exact (addCr_holds (stored.move (Int.natCast_nonneg count))).stays most whole

theorem readWhole_ends {r : UsbRun} (some_ : 0 < reads.length) : Settles Returned (fun _ => True) (readWhole r reads) := by
  cases reads with
  | nil => cases some_
  | cons t reads =>
    rw [readWhole]
    split
    next => rfl
    next => trivial

theorem ippon_stays (room : 8 ≤ buflen) (most : buflen < intMax) :
    ippon.Stays buflen (ippon.command cmd buflen writes reads) := by
  rw [command, ipponCommand, capped_eq most]
  apply finish_stays
  have ready := ready_tmp ready_start (Nat.min_le_right cmd.length 64)
  refine settles_bind (sendChunks_early ready.1 _ 0 writes) ?_
  rintro _ rfl
  refine settles_bind (readWhole_early ready reads) ?_
  intro got both
  exact storeWhole_stays both.1 room most (fun _ => rfl) (ipponLength_le got.1)

theorem omron_stays (room : 8 ≤ buflen) (most : buflen < intMax) :
    omron.Stays buflen (omron.command cmd buflen writes reads) := by
  rw [command, omronCommand, capped_eq most]
  apply finish_stays
  have ready := ready_tmp ready_start (Nat.min_le_right cmd.length 64)
  refine settles_bind (omronSend_early ready.1 _ 0 writes) ?_
  rintro _ rfl
  refine settles_bind (readWhole_early ready reads) ?_
  intro got both
  exact storeWhole_stays both.1 room most (fun _ => rfl) (omronLength_le got.1)

theorem ippon_returns (sends : 64 ≤ writes.length) (gets : 0 < reads.length) :
    Returned (ippon.command cmd buflen writes reads) := by
  rw [command, ipponCommand]
  apply finish_returned
  refine settles_bind (sendChunks_ends (by omega)) ?_
  intro r _
  refine settles_bind (readWhole_ends gets) ?_
  intro got _
  exact rfl

theorem omron_returns (sends : 64 ≤ writes.length) (gets : 0 < reads.length) :
    Returned (omron.command cmd buflen writes reads) := by
  rw [command, omronCommand]
  apply finish_returned
  refine settles_bind (omronSend_ends (by omega)) ?_
  intro r _
  refine settles_bind (readWhole_ends gets) ?_
  intro got _
  exact rfl

end Whole

end Nut.Transport
