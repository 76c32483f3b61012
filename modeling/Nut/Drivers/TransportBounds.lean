import Nut.Drivers.UsbTransports
import Nut.Library.Checked

set_option autoImplicit false

namespace Nut.Transport

section Runs

structure Sound (r : UsbRun) : Prop where
  within : ∀ w ∈ r.writes, w.start + w.count ≤ w.room
  forward : ∀ move ∈ r.moves, 0 ≤ move

structure Begun (r : UsbRun) : Prop extends Sound r where
  waits : r.ret = none

structure Early (r : UsbRun) : Prop extends Sound r where
  failed : ∀ ret, r.ret = some ret -> ret ≤ 0

-- The reply up to now is at the start of `buf`, with NULs behind it.
structure Holds (buflen i : Nat) (r : UsbRun) : Prop extends Begun r where
  count : r.stored.length = i
  fits : i ≤ buflen
  bytes : r.buf = r.stored ++ List.replicate (buflen - i) 0

theorem begun_start : Begun .start := ⟨⟨by simp [UsbRun.start], by simp [UsbRun.start]⟩, rfl⟩

variable {r : UsbRun}

theorem Sound.write (sound : Sound r) {room start count : Nat} (inside : start + count ≤ room) :
    Sound (r.write room start count) := by
  refine ⟨?_, sound.forward⟩
  intro w member
  rcases List.mem_append.mp member with earlier | last
  · exact sound.within w earlier
  · rw [List.mem_singleton.mp last]
    exact inside

theorem Sound.move (sound : Sound r) {ret : Int} (forward : 0 ≤ ret) : Sound (r.move ret) := by
  refine ⟨sound.within, ?_⟩
  intro move member
  rcases List.mem_append.mp member with earlier | last
  · exact sound.forward move earlier
  · rw [List.mem_singleton.mp last]
    exact forward

theorem Begun.write (begun : Begun r) {room start count : Nat} (inside : start + count ≤ room) :
    Begun (r.write room start count) := ⟨begun.toSound.write inside, begun.waits⟩

theorem Begun.fill (begun : Begun r) (room : Nat) : Begun (r.fill room) :=
  begun.write (Nat.le_of_eq (Nat.zero_add room))

theorem Begun.early (begun : Begun r) : Early r :=
  ⟨begun.toSound, fun ret returned => by rw [begun.waits] at returned; cases returned⟩

theorem Begun.returns (begun : Begun r) {ret : Int} (failed : ret ≤ 0) : Early (r.returns ret) := by
  refine ⟨⟨begun.within, begun.forward⟩, ?_⟩
  intro other returned
  cases returned
  exact failed

theorem Begun.clear (begun : Begun r) (stored : r.stored = []) (buflen : Nat) : Holds buflen 0 (r.clear buflen) where
  toBegun := ⟨⟨(begun.fill buflen).within, begun.forward⟩, begun.waits⟩
  count := congrArg List.length stored
  fits := Nat.zero_le _
  bytes := by
    have stored_ : (r.clear buflen).stored = [] := stored
    rw [stored_]
    rfl

variable {buflen i : Nat}

theorem Holds.write (holds : Holds buflen i r) {room start count : Nat} (inside : start + count ≤ room) :
    Holds buflen i (r.write room start count) := ⟨holds.toBegun.write inside, holds.count, holds.fits, holds.bytes⟩

theorem Holds.fill (holds : Holds buflen i r) (room : Nat) : Holds buflen i (r.fill room) :=
  holds.write (Nat.le_of_eq (Nat.zero_add room))

theorem Holds.move (holds : Holds buflen i r) {ret : Int} (forward : 0 ≤ ret) : Holds buflen i (r.move ret) :=
  ⟨⟨holds.toSound.move forward, holds.waits⟩, holds.count, holds.fits, holds.bytes⟩

theorem Holds.store (holds : Holds buflen i r) {bytes : CString} (room : i + bytes.length ≤ buflen) :
    Holds buflen (i + bytes.length) (r.store buflen i bytes) where
  toBegun := ⟨⟨(holds.toSound.write room).within, holds.forward⟩, holds.waits⟩
  count := by
    have stored : (r.store buflen i bytes).stored = r.stored ++ bytes := rfl
    rw [stored, List.length_append, holds.count]
  fits := room
  bytes := by
    have stored : (r.store buflen i bytes).stored = r.stored ++ bytes := rfl
    have buf : (r.store buflen i bytes).buf = r.buf.take i ++ bytes ++ r.buf.drop (i + bytes.length) := rfl
    have before : r.buf.take i = r.stored := by rw [holds.bytes, List.take_left' holds.count]
    have behind : r.buf.drop (i + bytes.length) = List.replicate (buflen - (i + bytes.length)) 0 := by
      rw [holds.bytes, List.drop_append, List.drop_eq_nil_of_le (by rw [holds.count]; omega), List.nil_append, holds.count,
        Nat.add_sub_cancel_left, List.drop_replicate, Nat.sub_sub]
    rw [stored, buf, before, behind]

theorem Holds.put (holds : Holds buflen i r) (room : i < buflen) : Holds buflen i (r.put buflen i [0]) where
  toBegun := ⟨⟨(holds.toSound.write (Nat.succ_le_of_lt room)).within, holds.forward⟩, holds.waits⟩
  count := holds.count
  fits := holds.fits
  bytes := by
    have buf : (r.put buflen i [0]).buf = r.buf.take i ++ [0] ++ r.buf.drop (i + 1) := rfl
    have inside : i < r.buf.length := by
      rw [holds.bytes, List.length_append, holds.count, List.length_replicate]
      omega
    have zero : r.buf[i] = 0 := by
      simp [holds.bytes, holds.count]
    have same : r.buf.take i ++ [0] ++ r.buf.drop (i + 1) = r.buf := by
      rw [<- zero, List.take_append_getElem, List.take_append_drop]
    rw [buf, same]
    exact holds.bytes

theorem addCr_holds (holds : Holds buflen i r) : Holds buflen (addCr buflen i r).1 (addCr buflen i r).2 := by
  unfold addCr
  split
  next room =>
    have fits : i + 1 < buflen := by
      have := room.2.2
      omega
    have stored : Holds buflen (i + 1) (r.store buflen i [13]) := @Holds.store r buflen i holds [13] (Nat.le_of_lt fits)
    exact (stored.move (by decide)).put fits
  next => exact holds

end Runs

section Transfers

theorem transferRet_bytes {size : Nat} {t : UsbTransfer} (some_ : 0 < transferRet size t) :
    transferRet size t = (transferBytes size t).length ∧ (transferBytes size t).length ≤ size := by
  cases t with
  | ok bytes => exact ⟨rfl, by rw [transferBytes, List.length_take]; exact Nat.min_le_left _ _⟩
  | error error => cases error <;> cases some_

theorem sendChunks_early {r : UsbRun} (begun : Begun r) (tmplen i : Nat) (writes : List UsbTransfer) :
    Settles Early (· = r) (sendChunks tmplen r i writes) := by
  induction writes generalizing i with
  | nil =>
    rw [sendChunks]
    split
    · rfl
    · exact begun.early
  | cons t writes ih =>
    rw [sendChunks]
    split
    · rfl
    · split
      next failed => exact begun.returns failed
      next => exact ih _

theorem omronSend_early {r : UsbRun} (begun : Begun r) (tmplen i : Nat) (writes : List UsbTransfer) :
    Settles Early (· = r) (omronSend tmplen r i writes) := by
  induction writes generalizing i with
  | nil =>
    rw [omronSend]
    split
    · rfl
    · exact begun.early
  | cons t writes ih =>
    rw [omronSend]
    split
    · rfl
    · split
      next failed => exact begun.returns failed
      next =>
        split
        next => exact begun.returns (by decide)
        next => exact ih _

def Ready (r : UsbRun) : Prop :=
  Begun r ∧ r.stored = []

theorem sgsSend_early {r : UsbRun} (ready : Ready r) (cmdlen i : Nat) (writes : List UsbTransfer) :
    Settles Early Ready (sgsSend cmdlen i r writes) := by
  induction writes generalizing i r with
  | nil =>
    rw [sgsSend]
    split
    · exact ready
    · exact ready.1.early
  | cons t writes ih =>
    have chunk : 1 + (if cmdlen - i < 7 then cmdlen - i else 7) ≤ smallbuf := by
      unfold smallbuf
      split <;> omega
    have written := (((ready.1.fill smallbuf).write (by decide : 0 + 1 ≤ smallbuf))).write chunk
    rw [sgsSend]
    split
    · exact ready
    · dsimp only
      split
      next failed => exact written.returns failed
      next => exact ih ⟨written, ready.2⟩ _

theorem drain_early {r : UsbRun} (ready : Ready r) (late : Nat -> Bool) (left i : Nat) (reads : List UsbTransfer) :
    Settles Early (fun got => Ready got.1 ∧ reads.length ≤ got.2.length + left) (drain late left i r reads) := by
  induction left generalizing i r reads with
  | zero => exact ⟨ready, Nat.le_add_right _ _⟩
  | succ left ih =>
    cases reads with
    | nil => exact ready.1.early
    | cons t reads =>
      have read := ready.1.write (by decide : 0 + 8 ≤ smallbuf)
      rw [drain]
      split
      next => exact ⟨⟨read, ready.2⟩, by dsimp only; rw [List.length_cons]; omega⟩
      next =>
        split
        next failed => exact read.returns (Int.le_of_lt failed)
        next =>
          split
          next => exact read.returns (by decide)
          next =>
            refine settles_mono (ih ⟨read, ready.2⟩ (i + 1) reads) (fun _ early => early) ?_
            rintro got ⟨ready, rest⟩
            exact ⟨ready, by rw [List.length_cons]; omega⟩

theorem flush_early {r : UsbRun} (ready : Ready r) (left : Nat) (reads : List UsbTransfer) :
    Settles Early (fun got => Ready got.1 ∧ reads.length ≤ got.2.length + left) (flush left r reads) := by
  induction left generalizing r reads with
  | zero => exact ⟨ready, Nat.le_add_right _ _⟩
  | succ left ih =>
    cases reads with
    | nil => exact ready.1.early
    | cons t reads =>
      have read := ready.1.write (by decide : 0 + 8 ≤ smallbuf)
      rw [flush]
      split
      next => exact ⟨⟨read, ready.2⟩, by dsimp only; rw [List.length_cons]; omega⟩
      next =>
        refine settles_mono (ih ⟨read, ready.2⟩ reads) (fun _ early => early) ?_
        rintro got ⟨ready, rest⟩
        exact ⟨ready, by rw [List.length_cons]; omega⟩

theorem readChunks_early {buflen i : Nat} {r : UsbRun} (holds : Holds buflen i r) (room : 8 ≤ buflen) (reads : List UsbTransfer) :
    Settles Early (fun got => Holds buflen got.1 got.2) (readChunks buflen i r reads) := by
  induction reads generalizing i r with
  | nil =>
    rw [readChunks]
    split
    · exact holds.toBegun.early
    · exact holds
  | cons t reads ih =>
    rw [readChunks]
    split
    next goes =>
      have asked := holds.write (by have := goes.1; omega : i + 8 ≤ buflen)
      dsimp only
      split
      next failed => exact asked.toBegun.returns failed
      next some_ =>
        obtain ⟨ret, most⟩ := transferRet_bytes (Int.not_le.mp some_)
        have stored := asked.store (by have := goes.1; omega : i + (transferBytes 8 t).length ≤ buflen)
        have moved := (stored.fill smallbuf).move (Int.le_of_lt (Int.not_le.mp some_))
        rw [ret, Int.toNat_natCast]
        exact ih (ret ▸ moved)
    next => exact holds

theorem readWhole_early {r : UsbRun} (ready : Ready r) (reads : List UsbTransfer) :
    Settles Early (fun got => Ready got.2 ∧ got.1.length ≤ 64) (readWhole r reads) := by
  cases reads with
  | nil => exact ready.1.early
  | cons t reads =>
    have read := ready.1.write (by decide : 0 + 64 ≤ 64)
    rw [readWhole]
    split
    next failed => exact read.returns failed
    next some_ => exact ⟨⟨read, ready.2⟩, (transferRet_bytes (Int.not_le.mp some_)).2⟩

end Transfers

end Nut.Transport
