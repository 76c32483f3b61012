import Nut.Library.Checked
import Nut.Common.ParseConfReuse

set_option autoImplicit false

namespace Nut

structure PconfStore where
  state : PconfState
  numargs : Nat
  maxargs : Nat
  arglist : List (Option (List UInt8))
  argsize : List Nat
  wordbuf : List UInt8
  wordbufsize : Nat
  wordptr : Nat
  argLimit : Nat
  wordlenLimit : Nat

def strlen (memory : List UInt8) : Checked Nat :=
  match memory.idxOf? 0 with
  | some length => .ok length
  | none => .error .outOfBounds

def follow (pointer : Option (List UInt8)) : Checked (List UInt8) :=
  match pointer with
  | some memory => .ok memory
  | none => .error .nullPointer

def pconfStoreInit (argLimit wordlenLimit : Nat) : PconfStore :=
  { state := .findwordstart, numargs := 0, maxargs := 0, arglist := [], argsize := []
    wordbuf := List.replicate 16 0, wordbufsize := 16, wordptr := 0, argLimit, wordlenLimit }

namespace PconfStore

-- What memory holds that nothing was written to yet.
variable (junk : Nat -> UInt8)

def realloc (memory : List UInt8) (size : Nat) : List UInt8 :=
  memory.take size ++ (List.range (size - memory.length)).map junk

-- when facing more args than ever before, expand the list
def expandList (argpos : Nat) (ctx : PconfStore) : Checked PconfStore :=
  if ctx.numargs > ctx.maxargs then do
    let arglist <- writeAt (ctx.arglist.take ctx.numargs ++ List.replicate (ctx.numargs - ctx.arglist.length) none) argpos none
    let argsize <- writeAt (ctx.argsize.take ctx.numargs ++ List.replicate (ctx.numargs - ctx.argsize.length) 0) argpos 0
    .ok { ctx with maxargs := ctx.numargs, arglist, argsize }
  else .ok ctx

-- now see if the string itself grew compared to last time
def expandArg (argpos wbuflen : Nat) (ctx : PconfStore) : Checked PconfStore := do
  let size <- readAt ctx.argsize argpos
  if wbuflen ≥ size then
    let pointer <- readAt ctx.arglist argpos
    let arglist <- writeAt ctx.arglist argpos (some (realloc junk (pointer.getD []) (wbuflen + 1)))
    let argsize <- writeAt ctx.argsize argpos (wbuflen + 1)
    .ok { ctx with arglist, argsize }
  else .ok ctx

-- `memset` and `strncpy`
def copyWord (argpos wbuflen : Nat) (ctx : PconfStore) : Checked PconfStore := do
  let size <- readAt ctx.argsize argpos
  let pointer <- readAt ctx.arglist argpos
  let memory <- follow pointer
  let memory <- overwrite memory (List.replicate size 0)
  let memory <- overwrite memory (ctx.wordbuf.take wbuflen)
  let arglist <- writeAt ctx.arglist argpos (some memory)
  .ok { ctx with arglist }

def addArgWord (ctx : PconfStore) : Checked PconfStore := do
  let argpos := ctx.numargs
  let ctx <- expandList argpos { ctx with numargs := ctx.numargs + 1 }
  let wbuflen <- strlen ctx.wordbuf
  let ctx <- expandArg junk argpos wbuflen ctx
  copyWord argpos wbuflen ctx

-- allow for the null
def expandWord (wbuflen : Nat) (ctx : PconfStore) : PconfStore :=
  if wbuflen ≥ ctx.wordbufsize - 1 then
    { ctx with
      wordbufsize := ctx.wordbufsize + 8
      wordbuf := realloc junk ctx.wordbuf (ctx.wordbufsize + 8)
      wordptr := wbuflen }
  else ctx

def addchar (ctx : PconfStore) (ch : Int) : Checked PconfStore := do
  let wbuflen <- strlen ctx.wordbuf
  if ch < 0x20 ∨ ch > 0x7f then .ok ctx
  else if ctx.wordlenLimit ≠ 0 ∧ wbuflen ≥ ctx.wordlenLimit then .ok ctx
  else
    let ctx := expandWord junk wbuflen ctx
    let wordbuf <- writeAt ctx.wordbuf ctx.wordptr (UInt8.ofNat ch.toNat)
    let wordbuf <- writeAt wordbuf (ctx.wordptr + 1) 0
    .ok { ctx with wordbuf, wordptr := ctx.wordptr + 1 }

def emptyWord (ctx : PconfStore) : Checked PconfStore := do
  let wordbuf <- writeAt ctx.wordbuf 0 0
  .ok { ctx with wordbuf, wordptr := 0 }

def endofword (ctx : PconfStore) : Checked PconfStore :=
  if ctx.argLimit ≠ 0 ∧ ctx.numargs ≥ ctx.argLimit then emptyWord ctx
  else do
    let ctx <- addArgWord junk ctx
    emptyWord ctx

def became (state : PconfState) (ctx : Checked PconfStore) : Checked (PconfStore × PconfState) := do
  let ctx <- ctx
  .ok (ctx, state)

def findwordstart (ctx : PconfStore) (ch : Int) : Checked (PconfStore × PconfState) :=
  if ch = 10 then .ok (ctx, .endofline)
  else if ch = 35 then .ok (ctx, .findeol)
  else if isspace ch then .ok (ctx, .findwordstart)
  else if ch = 92 then .ok (ctx, .collectliteral)
  else if ch = 34 then .ok (ctx, .quotecollect)
  else do
    let ctx <- addchar junk ctx ch
    if ch = 61 then became .findwordstart (endofword junk ctx) else .ok (ctx, .collect)

def findeol (ctx : PconfStore) (ch : Int) : Checked (PconfStore × PconfState) :=
  if ch = 10 then .ok (ctx, .endofline) else .ok (ctx, .findeol)

def quotecollect (ctx : PconfStore) (ch : Int) : Checked (PconfStore × PconfState) :=
  if ch = 34 then became .findwordstart (endofword junk ctx)
  else if ch = 92 then .ok (ctx, .qcLiteral)
  else became .quotecollect (addchar junk ctx ch)

def qcLiteral (ctx : PconfStore) (ch : Int) : Checked (PconfStore × PconfState) :=
  if ch = 10 then .ok (ctx, .quotecollect) else became .quotecollect (addchar junk ctx ch)

def collect (ctx : PconfStore) (ch : Int) : Checked (PconfStore × PconfState) :=
  if ch = 35 then became .findeol (endofword junk ctx)
  else if ch = 10 then became .endofline (endofword junk ctx)
  else if isspace ch then became .findwordstart (endofword junk ctx)
  else if ch = 61 then do
    let ctx <- endofword junk ctx
    let next <- findwordstart junk ctx ch
    .ok (next.1, .findwordstart)
  else if ch = 92 then .ok (ctx, .collectliteral)
  else became .collect (addchar junk ctx ch)

def collectliteral (ctx : PconfStore) (ch : Int) : Checked (PconfStore × PconfState) :=
  if ch = 10 then .ok (ctx, .collect) else became .collect (addchar junk ctx ch)

def enter (next : Checked (PconfStore × PconfState)) : Checked PconfStore := do
  let next <- next
  .ok { next.1 with state := next.2 }

def parseChar (ctx : PconfStore) (ch : Int) : Checked PconfStore :=
  match ctx.state with
  | .findwordstart => enter (findwordstart junk ctx ch)
  | .findeol => enter (findeol ctx ch)
  | .quotecollect => enter (quotecollect junk ctx ch)
  | .qcLiteral => enter (qcLiteral junk ctx ch)
  | .collect => enter (collect junk ctx ch)
  | .collectliteral => enter (collectliteral junk ctx ch)
  | .endofline | .parseerr => .ok ctx

def startLine (ctx : PconfStore) : PconfStore :=
  { ctx with numargs := 0, state := .findwordstart }

-- `true` behind the end of the line
def parseUntilDone (ctx : PconfStore) : CString -> Checked (PconfStore × Bool)
  | [] => .ok (ctx, false)
  | b :: rest => do
    let next <- parseChar junk ctx (charToInt b)
    if next.state = .endofline ∨ next.state = .parseerr then .ok (next, true) else parseUntilDone next rest

def pconfLine (ctx : PconfStore) (line : CString) : Checked PconfStore := do
  let (ctx, done) <- parseUntilDone junk (startLine ctx) (line.takeWhile (· ≠ 0))
  if done then .ok ctx else if ctx.wordptr ≠ 0 then endofword junk ctx else .ok ctx

def pconfLines (ctx : PconfStore) (lines : List CString) : Checked PconfStore :=
  lines.foldlM (pconfLine junk) ctx

def args (ctx : PconfStore) : Checked (List CString) :=
  (ctx.arglist.take ctx.numargs).mapM fun pointer => do
    let memory <- follow pointer
    let length <- strlen memory
    .ok (memory.take length)

def Holds (memory : List UInt8) (text : CString) : Prop :=
  (∃ rest, memory = text ++ 0 :: rest) ∧ 0 ∉ text

def Sized (pointer : Option (List UInt8)) (size : Nat) : Prop :=
  ∃ memory, pointer = some memory ∧ memory.length = size

def Stores (pointer : Option (List UInt8)) (arg : CString) : Prop :=
  ∃ memory, pointer = some memory ∧ Holds memory arg

structure Represents (store : PconfStore) (ctx : PconfCtx) : Prop where
  state : store.state = ctx.state
  argLimit : store.argLimit = ctx.argLimit
  wordlenLimit : store.wordlenLimit = ctx.wordlenLimit
  word : Holds store.wordbuf ctx.wordbuf
  size : store.wordbuf.length = store.wordbufsize
  ptr : store.wordptr = ctx.wordbuf.length
  lists : store.arglist.length = store.maxargs
  sized : List.Forall₂ Sized store.arglist store.argsize
  max : store.numargs ≤ store.maxargs
  args : List.Forall₂ Stores (store.arglist.take store.numargs) ctx.arglist

section Memory

variable (junk : Nat -> UInt8) {memory : List UInt8} {text : CString}

theorem strlen_holds (holds : Holds memory text) : strlen memory = .ok text.length := by
  obtain ⟨⟨rest, rfl⟩, none_⟩ := holds
  have first : (text ++ 0 :: rest).idxOf? 0 = some text.length := by
    induction text with
    | nil => simp [List.idxOf?_cons]
    | cons b text ih =>
      have other : b ≠ 0 := fun same => none_ (same ▸ List.mem_cons_self)
      have later := ih fun member => none_ (List.mem_cons_of_mem b member)
      simp [List.idxOf?_cons, other, later]
  simp [strlen, first]

theorem Holds.length (holds : Holds memory text) : text.length < memory.length := by
  obtain ⟨⟨rest, rfl⟩, _⟩ := holds
  simp

theorem Holds.take (holds : Holds memory text) : memory.take text.length = text := by
  obtain ⟨⟨rest, rfl⟩, _⟩ := holds
  simp

theorem realloc_length (memory : List UInt8) (size : Nat) : (realloc junk memory size).length = size := by
  simp only [realloc, List.length_append, List.length_take, List.length_map, List.length_range]
  omega

theorem realloc_holds (holds : Holds memory text) {size : Nat} (larger : memory.length ≤ size) :
    Holds (realloc junk memory size) text := by
  obtain ⟨⟨rest, rfl⟩, none_⟩ := holds
  refine ⟨⟨rest ++ (List.range (size - (text ++ 0 :: rest).length)).map junk, ?_⟩, none_⟩
  rw [realloc, List.take_of_length_le larger, List.append_assoc, List.cons_append]

theorem writeAt_holds (holds : Holds memory text) (room : text.length + 1 < memory.length) {b : UInt8} (some_ : b ≠ 0) :
    ∃ first second, writeAt memory text.length b = .ok first ∧ writeAt first (text.length + 1) 0 = .ok second ∧
      second.length = memory.length ∧ Holds second (text ++ [b]) := by
  obtain ⟨⟨rest, rfl⟩, none_⟩ := holds
  cases rest with
  | nil => simp at room
  | cons old rest =>
    have second := writeAt_behind (text ++ [b]) old 0 rest
    simp only [List.append_assoc, List.cons_append, List.nil_append, List.length_append, List.length_singleton] at second
    refine ⟨_, _, writeAt_behind text 0 b (old :: rest), second, by simp, ⟨rest, by simp⟩, ?_⟩
    simp [none_, Ne.symm some_]

theorem writeAt_empty (there : 0 < memory.length) :
    ∃ after, writeAt memory 0 0 = .ok after ∧ after.length = memory.length ∧ Holds after [] := by
  cases memory with
  | nil => simp at there
  | cons old rest => exact ⟨0 :: rest, writeAt_behind [] old 0 rest, rfl, ⟨rest, rfl⟩, by simp⟩

theorem overwrite_holds {size : Nat} (fits : text.length < size) (sized : memory.length = size) (none_ : 0 ∉ text) :
    ∃ cleared after, overwrite memory (List.replicate size 0) = .ok cleared ∧ overwrite cleared text = .ok after ∧
      after.length = size ∧ Holds after text := by
  have zeros : (List.replicate size (0 : UInt8)).length = size := List.length_replicate
  have first : overwrite memory (List.replicate size 0) = .ok (List.replicate size 0) := by
    rw [overwrite_fits (by omega), zeros, List.drop_of_length_le (by omega), List.append_nil]
  obtain ⟨more, rfl⟩ : ∃ more, size = text.length + (more + 1) := ⟨size - text.length - 1, by omega⟩
  refine ⟨_, _, first, overwrite_fits (by simp), by simp, ⟨List.replicate more 0, ?_⟩, none_⟩
  simp [List.drop_replicate, List.replicate_succ]

end Memory

def withLists (store : PconfStore) (numargs maxargs : Nat) (arglist : List (Option (List UInt8))) (argsize : List Nat) :
    PconfStore :=
  { store with numargs, maxargs, arglist, argsize }

section Slots

variable (junk : Nat -> UInt8) (store : PconfStore) (numargs maxargs : Nat) (back : List (Option (List UInt8)))
  (sizes' : List Nat)
variable {front : List (Option (List UInt8))} {sizes : List Nat} {args : List CString} {word : CString}

theorem expandArg_ok {slot : Option (List UInt8)} {size : Nat} (even : sizes.length = front.length)
    (sized : size = 0 ∨ Sized slot size) (wbuflen : Nat) : ∃ memory, expandArg junk front.length wbuflen
          (store.withLists numargs maxargs (front ++ slot :: back) (sizes ++ size :: sizes')) =
        .ok (store.withLists numargs maxargs (front ++ some memory :: back) (sizes ++ memory.length :: sizes')) ∧
      wbuflen < memory.length := by
  have readSize := readAt_behind sizes size sizes'
  rw [even] at readSize
  by_cases grown : wbuflen ≥ size
  · have length := realloc_length junk (slot.getD []) (wbuflen + 1)
    have readSlot := readAt_behind front slot back
    have writeSlot := writeAt_behind front slot (some (realloc junk (slot.getD []) (wbuflen + 1))) back
    have writeSize := writeAt_behind sizes size (wbuflen + 1) sizes'
    rw [even] at writeSize
    refine ⟨realloc junk (slot.getD []) (wbuflen + 1), ?_, by omega⟩
    simp only [expandArg, withLists, readSize, ok_bind, grown, if_true, readSlot, writeSlot, writeSize, length]
  · obtain none_ | ⟨memory, rfl, length⟩ := sized
    · omega
    · refine ⟨memory, ?_, by omega⟩
      simp only [expandArg, withLists, readSize, ok_bind, grown, if_false, length]

theorem copyWord_ok {memory : List UInt8} (even : sizes.length = front.length) (holds : Holds store.wordbuf word)
    (fits : word.length < memory.length) : ∃ after, copyWord front.length word.length
          (store.withLists numargs maxargs (front ++ some memory :: back) (sizes ++ memory.length :: sizes')) =
        .ok (store.withLists numargs maxargs (front ++ some after :: back) (sizes ++ memory.length :: sizes')) ∧
      after.length = memory.length ∧ Holds after word := by
  obtain ⟨cleared, after, clear, copy, length, stored⟩ := overwrite_holds fits rfl holds.2
  have readSize := readAt_behind sizes memory.length sizes'
  rw [even] at readSize
  have readSlot := readAt_behind front (some memory) back
  have writeSlot := writeAt_behind front (some memory) (some after) back
  refine ⟨after, ?_, length, stored⟩
  simp only [copyWord, withLists, readSize, readSlot, ok_bind, follow, clear, holds.take, copy, writeSlot]

theorem expandList_ok {store : PconfStore} (lists : store.arglist.length = store.maxargs)
    (sized : List.Forall₂ Sized store.arglist store.argsize) (max : store.numargs ≤ store.maxargs)
    (stores : List.Forall₂ Stores (store.arglist.take store.numargs) args) :
    ∃ front slot back sizes size sizes' maxargs, expandList store.numargs { store with numargs := store.numargs + 1 } =
        .ok (store.withLists (store.numargs + 1) maxargs (front ++ slot :: back) (sizes ++ size :: sizes')) ∧
      front.length = store.numargs ∧ maxargs = (front ++ slot :: back).length ∧ List.Forall₂ Sized front sizes ∧
      (size = 0 ∨ Sized slot size) ∧ List.Forall₂ Sized back sizes' ∧ List.Forall₂ Stores front args := by
  have even := sized.length_eq
  obtain full | room : store.numargs = store.maxargs ∨ store.numargs < store.maxargs := by omega
  · rw [full, <- lists, List.take_length] at stores
    refine ⟨store.arglist, none, [], store.argsize, 0, [], store.numargs + 1, ?_, by omega, by simp; omega, sized,
      .inl rfl, .nil, stores⟩
    have newSlot := writeAt_behind store.arglist none none []
    have newSize := writeAt_behind store.argsize 0 0 []
    rw [<- even] at newSize
    rw [lists, <- full] at newSlot newSize
    have longer : store.arglist.take (store.numargs + 1) = store.arglist := List.take_of_length_le (by omega)
    have longer' : store.argsize.take (store.numargs + 1) = store.argsize := List.take_of_length_le (by omega)
    have one : store.numargs + 1 - store.arglist.length = 1 := by omega
    have one' : store.numargs + 1 - store.argsize.length = 1 := by omega
    have grown : store.numargs + 1 > store.maxargs := by omega
    simp only [expandList, withLists, grown, if_true, longer, longer', one, one', List.replicate_one, newSlot, newSize,
      ok_bind]
  · -- the slot is there already, from an earlier line
    have inFront := List.forall₂_take store.numargs sized
    have behind := List.forall₂_drop store.numargs sized
    obtain ⟨slot, back, lastArgs⟩ : ∃ slot back, store.arglist.drop store.numargs = slot :: back :=
      List.exists_cons_of_length_pos (by rw [List.length_drop]; omega)
    rw [lastArgs] at behind
    obtain ⟨size, sizes', own, rest, lastSizes⟩ := List.forall₂_cons_left_iff.mp behind
    have whole : store.arglist = store.arglist.take store.numargs ++ slot :: back := by
      rw [<- lastArgs, List.take_append_drop]
    have whole' : store.argsize = store.argsize.take store.numargs ++ size :: sizes' := by
      rw [<- lastSizes, List.take_append_drop]
    refine ⟨_, slot, back, _, size, sizes', store.maxargs, ?_, by simp; omega, ?_, inFront, .inr own, rest, stores⟩
    · have small : ¬ store.numargs + 1 > store.maxargs := by omega
      simp only [expandList, withLists, small, if_false, <- whole, <- whole']
    · rw [<- whole, lists]

end Slots

section Simulation

variable (junk : Nat -> UInt8) {store : PconfStore} {ctx : PconfCtx}

def Simulates (result : Checked PconfStore) (ctx : PconfCtx) : Prop :=
  ∃ store, result = .ok store ∧ Represents store ctx

def SimulatesNext (result : Checked (PconfStore × PconfState)) (next : PconfCtx × PconfState) : Prop :=
  ∃ store, result = .ok (store, next.2) ∧ Represents store next.1

theorem became_ok {result : Checked PconfStore} (simulates : Simulates result ctx) (state : PconfState) :
    SimulatesNext (became state result) (ctx, state) := by
  obtain ⟨after, rfl, represents⟩ := simulates
  exact ⟨after, rfl, represents⟩

theorem enter_ok {result : Checked (PconfStore × PconfState)} {next : PconfCtx × PconfState}
    (simulates : SimulatesNext result next) : Simulates (enter result) (Nut.enter next) := by
  obtain ⟨after, rfl, represents⟩ := simulates
  exact ⟨{ after with state := next.2 }, rfl, { represents with state := rfl }⟩

variable (represents : Represents store ctx)

include represents

theorem addArgWord_ok :
    Simulates (addArgWord junk store) { ctx with arglist := ctx.arglist ++ [ctx.wordbuf] } := by
  obtain ⟨front, slot, back, sizes, size, sizes', maxargs, expanded, first, total, inFront, own, atBack, stores⟩ :=
    expandList_ok represents.lists represents.sized represents.max represents.args
  have even := inFront.length_eq.symm
  obtain ⟨memory, grown, fits⟩ :=
    expandArg_ok junk store (store.numargs + 1) maxargs back sizes' even own ctx.wordbuf.length
  obtain ⟨after, copied, length, holds⟩ :=
    copyWord_ok store (store.numargs + 1) maxargs back sizes' even represents.word fits
  have measured : strlen (store.withLists (store.numargs + 1) maxargs (front ++ slot :: back)
      (sizes ++ size :: sizes')).wordbuf = .ok ctx.wordbuf.length := strlen_holds represents.word
  rw [first] at grown copied
  refine ⟨_, by simp only [addArgWord, expanded, ok_bind, measured, grown]; exact copied, ?_⟩
  refine { represents with lists := ?_, sized := ?_, max := ?_, args := ?_ }
  · simp [withLists, total]
  · exact List.rel_append inFront (.cons ⟨after, rfl, length⟩ atBack)
  · simp only [withLists, total, List.length_append, List.length_cons]
    omega
  · have taken : (front ++ some after :: back).take (store.numargs + 1) = front ++ [some after] := by
      rw [<- first, List.take_length_add_append]
      rfl
    simp only [withLists, taken]
    exact List.rel_append stores (.cons ⟨after, rfl, holds⟩ .nil)

theorem expandWord_ok : Represents (expandWord junk ctx.wordbuf.length store) ctx ∧
      ctx.wordbuf.length + 1 < (expandWord junk ctx.wordbuf.length store).wordbuf.length := by
  have room := represents.word.length
  have size := represents.size
  unfold expandWord
  split
  next =>
    have length := realloc_length junk store.wordbuf (store.wordbufsize + 8)
    refine ⟨{ represents with word := realloc_holds junk represents.word (by omega), size := length, ptr := rfl }, ?_⟩
    dsimp only
    omega
  next small => exact ⟨represents, by omega⟩

theorem addchar_ok (ch : Int) :
    Simulates (addchar junk store ch) (Nut.addchar ctx ch) := by
  simp only [addchar, strlen_holds represents.word, ok_bind, Nut.addchar, represents.wordlenLimit]
  split_ifs with outside full
  · exact ⟨store, rfl, represents⟩
  · exact ⟨store, rfl, represents⟩
  · obtain ⟨expanded, room⟩ := expandWord_ok junk represents
    have byte : UInt8.ofNat ch.toNat ≠ 0 := by
      intro zero
      have same := congrArg UInt8.toNat zero
      rw [UInt8.toNat_ofNat'] at same
      simp only [UInt8.toNat_zero] at same
      omega
    obtain ⟨first, second, write, terminate, length, holds⟩ := writeAt_holds expanded.word room byte
    rw [expanded.ptr]
    simp only [write, terminate, ok_bind]
    exact ⟨_, rfl, { expanded with word := holds, size := length.trans expanded.size, ptr := by simp }⟩

theorem emptyWord_ok : Simulates (emptyWord store) { ctx with wordbuf := [] } := by
  have there : 0 < store.wordbuf.length := Nat.lt_of_le_of_lt (Nat.zero_le _) represents.word.length
  obtain ⟨after, write, length, holds⟩ := writeAt_empty there
  refine ⟨{ store with wordbuf := after, wordptr := 0 }, ?_, ?_⟩
  · simp only [emptyWord, write, ok_bind]
  · exact { represents with word := holds, size := length.trans represents.size, ptr := rfl }

theorem endofword_ok : Simulates (endofword junk store) (Nut.endofword ctx) := by
  have counted : store.numargs = ctx.arglist.length := by
    have same := represents.args.length_eq
    rw [List.length_take] at same
    have := represents.lists
    have := represents.max
    omega
  simp only [endofword, Nut.endofword, represents.argLimit, counted]
  split_ifs
  · exact emptyWord_ok represents
  · obtain ⟨added, word, represents'⟩ := addArgWord_ok junk represents
    rw [word, ok_bind]
    exact emptyWord_ok represents'

theorem findwordstart_ok (ch : Int) :
    SimulatesNext (findwordstart junk store ch) (Nut.findwordstart ctx ch) := by
  obtain ⟨added, word, represents'⟩ := addchar_ok junk represents ch
  unfold findwordstart Nut.findwordstart
  split_ifs
  · exact ⟨store, rfl, represents⟩
  · exact ⟨store, rfl, represents⟩
  · exact ⟨store, rfl, represents⟩
  · exact ⟨store, rfl, represents⟩
  · exact ⟨store, rfl, represents⟩
  · rw [word, ok_bind]
    exact became_ok (endofword_ok junk represents') .findwordstart
  · rw [word, ok_bind]
    exact ⟨added, rfl, represents'⟩

theorem findeol_ok (ch : Int) :
    SimulatesNext (findeol store ch) (Nut.findeol ctx ch) := by
  unfold findeol Nut.findeol
  split_ifs
  · exact ⟨store, rfl, represents⟩
  · exact ⟨store, rfl, represents⟩

theorem quotecollect_ok (ch : Int) :
    SimulatesNext (quotecollect junk store ch) (Nut.quotecollect ctx ch) := by
  unfold quotecollect Nut.quotecollect
  split_ifs
  · exact became_ok (endofword_ok junk represents) .findwordstart
  · exact ⟨store, rfl, represents⟩
  · exact became_ok (addchar_ok junk represents ch) .quotecollect

theorem qcLiteral_ok (ch : Int) :
    SimulatesNext (qcLiteral junk store ch) (Nut.qcLiteral ctx ch) := by
  unfold qcLiteral Nut.qcLiteral
  split_ifs
  · exact ⟨store, rfl, represents⟩
  · exact became_ok (addchar_ok junk represents ch) .quotecollect

theorem collect_ok (ch : Int) :
    SimulatesNext (collect junk store ch) (Nut.collect ctx ch) := by
  unfold collect Nut.collect
  split_ifs
  · exact became_ok (endofword_ok junk represents) .findeol
  · exact became_ok (endofword_ok junk represents) .endofline
  · exact became_ok (endofword_ok junk represents) .findwordstart
  · obtain ⟨ended, word, represents'⟩ := endofword_ok junk represents
    obtain ⟨after, found, represents''⟩ := findwordstart_ok junk represents' ch
    rw [word, ok_bind, found, ok_bind]
    exact ⟨after, rfl, represents''⟩
  · exact ⟨store, rfl, represents⟩
  · exact became_ok (addchar_ok junk represents ch) .collect

theorem collectliteral_ok (ch : Int) :
    SimulatesNext (collectliteral junk store ch) (Nut.collectliteral ctx ch) := by
  unfold collectliteral Nut.collectliteral
  split_ifs
  · exact ⟨store, rfl, represents⟩
  · exact became_ok (addchar_ok junk represents ch) .collect

theorem parseChar_ok (ch : Int) :
    Simulates (parseChar junk store ch) (Nut.parseChar ctx ch) := by
  unfold parseChar Nut.parseChar
  rw [represents.state]
  cases ctx.state with
  | findwordstart => exact enter_ok (findwordstart_ok junk represents ch)
  | findeol => exact enter_ok (findeol_ok represents ch)
  | quotecollect => exact enter_ok (quotecollect_ok junk represents ch)
  | qcLiteral => exact enter_ok (qcLiteral_ok junk represents ch)
  | collect => exact enter_ok (collect_ok junk represents ch)
  | collectliteral => exact enter_ok (collectliteral_ok junk represents ch)
  | endofline | parseerr => exact ⟨store, rfl, represents⟩

theorem startLine_ok : Represents (startLine store) (Nut.startLine ctx) :=
  { represents with state := rfl, max := Nat.zero_le _, args := by simp [startLine, Nut.startLine] }

theorem parseUntilDone_ok (line : CString) :
    ∃ after, parseUntilDone junk store line = .ok (after, (Nut.parseUntilDone charToInt ctx line).2.isSome) ∧
      Represents after (Nut.parseUntilDone charToInt ctx line).1 := by
  induction line generalizing store ctx with
  | nil => exact ⟨store, rfl, represents⟩
  | cons b rest ih =>
    obtain ⟨next, parsed, represents'⟩ := parseChar_ok junk represents (charToInt b)
    have done : (next.state = .endofline ∨ next.state = .parseerr) ↔ lineDone (Nut.parseChar ctx (charToInt b)) = true := by
      simp [lineDone, represents'.state]
    simp only [parseUntilDone, Nut.parseUntilDone, parsed, ok_bind, done]
    split_ifs
    · exact ⟨next, rfl, represents'⟩
    · exact ih represents'

theorem pconfLine_ok (line : CString) :
    Simulates (pconfLine junk store line) (Nut.pconfLine ctx line) := by
  obtain ⟨after, parsed, represents'⟩ := parseUntilDone_ok junk (startLine_ok represents) (line.takeWhile (· ≠ 0))
  simp only [pconfLine, parsed, ok_bind, Nut.pconfLine]
  cases result : Nut.parseUntilDone charToInt (Nut.startLine ctx) (line.takeWhile (· ≠ 0)) with
  | mk next left =>
    rw [result] at represents'
    cases left with
    | some rest => exact ⟨after, rfl, represents'⟩
    | none =>
      have pending : after.wordptr ≠ 0 ↔ next.wordbuf ≠ [] := by
        rw [represents'.ptr, ne_eq, List.length_eq_zero_iff]
      simp only [Option.isSome_none, Bool.false_eq_true, if_false, pending]
      split_ifs
      · exact endofword_ok junk represents'
      · exact ⟨after, rfl, represents'⟩

theorem pconfLines_ok (lines : List CString) :
    Simulates (pconfLines junk store lines) (lines.foldl Nut.pconfLine ctx) := by
  induction lines generalizing store ctx with
  | nil => exact ⟨store, rfl, represents⟩
  | cons line rest ih =>
    obtain ⟨next, parsed, represents'⟩ := pconfLine_ok junk represents line
    simp only [pconfLines, List.foldlM_cons, parsed, ok_bind, List.foldl_cons]
    exact ih represents'

omit represents in
theorem represents_init (argLimit wordlenLimit : Nat) :
    Represents (pconfStoreInit argLimit wordlenLimit) (pconfInitWith argLimit wordlenLimit) :=
  ⟨rfl, rfl, rfl, ⟨⟨List.replicate 15 0, rfl⟩, by simp [pconfInitWith]⟩, rfl, rfl, rfl, .nil, Nat.le_refl _, .nil⟩

theorem args_ok : store.args = .ok ctx.arglist := by
  have strings {slots : List (Option (List UInt8))} {args : List CString} (stores : List.Forall₂ Stores slots args) :
      (slots.mapM fun pointer => do
        let memory <- follow pointer
        let length <- strlen memory
        (.ok (memory.take length) : Checked CString)) = .ok args := by
    induction stores with
    | nil => rfl
    | cons first _ ih =>
      obtain ⟨memory, rfl, holds⟩ := first
      rw [List.mapM_cons, ih]
      simp only [follow, ok_bind, strlen_holds holds, holds.take]
      rfl
  exact strings represents.args

end Simulation

-- Every state the context can be in between two characters, whatever is fed to it.
inductive Reachable (junk : Nat -> UInt8) (argLimit wordlenLimit : Nat) : PconfStore -> Prop where
  | init : Reachable junk argLimit wordlenLimit (pconfStoreInit argLimit wordlenLimit)
  | startLine {store : PconfStore} (reachable : Reachable junk argLimit wordlenLimit store) :
      Reachable junk argLimit wordlenLimit (startLine store)
  | char {store next : PconfStore} (reachable : Reachable junk argLimit wordlenLimit store) (ch : Int)
      (parsed : parseChar junk store ch = .ok next) : Reachable junk argLimit wordlenLimit next
  | tiedOff {store next : PconfStore} (reachable : Reachable junk argLimit wordlenLimit store)
      (ended : endofword junk store = .ok next) : Reachable junk argLimit wordlenLimit next

theorem Reachable.represents {junk : Nat -> UInt8} {argLimit wordlenLimit : Nat} {store : PconfStore}
    (reachable : Reachable junk argLimit wordlenLimit store) : ∃ ctx, Represents store ctx := by
  induction reachable with
  | init => exact ⟨_, represents_init argLimit wordlenLimit⟩
  | startLine _ ih =>
    obtain ⟨ctx, represents⟩ := ih
    exact ⟨_, startLine_ok represents⟩
  | char _ ch parsed ih =>
    obtain ⟨ctx, represents⟩ := ih
    obtain ⟨next, parsed', represents'⟩ := parseChar_ok junk represents ch
    rw [parsed] at parsed'
    cases parsed'
    exact ⟨_, represents'⟩
  | tiedOff _ ended ih =>
    obtain ⟨ctx, represents⟩ := ih
    obtain ⟨next, ended', represents'⟩ := endofword_ok junk represents
    rw [ended] at ended'
    cases ended'
    exact ⟨_, represents'⟩

-- `wordptr` is at the end of the word, which fits its buffer as every stored word fits its own.
structure Sound (store : PconfStore) : Prop where
  word : ∃ length, strlen store.wordbuf = .ok length ∧ store.wordptr = length ∧ length < store.wordbufsize
  buffer : store.wordbuf.length = store.wordbufsize
  max : store.numargs ≤ store.maxargs
  args : ∀ i < store.numargs, ∃ memory size length, store.arglist[i]? = some (some memory) ∧
    store.argsize[i]? = some size ∧ memory.length = size ∧ strlen memory = .ok length ∧ length < size

theorem Represents.sound {store : PconfStore} {ctx : PconfCtx} (represents : Represents store ctx) : Sound store := by
  have fits := represents.word.length
  refine ⟨⟨_, strlen_holds represents.word, represents.ptr, by rw [<- represents.size]; exact fits⟩, represents.size,
    represents.max, ?_⟩
  intro i inside
  have counted := represents.args.length_eq
  have lists := represents.lists
  have max := represents.max
  have even := represents.sized.length_eq
  rw [List.length_take] at counted
  have there : i < (store.arglist.take store.numargs).length := by
    rw [List.length_take]
    omega
  obtain ⟨memory, slot, holds⟩ := represents.args.get there (by omega)
  obtain ⟨memory', slot', length⟩ := represents.sized.get (by omega : i < store.arglist.length) (by omega)
  simp only [List.get_eq_getElem, List.getElem_take] at slot slot'
  obtain rfl : memory = memory' := Option.some.inj (slot.symm.trans slot')
  refine ⟨memory, _, _, ?_, List.getElem?_eq_getElem (by omega), length, strlen_holds holds, ?_⟩
  · rw [List.getElem?_eq_getElem (by omega), slot]
  · have short := holds.length
    rw [length] at short
    exact short

-- Lines through one context, whatever is in memory that was never written: every step between two characters is safe and
-- leaves the memory sound, and the last line gives the words that a new context gives for it, within the limits.
theorem context_reuse (junk : Nat -> UInt8) (argLimit wordlenLimit : Nat) (before : List CString) (last : CString) :
    (∃ store fresh words, pconfLines junk (pconfStoreInit argLimit wordlenLimit) (before ++ [last]) = .ok store ∧
      pconfLines junk (pconfStoreInit argLimit wordlenLimit) [last] = .ok fresh ∧
      store.args = .ok words ∧ fresh.args = .ok words ∧ (argLimit ≠ 0 -> words.length ≤ argLimit) ∧
      ∀ word ∈ words, (wordlenLimit ≠ 0 -> word.length ≤ wordlenLimit) ∧ ∀ b ∈ word, 0x20 ≤ b.toNat ∧ b.toNat ≤ 0x7f) ∧
    ∀ store, Reachable junk argLimit wordlenLimit store ->
      Sound store ∧ (∀ ch, ∃ next, parseChar junk store ch = .ok next) ∧ ∃ next, endofword junk store = .ok next := by
  constructor
  · have start := represents_init argLimit wordlenLimit
    obtain ⟨store, run, represents⟩ := pconfLines_ok junk start (before ++ [last])
    obtain ⟨fresh, run', represents'⟩ := pconfLines_ok junk start [last]
    have kept (lines : List CString) (ctx : PconfCtx) (refreshed : WithinLimits argLimit wordlenLimit ctx ∧ ctx.wordbuf = []) :
        WithinLimits argLimit wordlenLimit (lines.foldl Nut.pconfLine ctx) ∧ (lines.foldl Nut.pconfLine ctx).wordbuf = [] := by
      induction lines generalizing ctx with
      | nil => exact refreshed
      | cons line rest ih =>
        exact ih _ ⟨within_pconfLine refreshed.1 line, pconfLine_wordbuf refreshed.2 line⟩
    obtain ⟨within, empty⟩ := kept before _ ⟨within_init argLimit wordlenLimit, rfl⟩
    have same : (before ++ [last]).foldl Nut.pconfLine (pconfInitWith argLimit wordlenLimit) =
        [last].foldl Nut.pconfLine (pconfInitWith argLimit wordlenLimit) := by
      rw [List.foldl_append]
      exact pconfLine_fresh within empty last
    rw [same] at represents
    obtain limits := within_pconfLine (within_init argLimit wordlenLimit) last
    refine ⟨store, fresh, _, run, run', args_ok represents, args_ok represents', limits.few, ?_⟩
    intro word member
    obtain ⟨short, text⟩ := limits.words word member
    exact ⟨short, fun b inside => isText_iff.mp (text b inside)⟩
  · intro store reachable
    obtain ⟨ctx, represents⟩ := reachable.represents
    refine ⟨represents.sound, fun ch => ?_, ?_⟩
    · obtain ⟨next, parsed, _⟩ := parseChar_ok junk represents ch
      exact ⟨next, parsed⟩
    · obtain ⟨next, ended, _⟩ := endofword_ok junk represents
      exact ⟨next, ended⟩

end PconfStore

end Nut
