import Nut.Drivers.ShutdownCommands

set_option autoImplicit false

namespace Nut.Shutdown

section Intended

variable {World : Type} (driver : Driver World) (instcmd : World -> CString -> Behaviour World)

def tryInOrder (nested : Caller Unit World) : List CString -> World -> Except Stop (Option CString × List CString × World)
  | [], world => .ok (none, [], world)
  | command :: rest, world =>
    if command = shutdownDefault then
      match runHandler nested (driver.shutdown world) () with
      | .error stop => .error stop
      | .ok (_, _, world) => .ok (some command, [command], world)
    else
      match runHandler nested (instcmd world command) () with
      | .error stop => .error stop
      | .ok (ret, _, world) =>
        if ret = statHandled then .ok (some command, [command], world)
        else
          match tryInOrder nested rest world with
          | .error stop => .error stop
          | .ok (used, tried, world) => .ok (used, command :: tried, world)

def intended : Nat -> Caller Unit World
  | 0, _, _, _ => .error .fatalx
  | levels + 1, _, world, sdcmds =>
    match tryInOrder driver instcmd (intended levels) (strtok 44 (sdcmds.getD [])) world with
    | .error stop => .error stop
    | .ok (used, tried, world) => .ok (answerOf used tried, (), world)

variable (nested : Caller Unit World)

def Behaviour.Touches : Behaviour World -> Prop
  | .done _ _ => False
  | .call world sdcmds next =>
    sdcmds.getD [] ≠ [] ∨
      ∃ answer after, nested () world sdcmds = .ok (answer, (), after) ∧ (next after answer.ret answer.used).Touches

def Behaviour.Within (Fine : World -> Option CString -> Prop) : Behaviour World -> Prop
  | .done _ _ => True
  | .call world sdcmds next =>
    Fine world sdcmds ∧
      ∀ answer after, nested () world sdcmds = .ok (answer, (), after) -> (next after answer.ret answer.used).Within Fine

def ItemsFine (Fine : World -> Option CString -> Prop) : List CString -> World -> Prop
  | [], _ => True
  | command :: rest, world =>
    if command = shutdownDefault then (driver.shutdown world).Within nested Fine
    else
      (instcmd world command).Within nested Fine ∧
        ∀ ret after, runHandler nested (instcmd world command) () = .ok (ret, (), after) -> ret ≠ statHandled ->
          ¬ (instcmd world command).Touches nested ∧ ItemsFine Fine rest after

-- No `instcmd` that is tried and does not handle its command calls for other commands.
def Undisturbed : Nat -> World -> Option CString -> Prop
  | 0, _, _ => True
  | levels + 1, world, sdcmds =>
    ItemsFine driver instcmd (intended driver instcmd levels) (Undisturbed levels) (strtok 44 (sdcmds.getD [])) world

variable {driver instcmd nested}

end Intended

section Tokens

theorem strtok_commas (text : CString) : strtok 44 text = strtok 44 (text.dropWhile (· = 44)) := by
  induction text with
  | nil => rfl
  | cons b text ih =>
    rw [List.dropWhile_cons]
    by_cases comma : b = 44
    · rw [if_pos (by simpa using comma), <- ih, strtok, List.splitOn_cons_eq_if_modifyHead]
      simp [comma, strtok]
    · rw [if_neg (by simpa using comma)]

theorem strtok_token {b : UInt8} (other : b ≠ 44) (rest : CString) :
    strtok 44 (b :: rest) = (b :: rest.takeWhile (· ≠ 44)) :: strtok 44 ((rest.dropWhile (· ≠ 44)).drop 1) := by
  have plain : 44 ∉ b :: rest.takeWhile (· ≠ 44) := by
    rw [List.mem_cons, not_or]
    refine ⟨Ne.symm other, fun member => ?_⟩
    simpa using List.mem_takeWhile_imp member
  have whole : b :: rest = b :: rest.takeWhile (· ≠ 44) ++ rest.dropWhile (· ≠ 44) := by
    rw [List.cons_append, List.takeWhile_append_dropWhile]
  cases behind : rest.dropWhile (· ≠ 44) with
  | nil =>
    rw [behind, List.append_nil] at whole
    rw [whole, strtok, List.splitOn_eq_singleton plain]
    simp [strtok]
  | cons c back =>
    have comma : c = 44 := by
      have head := List.head?_dropWhile_not (· ≠ (44 : UInt8)) rest
      rw [behind] at head
      simpa using head
    rw [behind, comma] at whole
    rw [whole, strtok, List.splitOn_append_cons_self_of_not_mem plain]
    simp [strtok]

end Tokens

section Following

variable {World Value : Type}

-- `strtok` would go on in a buffer that is not there any more.
def Dead (st : Process) : Prop :=
  ∃ buffer rest, st.position = some (buffer, rest) ∧ buffer ∉ st.buffers ∧ buffer < st.next

structure Leaves (moved : Prop) (st after : Process) : Prop where
  depth : after.callDepth = st.callDepth
  buffers : after.buffers = st.buffers
  next : st.next ≤ after.next
  quiet : ¬ moved -> after.position = st.position
  dead : moved -> Dead after

theorem Leaves.refl (st : Process) : Leaves False st st where
  depth := rfl
  buffers := rfl
  next := Nat.le_refl _
  quiet := fun _ => rfl
  dead := False.elim

theorem Leaves.trans {first second : Prop} {st mid after : Process} (one : Leaves first st mid) (two : Leaves second mid after) :
    Leaves (first ∨ second) st after where
  depth := two.depth.trans one.depth
  buffers := two.buffers.trans one.buffers
  next := Nat.le_trans one.next two.next
  quiet still := (two.quiet fun moved => still (.inr moved)).trans (one.quiet fun moved => still (.inl moved))
  dead moved := by
    by_cases later : second
    · exact two.dead later
    · obtain ⟨buffer, rest, position, gone, old⟩ := one.dead (moved.resolve_right later)
      exact ⟨buffer, rest, (two.quiet later).trans position, two.buffers ▸ gone, Nat.lt_of_lt_of_le old two.next⟩

structure Follows (fine moved : Prop) (st : Process) (run : Except Stop (Value × Process × World)) (value : Value)
    (world : World) : Prop where
  result : fine -> ∃ after, run = .ok (value, after, world) ∧ Leaves moved st after
  freed : ¬ fine -> run = .error .freed

def CallsFollow (depth : Nat) (concrete : Caller Process World) (nested : Caller Unit World)
    (Fine : World -> Option CString -> Prop) : Prop :=
  ∀ st world sdcmds answer after, st.callDepth = depth -> nested () world sdcmds = .ok (answer, (), after) ->
    Follows (Fine world sdcmds) (sdcmds.getD [] ≠ []) st (concrete st world sdcmds) answer after

variable {depth : Nat} {concrete : Caller Process World} {nested : Caller Unit World} {Fine : World -> Option CString -> Prop}

theorem runHandler_follows (calls : CallsFollow depth concrete nested Fine) (handler : Behaviour World) {st : Process}
    {ret : Int} {after : World} (isDepth : st.callDepth = depth) (runs : runHandler nested handler () = .ok (ret, (), after)) :
    Follows (handler.Within nested Fine) (handler.Touches nested) st (runHandler concrete handler st) ret after := by
  induction handler generalizing st with
  | done world ret =>
    cases runs
    exact ⟨fun _ => ⟨st, rfl, Leaves.refl st⟩, fun unfine => absurd trivial unfine⟩
  | call world sdcmds next ih =>
    rw [runHandler] at runs
    cases called : nested () world sdcmds with
    | error stop =>
      rw [called] at runs
      cases runs
    | ok result =>
      obtain ⟨answer, _, world'⟩ := result
      rw [called] at runs
      have own := calls st world sdcmds answer world' isDepth called
      have within : (Behaviour.call world sdcmds next).Within nested Fine ↔
          Fine world sdcmds ∧ (next world' answer.ret answer.used).Within nested Fine := by
        simp [Behaviour.Within, called]
      have touches : (Behaviour.call world sdcmds next).Touches nested ↔
          sdcmds.getD [] ≠ [] ∨ (next world' answer.ret answer.used).Touches nested := by
        simp [Behaviour.Touches, called]
      rw [within, touches, runHandler]
      by_cases fine : Fine world sdcmds
      · obtain ⟨mid, same, leaves⟩ := own.result fine
        have rest := ih world' answer.ret answer.used (leaves.depth.trans isDepth) runs
        rw [same]
        constructor
        · rintro ⟨-, within⟩
          obtain ⟨last, same, later⟩ := rest.result within
          exact ⟨last, same, leaves.trans later⟩
        · intro unfine
          exact rest.freed fun within => unfine ⟨fine, within⟩
      · rw [own.freed fine]
        exact ⟨fun both => absurd both.1 fine, fun _ => rfl⟩

theorem strtok_live {st : Process} {start : Option (Nat × CString)} {buffer : Nat} {text : CString}
    (at_ : start.or st.position = some (buffer, text)) (live : buffer ∈ st.buffers) :
    (strtok 44 text = [] -> st.strtok start = .ok (none, { st with position := some (buffer, []) })) ∧
      ∀ command rest, strtok 44 text = command :: rest -> ∃ behind,
        st.strtok start = .ok (some command, { st with position := some (buffer, behind) }) ∧
          strtok 44 behind = rest ∧ behind.length < text.length := by
  have shorter := (List.dropWhile_suffix (· = (44 : UInt8)) (l := text)).length_le
  rw [strtok_commas text, Process.strtok, at_]
  dsimp only
  rw [if_pos live]
  cases left : text.dropWhile (· = 44) with
  | nil => exact ⟨fun _ => rfl, fun command rest isToken => by cases isToken⟩
  | cons b rest =>
    have other : b ≠ 44 := by
      have head := List.head?_dropWhile_not (· = (44 : UInt8)) text
      rw [left] at head
      simpa using head
    rw [strtok_token other]
    refine ⟨nofun, fun command later isToken => ?_⟩
    cases isToken
    refine ⟨_, rfl, rfl, ?_⟩
    have suffix := (List.dropWhile_suffix (· ≠ (44 : UInt8)) (l := rest)).length_le
    rw [left, List.length_cons] at shorter
    rw [List.length_drop]
    omega

theorem strtok_dead {st : Process} (dead : Dead st) : st.strtok none = .error .freed := by
  obtain ⟨buffer, rest, position, gone, -⟩ := dead
  rw [Process.strtok, Option.none_or, position]
  dsimp only
  rw [if_neg gone]

structure Loops (buffer : Nat) (st after : Process) : Prop where
  depth : after.callDepth = st.callDepth
  buffers : after.buffers = st.buffers
  next : st.next ≤ after.next
  position : ∃ last rest, after.position = some (last, rest) ∧ (last = buffer ∨ last ∉ st.buffers) ∧ last < after.next

theorem Leaves.loops {moved : Prop} {st after : Process} {buffer : Nat} {rest : CString} (live : buffer ∈ st.buffers)
    (leaves : Leaves moved { st with position := some (buffer, rest) } after) : Loops buffer st after where
  depth := leaves.depth
  buffers := leaves.buffers
  next := leaves.next
  position := by
    by_cases isMoved : moved
    · obtain ⟨last, behind, position, gone, old⟩ := leaves.dead isMoved
      exact ⟨last, behind, position, .inr (leaves.buffers ▸ gone), old⟩
    · exact ⟨buffer, rest, leaves.quiet isMoved, .inl rfl, Nat.lt_of_lt_of_le (st.fresh buffer live) leaves.next⟩

variable {driver : Driver World} {instcmd : World -> CString -> Behaviour World}

theorem strtokLoop_follows (calls : CallsFollow depth concrete nested Fine) {buffer turns : Nat}
    {start : Option (Nat × CString)} {text : CString} {tried tried' : List CString} {used : Option CString} {st : Process}
    {world after : World} (isDepth : st.callDepth = depth) (live : buffer ∈ st.buffers)
    (at_ : start.or st.position = some (buffer, text)) (room : text.length < turns)
    (runs : tryInOrder driver instcmd nested (strtok 44 text) world = .ok (used, tried', after)) :
    (ItemsFine driver instcmd nested Fine (strtok 44 text) world -> ∃ last,
        strtokLoop driver instcmd concrete turns start tried st world = .ok (used, tried ++ tried', last, after) ∧
          Loops buffer st last) ∧ (¬ ItemsFine driver instcmd nested Fine (strtok 44 text) world ->
        strtokLoop driver instcmd concrete turns start tried st world = .error .freed) := by
  induction turns generalizing start text tried tried' st world with
  | zero => omega
  | succ turns ih =>
    obtain ⟨ends, goes⟩ := strtok_live at_ live
    cases items : strtok 44 text with
    | nil =>
      rw [items, tryInOrder] at runs
      cases runs
      rw [strtokLoop, ends items]
      refine ⟨fun _ => ⟨_, by rw [List.append_nil], ?_⟩, fun unfine => absurd trivial unfine⟩
      exact ⟨rfl, rfl, Nat.le_refl _, buffer, [], rfl, .inl rfl, st.fresh buffer live⟩
    | cons command rest =>
      obtain ⟨behind, token, items', shorter⟩ := goes command rest items
      rw [items, tryInOrder] at runs
      rw [strtokLoop, token, ItemsFine]
      have isDepth' : ({ st with position := some (buffer, behind) } : Process).callDepth = depth := isDepth
      dsimp only
      by_cases isDefault : command = shutdownDefault
      · rw [if_pos isDefault] at runs ⊢
        rw [if_pos isDefault]
        cases handled : runHandler nested (driver.shutdown world) () with
        | error stop =>
          rw [handled] at runs
          cases runs
        | ok result =>
          obtain ⟨ret, _, world'⟩ := result
          rw [handled] at runs
          cases runs
          have follows := runHandler_follows calls _ isDepth' handled
          constructor
          · intro fine
            obtain ⟨last, same, leaves⟩ := follows.result fine
            rw [same]
            exact ⟨last, rfl, leaves.loops live⟩
          · intro unfine
            rw [follows.freed unfine]
      · rw [if_neg isDefault] at runs ⊢
        rw [if_neg isDefault]
        cases ran : runHandler nested (instcmd world command) () with
        | error stop =>
          rw [ran] at runs
          cases runs
        | ok result =>
          obtain ⟨ret, ⟨⟩, world'⟩ := result
          rw [ran] at runs
          have follows := runHandler_follows calls _ isDepth' ran
          by_cases within : (instcmd world command).Within nested Fine
          · obtain ⟨mid, same, leaves⟩ := follows.result within
            rw [same]
            dsimp only at runs ⊢
            by_cases handled : ret = statHandled
            · rw [if_pos handled] at runs ⊢
              cases runs
              refine ⟨fun _ => ⟨mid, rfl, leaves.loops live⟩, fun unfine => ?_⟩
              refine absurd ⟨within, fun ret' after same other => ?_⟩ unfine
              cases same
              exact absurd handled other
            · rw [if_neg handled] at runs ⊢
              have fine_iff : ((instcmd world command).Within nested Fine ∧ ∀ ret' after,
                    (.ok (ret, (), world') : Except Stop (Int × Unit × World)) = .ok (ret', (), after) -> ret' ≠ statHandled ->
                      ¬ (instcmd world command).Touches nested ∧ ItemsFine driver instcmd nested Fine rest after) ↔
                  ¬ (instcmd world command).Touches nested ∧ ItemsFine driver instcmd nested Fine rest world' := by
                simp [within, handled]
              rw [fine_iff]
              by_cases touches : (instcmd world command).Touches nested
              · obtain ⟨turns, rfl⟩ : ∃ more, turns = more + 1 := ⟨turns - 1, by omega⟩
                rw [strtokLoop, strtok_dead (leaves.dead touches)]
                exact ⟨fun fine => absurd touches fine.1, fun _ => rfl⟩
              · cases later : tryInOrder driver instcmd nested rest world' with
                | error stop =>
                  rw [later] at runs
                  cases runs
                | ok result =>
                  obtain ⟨used', tried'', after'⟩ := result
                  rw [later] at runs
                  cases runs
                  have position := leaves.quiet touches
                  rw [<- items'] at later ⊢
                  obtain ⟨finishes, freed⟩ := @ih none behind (tried ++ [command]) tried'' mid world'
                    (leaves.depth.trans isDepth) (by rw [leaves.buffers]; exact live) (by rw [Option.none_or, position])
                    (by omega) later
                  constructor
                  · rintro ⟨-, fine⟩
                    obtain ⟨last, same, loops⟩ := finishes fine
                    refine ⟨last, by rw [same, List.append_assoc, List.singleton_append], ?_⟩
                    refine ⟨loops.depth.trans leaves.depth, loops.buffers.trans leaves.buffers,
                      Nat.le_trans leaves.next loops.next, ?_⟩
                    obtain ⟨own, behind', position', mine, old⟩ := loops.position
                    exact ⟨own, behind', position', mine.imp_right fun gone => by rwa [leaves.buffers] at gone, old⟩
                  · intro unfine
                    exact freed fun fine => unfine ⟨touches, fine⟩
          · rw [follows.freed within]
            exact ⟨fun fine => absurd fine.1 within, fun _ => rfl⟩

theorem erase_alloc (st : Process) : st.alloc.buffers.erase st.next = st.buffers := List.erase_cons_head _ _

theorem doLoopAt_follows (has : driver.instcmd = some instcmd) (levels : Nat) {depth : Nat}
    (room : depth + levels = maxSdcommandsDepth) :
    CallsFollow depth (doLoopAt driver (levels + 1)) (intended driver instcmd levels) (Undisturbed driver instcmd levels) := by
  induction levels generalizing depth with
  | zero => intro st world sdcmds answer after isDepth runs; cases runs
  | succ levels ih =>
    intro st world sdcmds answer after isDepth runs
    have calls := @ih (depth + 1) (by omega)
    rw [intended] at runs
    have shallow : ¬ maxSdcommandsDepth < st.callDepth + 1 := by omega
    rw [doLoopAt, Undisturbed]
    dsimp only
    rw [if_neg shallow]
    cases text : sdcmds.getD [] with
    | nil =>
      rw [text] at runs
      cases runs
      refine ⟨fun _ => ⟨_, rfl, ?_⟩, fun unfine => absurd trivial unfine⟩
      exact ⟨Nat.add_sub_cancel _ _, rfl, Nat.le_refl _, fun _ => rfl, fun moved => absurd rfl moved⟩
    | cons b rest =>
      rw [text] at runs
      cases ran : tryInOrder driver instcmd (intended driver instcmd levels) (strtok 44 (b :: rest)) world with
      | error stop =>
        rw [ran] at runs
        cases runs
      | ok result =>
        obtain ⟨used, tried, world'⟩ := result
        rw [ran] at runs
        cases runs
        rw [has]
        dsimp only
        obtain ⟨finishes, freed⟩ := @strtokLoop_follows _ _ _ _ _ driver instcmd calls st.next (rest.length + 2)
          (some (st.next, b :: rest)) (b :: rest) [] tried used ({ st with callDepth := st.callDepth + 1 } : Process).alloc
          world after (congrArg (· + 1) isDepth) List.mem_cons_self rfl (by rw [List.length_cons]; omega) ran
        constructor
        · intro fine
          obtain ⟨last, same, loops⟩ := finishes fine
          refine ⟨(last.free st.next).leave, by rw [same]; rfl, ?_⟩
          have buffers : (last.free st.next).buffers = st.buffers :=
            (congrArg (List.erase · st.next) loops.buffers).trans (erase_alloc st)
          have newer : st.next ≤ last.next := Nat.le_trans (Nat.le_succ _) loops.next
          refine ⟨?_, buffers, newer, fun still => absurd (List.cons_ne_nil b rest) still, fun _ => ?_⟩
          · exact Nat.sub_eq_of_eq_add loops.depth
          · obtain ⟨own, behind, position, mine, old⟩ := loops.position
            refine ⟨own, behind, position, ?_, old⟩
            show own ∉ (last.free st.next).buffers
            rw [buffers]
            rcases mine with rfl | gone
            · exact fun member => Nat.lt_irrefl _ (st.fresh _ member)
            · exact fun member => gone (List.mem_cons_of_mem _ member)
        · intro unfine
          rw [freed unfine]

end Following

section Without

variable {World State : Type} {driver : Driver World}

theorem runHandler_depth {concrete : Caller Process World}
    (calls : ∀ st world sdcmds answer after world', concrete st world sdcmds = .ok (answer, after, world') ->
      after.callDepth = st.callDepth) (handler : Behaviour World) {st after : Process} {ret : Int} {world : World}
    (runs : runHandler concrete handler st = .ok (ret, after, world)) : after.callDepth = st.callDepth := by
  induction handler generalizing st with
  | done _ _ =>
    cases runs
    rfl
  | call world' sdcmds next ih =>
    rw [runHandler] at runs
    cases called : concrete st world' sdcmds with
    | error stop =>
      rw [called] at runs
      cases runs
    | ok result =>
      obtain ⟨answer, mid, between⟩ := result
      rw [called] at runs
      exact (ih between answer.ret answer.used runs).trans (calls st world' sdcmds answer mid between called)

theorem doLoopAt_without (without : driver.instcmd = none) (levels : Nat) {st after : Process} {world world' : World}
    {sdcmds : Option CString} {answer : Answer} (returns : doLoopAt driver levels st world sdcmds = .ok (answer, after, world')) :
    after.callDepth = st.callDepth ∧
      answer = if defaultFirst (sdcmds.getD []) then answerOf (some shutdownDefault) [shutdownDefault] else answerOf none [] := by
  induction levels generalizing st after world world' sdcmds answer with
  | zero => cases returns
  | succ levels ih =>
    rw [doLoopAt] at returns
    dsimp only at returns
    split at returns
    · cases returns
    cases text : sdcmds.getD [] with
    | nil =>
      rw [text] at returns
      cases returns
      exact ⟨Nat.add_sub_cancel _ _, by decide⟩
    | cons b rest =>
      rw [text, without] at returns
      dsimp only at returns
      by_cases first : defaultFirst (b :: rest) = true
      · rw [if_pos first] at returns ⊢
        cases ran : runHandler (doLoopAt driver levels) (driver.shutdown world)
            ({ st with callDepth := st.callDepth + 1 } : Process) with
        | error stop =>
          rw [ran] at returns
          cases returns
        | ok result =>
          obtain ⟨ret, mid, between⟩ := result
          rw [ran] at returns
          cases returns
          have kept := runHandler_depth (fun _ _ _ _ _ _ returns => (ih returns).1) _ ran
          exact ⟨Nat.sub_eq_of_eq_add kept, rfl⟩
      · rw [if_neg first] at returns ⊢
        cases returns
        exact ⟨Nat.add_sub_cancel _ _, rfl⟩

theorem strtok_between {word : CString} (plain : word ≠ [] ∧ 44 ∉ word) {front back : CString}
    (begins : front = [] ∨ front.getLast? = some 44) (ends : back = [] ∨ back.head? = some 44) :
    word ∈ strtok 44 (front ++ (word ++ back)) := by
  have own : word ∈ strtok 44 (word ++ back) := by
    cases back with
    | nil =>
      rw [List.append_nil, strtok, List.splitOn_eq_singleton plain.2]
      simp [plain.1]
    | cons b back =>
      obtain rfl : b = 44 := by simpa using ends
      rw [strtok, List.splitOn_append_cons_self_of_not_mem plain.2]
      simp [plain.1]
  rcases begins with rfl | comma
  · exact own
  · obtain ⟨before, rfl⟩ := List.getLast?_eq_some_iff.mp comma
    rw [List.append_assoc, List.singleton_append, strtok, List.splitOn_append_cons_self, List.filter_append]
    exact List.mem_append_right _ own

theorem defaultFirst_item {text : CString} (first : defaultFirst text = true) : shutdownDefault ∈ strtok 44 text := by
  unfold defaultFirst at first
  split at first
  · next cs found =>
    obtain ⟨⟨back, split⟩, inside, -⟩ := strstrAt_some.mp found
    rw [Bool.and_eq_true, Bool.or_eq_true, Bool.or_eq_true] at first
    simp only [decide_eq_true_eq] at first
    have behind : text[cs + shutdownDefault.length]? = back.head? := by
      rw [<- List.getElem?_drop, <- split, List.getElem?_append_right (Nat.le_refl _), Nat.sub_self, List.head?_eq_getElem?]
    rw [behind, List.head?_eq_none_iff] at first
    rw [<- List.take_append_drop cs text, <- split]
    refine strtok_between (by decide) ?_ first.2
    by_cases zero : cs = 0
    · exact .inl (by rw [zero, List.take_zero])
    · right
      rw [List.getLast?_eq_getElem?, List.length_take_of_le inside, List.getElem?_take_of_lt (by omega)]
      exact first.1.resolve_left zero
  · cases first

end Without

-- The text has `shutdown.default` as an item only if it also is one where it first occurs.
def FoundFirst (text : CString) : Prop :=
  shutdownDefault ∈ strtok 44 text -> defaultFirst text = true

-- With `upsh.instcmd` a call within the limit does what it is for exactly if it is not disturbed; without, it answers by the
-- items exactly if the first place of `shutdown.default` is that of an item or no item is `shutdown.default`.
theorem shutdown_commands_iff {World : Type} (driver : Driver World) (st : Process) (world : World) (sdcmds : Option CString) :
    (∀ instcmd, driver.instcmd = some instcmd -> ∀ answer world',
      intended driver instcmd (maxSdcommandsDepth - st.callDepth) () world sdcmds = .ok (answer, (), world') ->
        ((∃ after, doLoopShutdownCommands driver st world sdcmds = .ok (answer, after, world') ∧
            after.callDepth = st.callDepth) ↔
          Undisturbed driver instcmd (maxSdcommandsDepth - st.callDepth) world sdcmds)) ∧
      (driver.instcmd = none -> ∀ answer after world',
        doLoopShutdownCommands driver st world sdcmds = .ok (answer, after, world') ->
          (after.callDepth = st.callDepth ∧ (answer.ret = statHandled ↔ shutdownDefault ∈ strtok 44 (sdcmds.getD [])) ↔
            FoundFirst (sdcmds.getD []))) := by
  constructor
  · intro instcmd has answer world' runs
    have shallow : st.callDepth ≤ maxSdcommandsDepth := by
      by_contra deep
      rw [Nat.sub_eq_zero_of_le (Nat.le_of_not_le deep)] at runs
      cases runs
    have follows := doLoopAt_follows has _ (Nat.add_sub_of_le shallow) st world sdcmds answer world' rfl runs
    rw [<- Nat.sub_add_comm shallow] at follows
    constructor
    · rintro ⟨after, returned, -⟩
      by_contra disturbed
      rw [doLoopShutdownCommands, follows.freed disturbed] at returned
      cases returned
    · intro undisturbed
      obtain ⟨after, returned, leaves⟩ := follows.result undisturbed
      exact ⟨after, returned, leaves.depth⟩
  · intro without answer after world' returns
    obtain ⟨depth, same⟩ := doLoopAt_without without _ returns
    have handled : answer.ret = statHandled ↔ defaultFirst (sdcmds.getD []) = true := by
      rw [same]
      split
      · next first => exact iff_of_true rfl first
      · next other => exact iff_of_false (by decide) other
    rw [handled]
    constructor
    · exact fun both => both.2.mpr
    · exact fun found => ⟨depth, defaultFirst_item, found⟩

section Example

def idle : Process :=
  { callDepth := 0, position := none, buffers := [], next := 0, fresh := nofun }

def stayoffInstcmd (_ : Unit) (command : CString) : Behaviour Unit :=
  if command = cstr "shutdown.stayoff" then .call () (some (cstr "load.off")) fun _ ret _ => .done () ret else .done () 3

def stayoffByLoadOff : Driver Unit where
  instcmd := some stayoffInstcmd
  shutdown _ := .done () 0

theorem shutdown_commands_handled :
    (∃ after, doLoopShutdownCommands stayoffByLoadOff idle () (some (cstr "beeper.off,,shutdown.default")) =
        .ok (answerOf (some shutdownDefault) [cstr "beeper.off", shutdownDefault], after, ()) ∧ after.callDepth = 0) ∧
      ∃ after, doLoopShutdownCommands { stayoffByLoadOff with instcmd := none } idle () (some (cstr "load.off,shutdown.default")) =
        .ok (answerOf (some shutdownDefault) [shutdownDefault], after, ()) ∧ after.callDepth = 0 := by
  constructor
  · refine ((shutdown_commands_iff stayoffByLoadOff idle () (some (cstr "beeper.off,,shutdown.default"))).1 _ rfl _ () rfl).mpr ?_
    refine ⟨trivial, fun ret after ran other => ?_⟩
    cases ran
    exact ⟨id, trivial⟩
  · have answers := (shutdown_commands_iff { stayoffByLoadOff with instcmd := none } idle ()
      (some (cstr "load.off,shutdown.default"))).2 rfl _ _ () rfl
    exact ⟨_, rfl, (answers.mpr fun _ => by decide).1⟩

-- Where `shutdown.stayoff` fails by way of another list, the default shutdown that is next is not tried: the token is read from
-- a buffer that has been freed. Without `upsh.instcmd` it is not found behind a longer item.
theorem default_not_tried :
    (intended stayoffByLoadOff stayoffInstcmd 15 () () (some (cstr "shutdown.stayoff,shutdown.default")) =
        .ok (answerOf (some shutdownDefault) [cstr "shutdown.stayoff", shutdownDefault], (), ()) ∧
      doLoopShutdownCommands stayoffByLoadOff idle () (some (cstr "shutdown.stayoff,shutdown.default")) = .error .freed) ∧
      shutdownDefault ∈ strtok 44 (cstr "shutdown.default.off,shutdown.default") ∧
        ∃ after, doLoopShutdownCommands { stayoffByLoadOff with instcmd := none } idle ()
          (some (cstr "shutdown.default.off,shutdown.default")) = .ok (answerOf none [], after, ()) :=
  ⟨⟨rfl, rfl⟩, by decide, _, rfl⟩

end Example

end Nut.Shutdown
