import Nut.Drivers.CloneTiming
import Nut.Drivers.HeldValues

set_option autoImplicit false

namespace Nut

namespace Clone

variable {D : Type}

def tree (w : Clone D) : StTree :=
  w.own.dstate.dtreeRoot

def isOwn (var : CString) : Bool :=
  isDriverSetting var || isCommand var "ups.status"

theorem startsWith_congr {a b : CString} (same : strcasecmp a b = .eq) (lead : CString) :
    Main.startsWith lead a = Main.startsWith lead b := by
  have folded := (strcasecmp_eq_iff a b).mp same
  unfold foldCase at folded
  have front : foldCase (a.take lead.length) = foldCase (b.take lead.length) := by
    unfold foldCase
    rw [List.map_take, List.map_take, folded]
  unfold Main.startsWith
  rw [strcasecmp_eq_compare, strcasecmp_eq_compare, front]

theorem isCommand_congr {a b : CString} (same : strcasecmp a b = .eq) (word : String) : isCommand a word = isCommand b word := by
  unfold isCommand
  rw [strcasecmp_eq_compare, strcasecmp_eq_compare, (strcasecmp_eq_iff a b).mp same]

theorem isOwn_congr {a b : CString} (same : strcasecmp a b = .eq) : isOwn a = isOwn b := by
  unfold isOwn isDriverSetting
  simp only [startsWith_congr same, isCommand_congr same]

theorem own_differs {own other : CString} (isOwn_ : isOwn own = true) (other_ : isOwn other = false) :
    strcasecmp own other ≠ .eq := fun same => by
  rw [isOwn_congr same, other_] at isOwn_
  cases isOwn_

structure OnlyOwn (w w' : Clone D) : Prop where
  others : ∀ var, isOwn var = false -> held w'.tree var = held w.tree var
  ordered : Ordered w'.tree
  status : w'.status = w.status

namespace OnlyOwn

theorem refl {w : Clone D} (ordered : Ordered w.tree) : w.OnlyOwn w := ⟨fun _ _ => rfl, ordered, rfl⟩

theorem of_same {w v v' : Clone D} (first : w.OnlyOwn v) (tree : v'.tree = v.tree) (status : v'.status = v.status) :
    w.OnlyOwn v' where
  others var other := (congrArg (held · var) tree).trans (first.others var other)
  ordered := tree ▸ first.ordered
  status := status.trans first.status

variable {w v : Clone D}

theorem setinfo (first : w.OnlyOwn v) {var : CString} (own : isOwn var = true) (text : CString) :
    w.OnlyOwn (v.dstate (.setinfo var text)) where
  others other isOther := (congrArg (Option.map StNode.raw) (find_setinfo_other first.ordered _ _ (own_differs own isOther))).trans (first.others other isOther)
  ordered := ordered_setinfo first.ordered _ _ _
  status := first.status

theorem statusCommit (first : w.OnlyOwn v) : w.OnlyOwn v.statusCommit := by
  obtain ⟨text, committed⟩ := commit_setinfo v.clock (v.trends.headD .unknown) v.own
  have published : v.statusCommit.tree = (v.dstate (.setinfo (cstr "ups.status") text)).tree := congrArg Dstate.dtreeRoot committed
  exact (first.setinfo (by decide) text).of_same published rfl

theorem call (first : w.OnlyOwn v) {op : StatusOp} (quiet : (v.own.perform op).dstate = v.own.dstate) : w.OnlyOwn (v.call op) :=
  first.of_same (congrArg Dstate.dtreeRoot quiet) rfl

end OnlyOwn

section Updates

variable {w v : Clone D}

theorem onlyOwn_sendLoad (first : w.OnlyOwn v) (load : Option CString) (act : CloneAct) (sends : Bool) :
    w.OnlyOwn (v.sendLoad load act sends) := by
  unfold sendLoad
  cases load with
  | none => exact first
  | some cmd =>
    unfold sstateSendline
    dsimp only
    split <;> split <;> exact first.of_same rfl rfl

theorem onlyOwn_startShutdown (first : w.OnlyOwn v) : w.OnlyOwn v.startShutdown := by
  unfold startShutdown
  split
  · exact ((first.of_same rfl rfl : w.OnlyOwn { v with timerShutdown := v.offdelay }).call rfl).statusCommit
  · exact first

theorem onlyOwn_timerStart (first : w.OnlyOwn v) (start : Int) (act : CloneAct) :
    w.OnlyOwn ({ v with timerStart := start }.note act) := first.of_same rfl rfl

theorem onlyOwn_instcmd (first : w.OnlyOwn v) (cmdname : CString) (extra : Option CString) (now : Int) :
    w.OnlyOwn (v.instcmd cmdname extra now).1 := by
  have armed (start : Int) (act : CloneAct) : w.OnlyOwn ({ v.startShutdown with timerStart := start }.note act) :=
    onlyOwn_timerStart (onlyOwn_startShutdown first) start act
  unfold instcmd
  split
  · exact armed _ _
  · split
    · exact armed _ _
    · exact first

theorem onlyOwn_publishTimers (first : w.OnlyOwn v) : w.OnlyOwn v.publishTimers :=
  (first.setinfo (by decide) _).setinfo (by decide) _

theorem onlyOwn_lastPoll (first : w.OnlyOwn v) (now : Int) : w.OnlyOwn { v with lastPoll := now } :=
  first.of_same rfl rfl

theorem onlyOwn_finishUpdate (first : w.OnlyOwn v) (now : Int) : w.OnlyOwn (v.finishUpdate now) :=
  onlyOwn_lastPoll (onlyOwn_publishTimers first).statusCommit now

theorem onlyOwn_reportStatus (first : w.OnlyOwn v) (now : Int) : w.OnlyOwn (v.reportStatus now) := by
  have begun : w.OnlyOwn (v.call .statusInit) := first.call rfl
  have reported : w.OnlyOwn ((v.call .statusInit).call (.statusSet v.status)) := begun.call rfl
  unfold reportStatus
  dsimp only
  generalize (v.call .statusInit).call (.statusSet v.status) = u at reported ⊢
  have checked : w.OnlyOwn ({ u with online := u.own.statusGet "OL" }.note (.checked (u.own.statusGet "OL") now)) :=
    reported.of_same rfl rfl
  split
  · exact checked
  · exact checked.call rfl

variable [CDouble D]

omit [CDouble D] in
theorem onlyOwn_endShutdown (first : w.OnlyOwn v) (now : Int) (sends : Bool) : w.OnlyOwn (v.endShutdown now sends) := by
  have noted : w.OnlyOwn ({ v with timerShutdown := -1 }.note (.expired now)) := first.of_same rfl rfl
  have sent := onlyOwn_sendLoad noted v.loadOff (.loadOff now) sends
  unfold endShutdown
  dsimp only
  split
  · exact sent.of_same rfl rfl
  · exact sent

omit [CDouble D] in
theorem onlyOwn_countShutdown (first : w.OnlyOwn v) (now : Int) (sends : Bool) : w.OnlyOwn (v.countShutdown now sends) := by
  have set : w.OnlyOwn (v.call (.statusSet (cstr "FSD"))) := first.call rfl
  unfold countShutdown
  dsimp only
  split
  · exact onlyOwn_endShutdown set now sends
  · exact set.of_same rfl rfl

omit [CDouble D] in
theorem onlyOwn_countStart (first : w.OnlyOwn v) (now : Int) (sends : Bool) : w.OnlyOwn (v.countStart now sends) := by
  have stopped : w.OnlyOwn { v with timerStart := -1 } := first.of_same rfl rfl
  have sent := onlyOwn_sendLoad stopped v.loadOn (.loadOn now) sends
  unfold countStart
  split
  · unfold endStart
    dsimp only
    split
    · exact sent.of_same rfl rfl
    · exact sent
  · exact first.of_same rfl rfl

theorem onlyOwn_countTimers (first : w.OnlyOwn v) (now : Int) (sends : Bool) : w.OnlyOwn (v.countTimers now sends) := by
  unfold countTimers
  split
  · exact onlyOwn_countShutdown first now sends
  · split
    · exact onlyOwn_countStart first now sends
    · unfold watchBattery
      split
      · exact onlyOwn_instcmd first _ _ _
      · exact first

theorem onlyOwn_setvar (first : w.OnlyOwn v) (varname val : CString) : w.OnlyOwn (v.setvar varname val).1 := by
  unfold setvar
  split
  · have changed : w.OnlyOwn { v with charge.low := CDouble.strtod val } := first.of_same rfl rfl
    exact changed.setinfo (by decide) _
  · split
    · have changed : w.OnlyOwn { v with runtime.low := CDouble.strtod val } := first.of_same rfl rfl
      exact changed.setinfo (by decide) _
    · exact first

end Updates

section Lines

def told : List CString -> Option (CString × Option CString)
  | keyword :: var :: rest =>
    if isCommand keyword "DELINFO" then some (var, none)
    else if isCommand keyword "SETINFO" then rest.head?.map fun val => (var, some val)
    else none
  | _ => none

def lastTold (lines : List (List CString)) (var : CString) : Option (Option CString) :=
  ((lines.filterMap told).filter fun entry => strcasecmp entry.1 var = .eq).getLast?.map Prod.snd

def lastStatus (lines : List (List CString)) : Option CString :=
  ((lines.filterMap told).filterMap fun entry => if isCommand entry.1 "ups.status" then entry.2 else none).getLast?

theorem lastTold_same {lines : List (List CString)} {line : List CString} {var name : CString} {value : Option CString}
    (isTold : told line = some (name, value)) (same : strcasecmp name var = .eq) :
    lastTold (lines ++ [line]) var = some value := by
  simp [lastTold, isTold, same]

theorem lastTold_other {lines : List (List CString)} {line : List CString} {var : CString}
    (other : ∀ name value, told line = some (name, value) -> strcasecmp name var ≠ .eq) :
    lastTold (lines ++ [line]) var = lastTold lines var := by
  cases isTold : told line with
  | none => simp [lastTold, isTold]
  | some entry => simp [lastTold, isTold, other entry.1 entry.2 isTold]

theorem lastStatus_append (lines : List (List CString)) (line : List CString) : lastStatus (lines ++ [line]) =
      ((told line).bind fun entry => if isCommand entry.1 "ups.status" then entry.2 else none).or (lastStatus lines) := by
  unfold lastStatus
  cases isTold : told line with
  | none => simp [isTold]
  | some entry =>
    by_cases same : isCommand entry.1 "ups.status" = true
    · cases entry.2 <;> simp_all
    · simp [isTold, same]

theorem isCommand_other {keyword : CString} {first second : String} (same : isCommand keyword first = true)
    (apart : foldCase (cstr first) ≠ foldCase (cstr second)) : isCommand keyword second = false := by
  rw [isCommand, beq_iff_eq, strcasecmp_eq_iff] at same
  rw [isCommand, beq_eq_false_iff_ne, ne_eq, strcasecmp_eq_iff, same]
  exact apart

variable [CDouble D]

structure SameValues (w w' : Clone D) : Prop where
  tree : w'.tree = w.tree
  status : w'.status = w.status
  charge : w'.charge.low = w.charge.low
  runtime : w'.runtime.low = w.runtime.low

omit [CDouble D] in
theorem dataok_values (w : Clone D) : w.SameValues (w.dstate .dataok) := by
  refine ⟨?_, rfl, rfl, rfl⟩
  show (Dstate.dstateDataok w.own.dstate).1.dtreeRoot = _
  unfold Dstate.dstateDataok
  split <;> rfl

omit [CDouble D] in
theorem datastale_values (w : Clone D) : w.SameValues (w.dstate .datastale) := by
  refine ⟨?_, rfl, rfl, rfl⟩
  show (Dstate.dstateDatastale w.own.dstate).1.dtreeRoot = _
  unfold Dstate.dstateDatastale
  split <;> rfl

theorem parseArgs_untold (w : Clone D) {line : List CString} (untold : told line = none) : w.SameValues (w.parseArgs line).1 := by
  have same : w.SameValues w := ⟨rfl, rfl, rfl, rfl⟩
  have done : w.SameValues { w with dumpdone := true } := ⟨rfl, rfl, rfl, rfl⟩
  have ok := dataok_values w
  have stale := datastale_values w
  rcases line with _ | ⟨keyword, _ | ⟨var, _ | ⟨val, more⟩⟩⟩
  · exact same
  · simp only [parseArgs]
    split_ifs <;> assumption
  · simp only [parseArgs]
    split_ifs with _ _ _ _ del
    · assumption
    · assumption
    · assumption
    · assumption
    · simp [told, del] at untold
    · assumption
  · simp only [parseArgs]
    split_ifs with _ _ _ _ del set
    · assumption
    · assumption
    · assumption
    · assumption
    · simp [told, del] at untold
    · simp [told, del, set] at untold
    · assumption

theorem parseArgs_told (w : Clone D) {line : List CString} {var : CString} {value : Option CString}
    (isTold : told line = some (var, value)) :
    (w.parseArgs line).1 = value.elim (w.dstate (.delinfo var)) fun val => w.setinfo var val := by
  rcases line with _ | ⟨keyword, _ | ⟨name, rest⟩⟩
  · cases isTold
  · cases isTold
  simp only [told] at isTold
  by_cases del : isCommand keyword "DELINFO" = true
  · rw [if_pos del] at isTold
    cases isTold
    simp only [parseArgs, isCommand_other del (by decide : foldCase (cstr "DELINFO") ≠ foldCase (cstr "PONG")),
      isCommand_other del (by decide : foldCase (cstr "DELINFO") ≠ foldCase (cstr "DUMPDONE")),
      isCommand_other del (by decide : foldCase (cstr "DELINFO") ≠ foldCase (cstr "DATASTALE")),
      isCommand_other del (by decide : foldCase (cstr "DELINFO") ≠ foldCase (cstr "DATAOK")), del]
    rfl
  · rw [if_neg del] at isTold
    by_cases set : isCommand keyword "SETINFO" = true
    · rw [if_pos set] at isTold
      cases rest with
      | nil => cases isTold
      | cons val more =>
        cases isTold
        simp only [parseArgs, isCommand_other set (by decide : foldCase (cstr "SETINFO") ≠ foldCase (cstr "PONG")),
          isCommand_other set (by decide : foldCase (cstr "SETINFO") ≠ foldCase (cstr "DUMPDONE")),
          isCommand_other set (by decide : foldCase (cstr "SETINFO") ≠ foldCase (cstr "DATASTALE")),
          isCommand_other set (by decide : foldCase (cstr "SETINFO") ≠ foldCase (cstr "DATAOK")),
          isCommand_other set (by decide : foldCase (cstr "SETINFO") ≠ foldCase (cstr "DELINFO")), set]
        rfl
    · rw [if_neg set] at isTold
      cases isTold

def OwnLimit (w : Clone D) (var : CString) (value : Option CString) : Prop :=
  (isCommand var "battery.charge.low" = true ∧ value = some (snprintf stMaxValueLen (CDouble.print w.charge.low))) ∨
    (isCommand var "battery.runtime.low" = true ∧ value = some (snprintf stMaxValueLen (CDouble.print w.runtime.low)))

structure KeepsOwn (w w' : Clone D) : Prop where
  ordered : Ordered w'.tree
  own : ∀ var, isOwn var = true -> held w'.tree var = held w.tree var ∨ w.OwnLimit var (held w'.tree var)
  charge : w'.charge.low = w.charge.low
  runtime : w'.runtime.low = w.runtime.low

variable {w v v' : Clone D}

theorem keepsOwn_tree (keeps : w.KeepsOwn v) (tree : v'.tree = v.tree) (charge : v'.charge.low = v.charge.low)
    (runtime : v'.runtime.low = v.runtime.low) : w.KeepsOwn v' where
  ordered := tree ▸ keeps.ordered
  own var isOwn_ := by
    rw [tree]
    exact keeps.own var isOwn_
  charge := charge.trans keeps.charge
  runtime := runtime.trans keeps.runtime

theorem keepsOwn_values (keeps : w.KeepsOwn v) (same : v.SameValues v') : w.KeepsOwn v' :=
  keepsOwn_tree keeps same.tree same.charge same.runtime

theorem publishLow_tree (ordered : Ordered v.tree) (var : String) (low : D) (aux : Int64) :
    Ordered (v.publishLow var low aux).tree ∧ (∀ other, strcasecmp (cstr var) other ≠ .eq ->
        stateTreeFind (v.publishLow var low aux).tree other = stateTreeFind v.tree other) ∧
      (held (v.publishLow var low aux).tree (cstr var) = held v.tree (cstr var) ∨
        held (v.publishLow var low aux).tree (cstr var) = some (snprintf stMaxValueLen (CDouble.print low))) := by
  have set := ordered_setinfo ordered v.clock (cstr var) (snprintf stMaxValueLen (CDouble.print low))
  have flags := @besides_setflags (cstr var) (v.dstate (.setinfo (cstr var) (CDouble.print low))).own.dstate set
    (stFlagRw ||| stFlagString)
  have aux_ := @besides_setaux (cstr var)
    ((v.dstate (.setinfo (cstr var) (CDouble.print low))).dstate (.setflags (cstr var) (stFlagRw ||| stFlagString))).own.dstate
    flags.ordered aux
  refine ⟨aux_.ordered, fun other different => ?_, ?_⟩
  · exact ((aux_.others other different).trans (flags.others other different)).trans
      (find_setinfo_other ordered v.clock _ different)
  · have value := (aux_.held (cstr var)).trans (flags.held (cstr var))
    rcases held_setinfo ordered v.clock (snprintf stMaxValueLen (CDouble.print low)) with new | ⟨-, old⟩
    · exact .inr (value.trans new)
    · exact .inl (value.trans old)

theorem limit_congr {var other : CString} (same : strcasecmp var other = .eq) {value : Option CString}
    (limit : w.OwnLimit var value) : w.OwnLimit other value := by
  unfold OwnLimit at limit ⊢
  rwa [isCommand_congr same, isCommand_congr same] at limit

theorem keepsOwn_publishLow (keeps : w.KeepsOwn v) {var : String} {low : D} (aux : Int64)
    (limit : w.OwnLimit (cstr var) (some (snprintf stMaxValueLen (CDouble.print low)))) :
    w.KeepsOwn (v.publishLow var low aux) := by
  obtain ⟨ordered, others, value⟩ := publishLow_tree keeps.ordered var low aux
  refine ⟨ordered, fun x own => ?_, keeps.charge, keeps.runtime⟩
  by_cases same : strcasecmp (cstr var) x = .eq
  · rw [<- held_congr same]
    rcases value with old | new
    · rw [old, held_congr same]
      exact keeps.own x own
    · rw [new]
      exact .inr (limit_congr same limit)
  · rw [held, others x same]
    exact keeps.own x own

structure Near (w v u : Clone D) : Prop where
  keeps : w.KeepsOwn u
  others : ∀ var, isOwn var = false -> stateTreeFind u.tree var = stateTreeFind v.tree var
  status : u.status = v.status

theorem near_values {u u' : Clone D} (near : Near w v u) (same : u.SameValues u') : Near w v u' where
  keeps := keepsOwn_values near.keeps same
  others var other := by rw [same.tree]; exact near.others var other
  status := same.status.trans near.status

theorem near_publishLow {u : Clone D} (near : Near w v u) {var : String} {low : D} (aux : Int64) (own : isOwn (cstr var) = true)
    (limit : w.OwnLimit (cstr var) (some (snprintf stMaxValueLen (CDouble.print low)))) :
    Near w v (u.publishLow var low aux) where
  keeps := keepsOwn_publishLow near.keeps aux limit
  others x other := ((publishLow_tree near.keeps.ordered var low aux).2.1 x (own_differs own other)).trans (near.others x other)
  status := near.status

theorem setinfo_other (keeps : w.KeepsOwn v) {var : CString} (other : isOwn var = false) (val : CString) :
    ∃ u, Near w v u ∧ v.setinfo var val = u.dstate (.setinfo var val) := by
  obtain ⟨setting, status⟩ := Bool.or_eq_false_iff.mp other
  have start : Near w v v := ⟨keeps, fun _ _ => rfl, rfl⟩
  have outlet : ∀ u, Near w v u -> Near w v (u.noteOutlet val) := by
    intro u near
    refine near_values near ?_
    unfold noteOutlet
    dsimp only
    split <;> split <;> exact ⟨rfl, rfl, rfl, rfl⟩
  have charge : ∀ u : Clone D, Near w v u -> Near w v (({ u with charge.act := CDouble.strtod val } : Clone D).publishLow
      "battery.charge.low" u.charge.low 3) := by
    intro u near
    have moved : Near w v { u with charge.act := CDouble.strtod val } := near_values near ⟨rfl, rfl, rfl, rfl⟩
    refine near_publishLow moved 3 (by decide) (.inl ⟨by decide, ?_⟩)
    rw [near.keeps.charge]
  have runtime : ∀ u : Clone D, Near w v u -> Near w v (({ u with runtime.act := CDouble.strtod val } : Clone D).publishLow
      "battery.runtime.low" u.runtime.low 4) := by
    intro u near
    have moved : Near w v { u with runtime.act := CDouble.strtod val } := near_values near ⟨rfl, rfl, rfl, rfl⟩
    refine near_publishLow moved 4 (by decide) (.inr ⟨by decide, ?_⟩)
    rw [near.keeps.runtime]
  have either : ∀ (c : Bool) (u u' : Clone D), Near w v u -> Near w v u' -> Near w v (if c = true then u' else u) := by
    intro c u u' near near'
    split
    · exact near'
    · exact near
  unfold setinfo
  rw [if_neg (Bool.not_eq_true _ ▸ setting), if_neg (Bool.not_eq_true _ ▸ status)]
  refine ⟨_, ?_, rfl⟩
  have first := either (v.loadStatus.any fun name => strcasecmp var name = .eq) v _ start (outlet v start)
  have second := either (isCommand var "battery.charge") _ _ first (charge _ first)
  exact either (isCommand var "battery.runtime") _ _ second (runtime _ second)

def LineRegular (w : Clone D) (line : List CString) : Prop :=
  match told line with
  | none => True
  | some (var, none) => isOwn var = true -> held w.tree var = none ∨ Fixed w.tree var
  | some (var, some val) =>
    isOwn var = false -> val.length < stMaxValueLen ∧ (Fixed w.tree var -> held w.tree var = some val)

def Mirrored (lines : List (List CString)) (w : Clone D) : Prop :=
  ∀ var val, isOwn var = false -> lastTold lines var = some (some val) -> held w.tree var = some val

structure Listened (before : List (List CString)) (w : Clone D) (lines : List (List CString)) (v : Clone D) : Prop where
  keeps : w.KeepsOwn v
  mirrored : Mirrored (before ++ lines) v
  status : v.status = ((lastStatus lines).map (snprintf stMaxValueLen)).getD w.status

theorem lastStatus_untold {lines : List (List CString)} {line : List CString}
    (silent : ∀ var val, told line = some (var, some val) -> isCommand var "ups.status" = false) :
    lastStatus (lines ++ [line]) = lastStatus lines := by
  rw [lastStatus_append]
  cases isTold : told line with
  | none => rfl
  | some entry =>
    obtain ⟨var, value⟩ := entry
    cases value with
    | none => simp
    | some val => simp [silent var val isTold]

theorem listened_values {before lines : List (List CString)} (listened : Listened before w lines v) (same : v.SameValues v') :
    Listened before w lines v' where
  keeps := keepsOwn_values listened.keeps same
  mirrored var val other isTold := by
    rw [same.tree]
    exact listened.mirrored var val other isTold
  status := same.status.trans listened.status

theorem listened_delinfo {before lines : List (List CString)} {line : List CString} {var : CString}
    (listened : Listened before w lines v) (isTold : told line = some (var, none))
    (kept : isOwn var = true -> held v.tree var = none ∨ Fixed v.tree var) :
    Listened before w (lines ++ [line]) (v.dstate (.delinfo var)) where
  keeps := by
    refine ⟨ordered_stateVisit listened.keeps.ordered delinfo_var (fun _ made => by cases made), fun x own => ?_,
      listened.keeps.charge, listened.keeps.runtime⟩
    have same : held (v.dstate (.delinfo var)).tree x = held v.tree x := by
      by_cases here : strcasecmp var x = .eq
      · rw [<- held_congr here, <- held_congr here]
        exact held_delinfo listened.keeps.ordered (kept (by rw [isOwn_congr here, own]))
      · exact held_delinfo_other listened.keeps.ordered here
    rw [same]
    exact listened.keeps.own x own
  mirrored x val other isTold' := by
    by_cases here : strcasecmp var x = .eq
    · rw [<- List.append_assoc, lastTold_same isTold here] at isTold'
      cases isTold'
    · rw [<- List.append_assoc, lastTold_other] at isTold'
      · exact (held_delinfo_other listened.keeps.ordered here).trans (listened.mirrored x val other isTold')
      · intro name value told_
        rw [isTold] at told_
        cases told_
        exact here
  status := by
    rw [lastStatus_untold fun name val told_ => by rw [isTold] at told_; cases told_]
    exact listened.status

theorem listened_setinfo {before lines : List (List CString)} {line : List CString} {var val : CString}
    (listened : Listened before w lines v) (isTold : told line = some (var, some val)) (other : isOwn var = false)
    (room : val.length < stMaxValueLen) (fixed : Fixed v.tree var -> held v.tree var = some val) :
    Listened before w (lines ++ [line]) (v.setinfo var val) := by
  obtain ⟨u, near, set⟩ := setinfo_other listened.keeps other val
  have unstatus : isCommand var "ups.status" = false := (Bool.or_eq_false_iff.mp other).2
  have atVar : held (u.dstate (.setinfo var val)).tree var = some val := by
    rcases held_setinfo near.keeps.ordered u.clock (snprintf stMaxValueLen val) with new | ⟨isFixed, old⟩
    · exact new.trans (congrArg some (snprintf_fits room))
    · refine old.trans ?_
      rw [Fixed, near.others var other] at isFixed
      rw [held, near.others var other]
      exact fixed isFixed
  have elsewhere : ∀ x, strcasecmp var x ≠ .eq -> held (u.dstate (.setinfo var val)).tree x = held u.tree x := fun x apart =>
    congrArg (Option.map StNode.raw) (find_setinfo_other near.keeps.ordered u.clock _ apart)
  rw [set]
  constructor
  case keeps =>
    refine ⟨ordered_setinfo near.keeps.ordered _ _ _, fun x own => ?_, near.keeps.charge, near.keeps.runtime⟩
    have apart : strcasecmp var x ≠ .eq := fun same => by
      rw [isOwn_congr same, own] at other
      cases other
    rw [elsewhere x apart]
    exact near.keeps.own x own
  case mirrored =>
    intro x val' otherX isTold'
    by_cases here : strcasecmp var x = .eq
    · rw [<- List.append_assoc, lastTold_same isTold here] at isTold'
      cases isTold'
      rw [<- held_congr here]
      exact atVar
    · rw [<- List.append_assoc, lastTold_other] at isTold'
      · rw [elsewhere x here, held, near.others x otherX]
        exact listened.mirrored x val' otherX isTold'
      · intro name value told_
        rw [isTold] at told_
        cases told_
        exact here
  case status =>
    rw [lastStatus_untold fun name val told_ => by rw [isTold] at told_; cases told_; exact unstatus]
    exact near.status.trans listened.status

theorem setting_status {var : CString} (status : isCommand var "ups.status" = true) : isDriverSetting var = false := by
  rw [isCommand, beq_iff_eq] at status
  have same : isDriverSetting var = isDriverSetting (cstr "ups.status") := by
    unfold isDriverSetting
    simp only [startsWith_congr status, isCommand_congr status]
  rw [same]
  decide

theorem listened_own {before lines : List (List CString)} {line : List CString} {var val : CString}
    (listened : Listened before w lines v) (isTold : told line = some (var, some val)) (own : isOwn var = true) :
    Listened before w (lines ++ [line]) (v.setinfo var val) := by
  have mirrored : Mirrored (before ++ (lines ++ [line])) v := by
    intro x val' other isTold'
    rw [<- List.append_assoc, lastTold_other] at isTold'
    · exact listened.mirrored x val' other isTold'
    · intro name value told_
      rw [isTold] at told_
      cases told_
      exact own_differs own other
  unfold setinfo
  by_cases status : isCommand var "ups.status" = true
  · rw [setting_status status, if_neg Bool.false_ne_true, if_pos status]
    refine ⟨keepsOwn_tree listened.keeps rfl rfl rfl, mirrored, ?_⟩
    rw [lastStatus_append, isTold, Option.bind_some, if_pos status]
    rfl
  · have setting : isDriverSetting var = true := (Bool.or_eq_true _ _ |>.mp own).resolve_right status
    rw [if_pos setting]
    refine ⟨listened.keeps, mirrored, ?_⟩
    rw [lastStatus_untold]
    · exact listened.status
    · intro name val' told_
      rw [isTold] at told_
      cases told_
      exact Bool.not_eq_true _ ▸ status

theorem listened_line {before lines : List (List CString)} {line : List CString} (listened : Listened before w lines v)
    (regular : v.LineRegular line) : Listened before w (lines ++ [line]) (v.parseArgs line).1 := by
  unfold LineRegular at regular
  cases isTold : told line with
  | none =>
    have silent : Listened before w (lines ++ [line]) v := by
      refine ⟨listened.keeps, fun x val other isTold' => ?_, ?_⟩
      · rw [<- List.append_assoc, lastTold_other fun name value told_ => by rw [isTold] at told_; cases told_] at isTold'
        exact listened.mirrored x val other isTold'
      · rw [lastStatus_untold fun name val told_ => by rw [isTold] at told_; cases told_]
        exact listened.status
    exact listened_values silent (parseArgs_untold v isTold)
  | some entry =>
    obtain ⟨var, value⟩ := entry
    rw [isTold] at regular
    rw [parseArgs_told v isTold]
    cases value with
    | none => exact listened_delinfo listened isTold regular
    | some val =>
      by_cases own : isOwn var = true
      · exact listened_own listened isTold own
      · rw [Bool.not_eq_true] at own
        obtain ⟨room, fixed⟩ := regular own
        exact listened_setinfo listened isTold own room fixed

def behindLine (w : Clone D) (lineTime : Int) (line : List CString) : Clone D :=
  if (w.parseArgs line).2 then { (w.parseArgs line).1 with lastHeard := lineTime } else (w.parseArgs line).1

def linesRead (lineTime : Int) : CString -> Clone D -> List (List CString)
  | [], _ => []
  | b :: bytes, w =>
    let (ctx, parsed) := pconfChar w.sockCtx b
    if parsed = 1 then ctx.arglist :: linesRead lineTime bytes ({ w with sockCtx := ctx }.behindLine lineTime ctx.arglist)
    else if parsed = 0 then linesRead lineTime bytes { w with sockCtx := ctx }
    else []

def EachLine (P : Clone D -> List CString -> Prop) (lineTime : Int) : CString -> Clone D -> Prop
  | [], _ => True
  | b :: bytes, w =>
    let (ctx, parsed) := pconfChar w.sockCtx b
    if parsed = 1 then
      P { w with sockCtx := ctx } ctx.arglist ∧
        EachLine P lineTime bytes ({ w with sockCtx := ctx }.behindLine lineTime ctx.arglist)
    else if parsed = 0 then EachLine P lineTime bytes { w with sockCtx := ctx }
    else True

theorem listened_bytes {before lines : List (List CString)} {lineTime : Int} {bytes : CString}
    (listened : Listened before w lines v) (regular : EachLine LineRegular lineTime bytes v) :
    Listened before w (lines ++ linesRead lineTime bytes v) (readBytes lineTime bytes v).1 := by
  induction bytes generalizing v lines with
  | nil => simpa [linesRead, readBytes] using listened
  | cons b bytes ih =>
    unfold EachLine at regular
    unfold linesRead readBytes
    generalize pconfChar v.sockCtx b = result at regular ⊢
    obtain ⟨ctx, parsed⟩ := result
    dsimp only at regular ⊢
    have here : Listened before w lines { v with sockCtx := ctx } := listened_values listened ⟨rfl, rfl, rfl, rfl⟩
    by_cases isLine : parsed = 1
    · rw [if_pos isLine] at regular
      rw [if_pos isLine, if_pos isLine, <- List.singleton_append, <- List.append_assoc]
      have next := listened_line here regular.1
      refine ih (v := ({ v with sockCtx := ctx } : Clone D).behindLine lineTime ctx.arglist) ?_ regular.2
      unfold behindLine
      split
      · exact listened_values next ⟨rfl, rfl, rfl, rfl⟩
      · exact next
    · rw [if_neg isLine] at regular
      rw [if_neg isLine, if_neg isLine]
      by_cases more : parsed = 0
      · rw [if_pos more] at regular
        rw [if_pos more, if_pos more]
        exact ih here regular
      · rw [if_neg more, if_neg more, List.append_nil]
        exact here

end Lines

end Clone

end Nut
