import Nut.Clients.AuthconfDump
import Nut.Clients.AuthconfParts
import Nut.Clients.AuthconfSections

set_option autoImplicit false

namespace Nut.Nutauth

section Titles

variable {services : Services} {sectName : CString} {parts : Parts} {user : Option CString}

theorem normalize_title {user host port : Option CString} (same : normalizeAuthconfSectionParts services user host port = parts) :
    ∃ host' port', parts.title = snprintf largebuf (user.getD [] ++ 64 :: host' ++ 58 :: port') ∧
      (host' = cstr "localhost" ∨ host = some host') ∧ ((∃ n : Nat, port' = printInt n) ∨ port = some port') := by
  subst same
  refine ⟨_, _, rfl, ?_, ?_⟩
  · rcases host with _ | _ | ⟨b, host⟩
    · exact .inl rfl
    · exact .inl rfl
    · exact .inr rfl
  · have default : nutPort = printInt (3493 : Nat) := by decide
    rcases port with _ | _ | ⟨b, port⟩
    · exact .inl ⟨3493, default⟩
    · exact .inl ⟨3493, default⟩
    · dsimp only
      split
      next => exact .inr rfl
      next =>
        cases services (b :: port) with
        | none => exact .inr rfl
        | some number => exact .inl ⟨number.toNat, rfl⟩

theorem split_title (accepted : splitAuthconfSection services sectName = some (parts, user)) :
    user = titleUser sectName ∧ ∃ host port,
      parts.title = snprintf largebuf (user.getD [] ++ 64 :: host ++ 58 :: port) ∧
      (host = cstr "localhost" ∨ host = hostText sectName) ∧ ((∃ n : Nat, port = printInt n) ∨ port = portText sectName) := by
  have colon := split_separator accepted
  unfold splitAuthconfSection at accepted
  rw [colon] at accepted
  obtain ⟨same, rfl⟩ := Prod.mk.inj (Option.some.inj accepted)
  obtain ⟨host, port, title, host_, port_⟩ := normalize_title same
  refine ⟨rfl, host, port, title, host_.imp_right fun same => ?_, port_.imp_right fun same => ?_⟩
  · unfold hostText
    cases found : sectName.idxOf? 64 with
    | none =>
      rw [found] at same
      exact (Option.some.inj (Option.ite_none_right_eq_some.mp same).2).symm
    | some at_ =>
      rw [found] at same
      exact (Option.some.inj (Option.ite_none_right_eq_some.mp same).2).symm
  · obtain ⟨colon_, found, rest⟩ := Option.bind_eq_some_iff.mp same
    rw [portText, found]
    exact (Option.some.inj (Option.ite_none_left_eq_some.mp rest).2).symm

theorem splitText_count (colon : portColon sectName = some (portSeparator sectName)) (b : UInt8) :
    ((titleUser sectName).getD []).count b + (hostText sectName).count b + (portText sectName).count b ≤ sectName.count b := by
  obtain ⟨name, port, title, separator⟩ := portColon_title colon
  have front : hostText sectName = ((sectName.idxOf? 64).map fun at_ => name.drop (at_ + 1)).getD name := by
    have name_ : ∀ colon, port.map (fun _ => name.length) = some colon -> sectName.take colon = name := by
      intro colon found
      obtain ⟨_, _, rfl⟩ := Option.map_eq_some_iff.mp found
      rw [title.whole, List.take_left]
    have none_ : port.map (fun _ => name.length) = none -> sectName = name := by
      intro absent
      rw [Option.map_eq_none_iff] at absent
      rw [title.whole, absent]
      simp
    unfold hostText
    rw [separator]
    cases found : port.map fun _ => name.length with
    | none =>
      have whole := none_ found
      cases sectName.idxOf? 64 <;> simp [<- whole]
    | some colon =>
      have whole := name_ colon found
      cases sectName.idxOf? 64 <;> simp [whole]
  have behind : portText sectName = port.getD [] := by
    rw [portText, separator]
    cases port with
    | none => rfl
    | some text =>
      have whole : sectName = name ++ 58 :: text := title.whole
      rw [Option.map_some, Option.map_some, whole]
      exact drop_behind name text 58
  have total : name.count b + (port.getD []).count b ≤ sectName.count b := by
    rw [title.whole, List.count_append]
    cases port with
    | none => simp
    | some text => simp [List.count_cons]
  rw [front, behind]
  have parted : ((titleUser sectName).getD []).count b +
      (((sectName.idxOf? 64).map fun at_ => name.drop (at_ + 1)).getD name).count b ≤ name.count b := by
    cases found : sectName.idxOf? 64 with
    | none => simp [titleUser, found]
    | some at_ =>
      obtain ⟨start, name_, early⟩ := title.name
      have member : 64 ∈ sectName := List.isSome_idxOf?.mp (found ▸ rfl)
      have inName : 64 ∈ name := name_.includes (early.resolve_right fun absent => absent member)
      obtain ⟨before, after, rfl, absent⟩ := List.eq_append_cons_of_mem inName
      have place : sectName.idxOf? 64 = some before.length := by
        rw [title.whole, List.append_assoc, List.cons_append, idxOf_first absent]
      rw [found, Option.some.injEq] at place
      subst place
      have user_ : titleUser sectName = if before = [] then none else some before := by
        rw [title.whole, List.append_assoc, List.cons_append, titleUser_eq absent]
      have later : after.count b ≤ (64 :: after).count b := (List.sublist_cons_self 64 after).count_le b
      rw [user_, Option.map_some, Option.getD_some, drop_behind, List.count_append]
      split
      · rw [Option.getD_none, List.count_nil]
        omega
      · rw [Option.getD_some]
        omega
  omega

def isAdded (b : UInt8) : Bool :=
  b == 64 || b == 58 || isdigit b || decide (b ∈ cstr "localhost")

theorem split_count (accepted : splitAuthconfSection services sectName = some (parts, user)) {b : UInt8}
    (own : isAdded b = false) : parts.title.count b ≤ sectName.count b := by
  obtain ⟨rfl, host, port, title, host_, port_⟩ := split_title accepted
  have counts := splitText_count (split_separator accepted) b
  simp only [isAdded, Bool.or_eq_false_iff, beq_eq_false_iff_ne, decide_eq_false_iff_not] at own
  obtain ⟨⟨⟨notAt, notColon⟩, notDigit⟩, notLocal⟩ := own
  have hosts : host.count b ≤ (hostText sectName).count b := by
    rcases host_ with rfl | rfl
    · rw [List.count_eq_zero.mpr notLocal]
      exact Nat.zero_le _
    · exact Nat.le_refl _
  have ports : port.count b ≤ (portText sectName).count b := by
    rcases port_ with ⟨n, rfl⟩ | rfl
    · have absent : b ∉ printInt n := fun member => by
        rw [printInt_digits n b member] at notDigit
        cases notDigit
      rw [List.count_eq_zero.mpr absent]
      exact Nat.zero_le _
    · exact Nat.le_refl _
  have cut : parts.title.count b ≤ ((titleUser sectName).getD [] ++ 64 :: host ++ 58 :: port).count b := by
    rw [title]
    exact (List.take_sublist _ _).count_le b
  rw [List.count_append, List.count_append, List.count_cons_of_ne (Ne.symm notAt), List.count_cons_of_ne (Ne.symm notColon)] at cut
  omega

theorem split_isText (accepted : splitAuthconfSection services sectName = some (parts, user))
    (isText : ∀ b ∈ sectName, isText b = true) : ∀ b ∈ parts.title, Nut.isText b = true := by
  intro b member
  by_cases added : isAdded b = true
  · have locals : ∀ b ∈ cstr "localhost", Nut.isText b = true := by decide
    simp only [isAdded, Bool.or_eq_true, beq_iff_eq, decide_eq_true_eq] at added
    rcases added with ((rfl | rfl) | digit) | inside
    · rfl
    · rfl
    · rw [isText_iff]
      simp only [isdigit, Bool.and_eq_true, decide_eq_true_eq, UInt8.le_iff_toNat_le] at digit
      have low : (48 : UInt8).toNat = 48 := rfl
      have high : (57 : UInt8).toNat = 57 := rfl
      omega
    · exact locals b inside
  · have counts := split_count accepted (by simpa using added)
    exact isText b (List.count_pos_iff.mp (Nat.lt_of_lt_of_le (List.count_pos_iff.mpr member) counts))

def KeepsTitle (services : Services) (title : CString) : Prop :=
  ∃ parts, splitAuthconfSection services title = some (parts, titleUser title) ∧ parts.title = title ∧
    parts.fixedUser = (titleUser title).isSome

theorem Normal.keeps {start user : CString} (normal : Normal services parts user start) : KeepsTitle services parts.title := by
  have title : parts.title = user ++ 64 :: (parts.host ++ 58 :: parts.port) := by
    rw [normal.title, List.append_assoc, List.cons_append]
  have longer : ¬ oneCharacterHost parts.title := fun one => one.1 (by rw [title]; simp)
  refine ⟨parts, ?_, rfl, ?_⟩
  · rw [split_named services longer, normal.named]
    rfl
  · rw [normal.fixedUser, title, titleUser_eq normal.user_]
    by_cases empty : user = [] <;> simp [empty]

theorem split_oneCharacter_named (one : oneCharacterHost sectName)
    (accepted : splitAuthconfSection services sectName = some (parts, user)) :
    namedSection services (58 :: portText sectName) = some parts := by
  obtain ⟨name, port, title, same⟩ := portColon_title one.2
  obtain ⟨text, rfl, length⟩ := Option.map_eq_some_iff.mp same.symm
  have whole : sectName = name ++ 58 :: text := title.whole
  have separator := portColon_separator one.2
  have behind : sectName.drop 2 = text := by
    have dropped := drop_behind name text 58
    rw [length] at dropped
    rw [whole]
    exact dropped
  have text_ : portText sectName = text := by
    rw [portText, <- separator, Option.map_some, Option.getD_some]
    exact behind
  have noAt : 64 ∉ text := fun member => one.1 (by rw [whole]; simp [member])
  have plain := title.port text rfl
  have colon : portColon (58 :: text) = some (some 0) := by
    have again : strchrFrom (58 :: text) 58 1 = none := @again_none [] _ _ _ plain.1
    have opens : (58 :: text).idxOf? 91 = none := List.idxOf?_eq_none_iff.mpr (by simp [plain])
    have closes : (58 :: text).idxOf? 93 = none := List.idxOf?_eq_none_iff.mpr (by simp [plain])
    have ats : (58 :: text).idxOf? 64 = none := List.idxOf?_eq_none_iff.mpr (by simp [noAt])
    have colons : (58 :: text).idxOf? 58 = some 0 := by simp [List.idxOf?_cons]
    unfold portColon
    rw [opens, closes, ats, colons]
    simp [before, again]
  have ats : (58 :: text).idxOf? 64 = none := List.idxOf?_eq_none_iff.mpr (by simp [noAt])
  have sectAts : sectName.idxOf? 64 = none := List.idxOf?_eq_none_iff.mpr one.1
  have users : titleUser (58 :: text) = none := by rw [titleUser, ats]
  have sectUsers : titleUser sectName = none := by rw [titleUser, sectAts]
  unfold splitAuthconfSection at accepted
  rw [one.2, sectAts, sectUsers] at accepted
  obtain ⟨rfl, -⟩ := Prod.mk.inj (Option.some.inj accepted)
  rw [text_, namedSection, colon, ats, users, Option.map_some, Option.some.injEq]
  dsimp only [Option.map_some, Option.bind_some]
  rw [behind]
  by_cases ends : sectName.length = 2
  · have empty : text = [] := by
      rw [whole, List.length_append, List.length_cons, length] at ends
      exact List.eq_nil_of_length_eq_zero (by omega)
    rw [if_pos ends, empty]
    rfl
  · rw [if_neg ends]
    rfl

theorem split_keeps (short : sectName.length ≤ 512) (accepted : splitAuthconfSection services sectName = some (parts, user)) :
    KeepsTitle services parts.title := by
  by_cases one : oneCharacterHost sectName
  · have counted : (58 :: portText sectName).length ≤ 512 := by
      rw [List.length_cons, portText, <- portColon_separator one.2, Option.map_some, Option.getD_some, List.length_drop]
      omega
    obtain ⟨_, _, normal, _⟩ := named_normal services counted (split_oneCharacter_named one accepted)
    exact normal.keeps
  · rw [split_named services one] at accepted
    obtain ⟨named, named_, same⟩ := Option.map_eq_some_iff.mp accepted
    obtain ⟨rfl, -⟩ := Prod.mk.inj same
    obtain ⟨_, _, normal, _⟩ := named_normal services short named_
    exact normal.keeps

end Titles

structure FromFile (services : Services) (item : AuthconfItem) : Prop where
  title : ∀ title, item.section_ = some title -> KeepsTitle services title ∧ ∀ b ∈ title, isText b = true
  strings : ∀ string ∈ item.strings, ∀ val, string.2 = some val -> Acceptable pconfDefaultWordlenLimit val
  certverify : item.certverify = -1 ∨ item.certverify = 0 ∨ item.certverify = 1
  forcessl : item.forcessl = -1 ∨ item.forcessl = 0 ∨ item.forcessl = 1

section Reading

variable {services : Services} {item : AuthconfItem}

theorem fromFile_new {title : CString} {user : Option CString} (keeps : KeepsTitle services title)
    (isText : ∀ b ∈ title, isText b = true) (accepted : ∀ val, user = some val -> Acceptable pconfDefaultWordlenLimit val) :
    FromFile services { createAuthconfItem (some title) with user } where
  title := by
    intro title same
    cases same
    exact ⟨keeps, isText⟩
  strings := by
    intro string member val set
    simp only [AuthconfItem.strings, createAuthconfItem, List.mem_cons, List.not_mem_nil, or_false] at member
    rcases member with rfl | rfl | rfl | rfl | rfl | rfl | rfl | rfl
    · exact accepted val set
    all_goals cases set
  certverify := .inl rfl
  forcessl := .inl rfl

theorem fromFile_defaults : FromFile services (createAuthconfItem none) where
  title := fun _ same => by cases same
  strings := by
    intro string member val set
    simp only [AuthconfItem.strings, createAuthconfItem, List.mem_cons, List.not_mem_nil, or_false] at member
    rcases member with rfl | rfl | rfl | rfl | rfl | rfl | rfl | rfl
    all_goals cases set
  certverify := .inl rfl
  forcessl := .inl rfl

theorem setSwitch_three (val : CString) {before : Int} (three : before = -1 ∨ before = 0 ∨ before = 1) :
    setSwitch val before = -1 ∨ setSwitch val before = 0 ∨ setSwitch val before = 1 := by
  unfold setSwitch
  split
  · exact .inr (.inr rfl)
  · split
    · exact .inr (.inl rfl)
    · exact three

theorem keeps_ite {Keeps : AuthconfItem -> Prop} {c : Prop} [Decidable c] {first second : AuthconfItem} (yes : Keeps first)
    (no : Keeps second) : Keeps (if c then first else second) := by
  split
  · exact yes
  · exact no

theorem setAuthconfVal_keeps {Keeps : AuthconfItem -> Prop} {conf : AuthconfItem} {val : Option CString} (same : Keeps conf)
    (user : Keeps { conf with user := val }) (pass : Keeps { conf with pass := val })
    (certpath : Keeps { conf with certpath := val }) (certfile : Keeps { conf with certfile := val })
    (certident : Keeps { conf with certident := val }) (certpasswd : Keeps { conf with certpasswd := val })
    (sslBackend : Keeps { conf with sslBackend := val }) (certhost : Keeps { conf with certhost := val })
    (certverify : ∀ text, Keeps { conf with certverify := setSwitch text conf.certverify })
    (forcessl : ∀ text, Keeps { conf with forcessl := setSwitch text conf.forcessl }) (fixedUsername : Bool) (var : CString) :
    Keeps (setAuthconfVal fixedUsername var val conf) := by
  unfold setAuthconfVal
  refine keeps_ite (keeps_ite same user) (keeps_ite pass (keeps_ite certpath (keeps_ite certfile (keeps_ite certident
    (keeps_ite certpasswd (keeps_ite sslBackend (keeps_ite certhost (keeps_ite ?_ (keeps_ite ?_ same)))))))))
  · cases val with
    | none => exact same
    | some text => exact certverify text
  · cases val with
    | none => exact same
    | some text => exact forcessl text

theorem strings_iff {Accepts : CString -> Prop} : (∀ string ∈ item.strings, ∀ val, string.2 = some val -> Accepts val) ↔
      (∀ val, item.user = some val -> Accepts val) ∧ (∀ val, item.pass = some val -> Accepts val) ∧
      (∀ val, item.certpath = some val -> Accepts val) ∧ (∀ val, item.certfile = some val -> Accepts val) ∧
      (∀ val, item.certident = some val -> Accepts val) ∧ (∀ val, item.certpasswd = some val -> Accepts val) ∧
      (∀ val, item.sslBackend = some val -> Accepts val) ∧ ∀ val, item.certhost = some val -> Accepts val := by
  simp only [AuthconfItem.strings, List.forall_mem_cons, List.not_mem_nil, false_imp_iff, implies_true, and_true]

theorem FromFile.set (fromFile : FromFile services item) (fixedUsername : Bool) (var : CString) {val : Option CString}
    (accepted : ∀ text, val = some text -> Acceptable pconfDefaultWordlenLimit text) :
    FromFile services (setAuthconfVal fixedUsername var val item) := by
  obtain ⟨title, strings, certverify, forcessl⟩ := fromFile
  obtain ⟨user, pass, certpath, certfile, certident, certpasswd, sslBackend, certhost⟩ := strings_iff.mp strings
  apply setAuthconfVal_keeps
  case same => exact ⟨title, strings, certverify, forcessl⟩
  case certverify => exact fun text => ⟨title, strings, setSwitch_three text certverify, forcessl⟩
  case forcessl => exact fun text => ⟨title, strings, certverify, setSwitch_three text forcessl⟩
  all_goals
    refine ⟨title, strings_iff.mpr ⟨?_, ?_, ?_, ?_, ?_, ?_, ?_, ?_⟩, certverify, forcessl⟩
    all_goals assumption

def AllFromFile (services : Services) (st : Authconf) : Prop :=
  ∀ item ∈ st.list, FromFile services item

variable {st after : Authconf}

theorem AllFromFile.modify (all : AllFromFile services st) (place : Nat) (fixedUsername : Bool) (var : CString)
    {val : Option CString} (accepted : ∀ text, val = some text -> Acceptable pconfDefaultWordlenLimit text) :
    ∀ item ∈ st.list.modify place (setAuthconfVal fixedUsername var val), FromFile services item := by
  intro item member
  obtain ⟨i, inside⟩ := List.getElem?_of_mem member
  rw [List.getElem?_modify] at inside
  obtain ⟨before, found, same⟩ := Option.map_eq_some_iff.mp inside
  have fromFile := all before (List.mem_of_getElem? found)
  rw [<- same]
  split
  · exact fromFile.set fixedUsername var accepted
  · exact fromFile

theorem AllFromFile.setVal (all : AllFromFile services st) (var : CString) {val : Option CString}
    (accepted : ∀ text, val = some text -> Acceptable pconfDefaultWordlenLimit text) :
    AllFromFile services (st.setVal var val) := by
  unfold Authconf.setVal
  split
  next => exact all.modify _ _ _ accepted
  next =>
    unfold Authconf.editDefaults
    split
    next => exact all.modify _ _ _ accepted
    next =>
      have added : AllFromFile services
          { st with list := st.list ++ [createAuthconfItem none], globalDefaults := some st.list.length } := by
        intro item member
        rcases List.mem_append.mp member with old | last
        · exact all item old
        · rw [List.mem_singleton.mp last]
          exact fromFile_defaults
      exact added.modify _ _ _ accepted

theorem AllFromFile.enter (all : AllFromFile services st) {globalScope : Bool} {sectName : CString}
    (short : sectName.length ≤ 512) (isText : ∀ b ∈ sectName, isText b = true)
    (entered : enterSection services globalScope sectName st = .ok after) : AllFromFile services after := by
  unfold enterSection at entered
  split at entered
  next => cases entered
  next parts user accepted =>
    dsimp only at entered
    split at entered
    · cases entered
      exact all
    · split at entered
      next =>
        cases entered
        exact all
      next =>
        cases entered
        have users : ∀ val, (if parts.fixedUser then user else none) = some val ->
            Acceptable pconfDefaultWordlenLimit val := by
          intro val set
          have named := (Option.ite_none_right_eq_some.mp set).2
          rw [(split_title accepted).1, titleUser] at named
          split at named
          next i _ =>
            cases named
            refine ⟨fun _ => ?_, fun b member => isText b (List.mem_of_mem_take member)⟩
            rw [List.length_take]
            exact Nat.le_trans (Nat.min_le_right _ _) short
          next => cases named
        intro item member
        rcases List.mem_append.mp member with old | last
        · exact all item old
        · rw [List.mem_singleton.mp last]
          exact fromFile_new (split_keeps short accepted) (split_isText accepted isText) users

theorem AllFromFile.line (all : AllFromFile services st)
    {parseInclude : CString -> Bool -> Bool -> Authconf -> Except Stop Authconf}
    (included : ∀ filename fatal scope st after, AllFromFile services st -> parseInclude filename fatal scope st = .ok after ->
      AllFromFile services after) {globalScope : Bool} {arg : List CString}
    (accepted : ∀ word ∈ arg, Acceptable pconfDefaultWordlenLimit word)
    (handled : handleAuthconfArgs services parseInclude globalScope st arg = .ok after) : AllFromFile services after := by
  have finished : (finishSection services st).list = st.list := (finishSection_list st).1
  cases arg with
  | nil =>
    cases handled
    exact all
  | cons var rest =>
    unfold handleAuthconfArgs at handled
    dsimp only at handled
    split at handled
    next =>
      split at handled
      next =>
        split at handled
        all_goals
          cases handled
          intro item member
          exact all item (finished ▸ member)
      next =>
        obtain ⟨length, bytes⟩ := accepted var List.mem_cons_self
        have short : var.length ≤ 512 := length (by decide)
        have start : AllFromFile services { finishSection services st with currentSectionIgnored := false } :=
          fun item member => all item (finished ▸ member)
        refine start.enter ?_ ?_ handled
        · rw [List.length_dropLast, List.length_tail]
          omega
        · exact fun b member => bytes b (List.mem_of_mem_tail (List.dropLast_subset _ member))
    next =>
      have one : ∀ text, some (cstr "1") = some text -> Acceptable pconfDefaultWordlenLimit text := by
        intro text same
        cases same
        exact ⟨fun _ => by decide, by decide⟩
      have nothing : ∀ text, none = some text -> Acceptable pconfDefaultWordlenLimit text := fun _ same => by cases same
      repeat' split at handled
      all_goals
        first
        | exact included _ _ _ _ _ all handled
        | cases handled
      all_goals
        first
        | exact all
        | exact all.setVal var one
        | exact all.setVal var nothing
        | exact all.setVal var fun text same => Option.some.inj same ▸ accepted _ (by simp)

theorem read_fromFile {files : Files} {confpath filename : CString} {depth : Nat} {fatalErrors fixedUsername : Bool}
    (read : readAuthconfFile services files confpath depth filename fatalErrors fixedUsername = .ok st) :
    AllFromFile services st := by
  have parsed (depth : Nat) : ∀ filename fatal scope before after, AllFromFile services before ->
      parseAuthconfFile services files confpath depth filename fatal scope before = .ok after -> AllFromFile services after := by
    induction depth with
    | zero =>
      intro filename fatal scope before after _ done
      cases done
    | succ depth ih =>
      intro filename fatal scope before after all done
      unfold parseAuthconfFile at done
      split at done
      next =>
        cases done
        exact all
      next =>
        split at done
        next => cases done
        next =>
          split at done <;> cases done
          exact all
        next file _ =>
          obtain ⟨last, folded, closed⟩ := bind_eq_ok.mp done
          cases closed
          have accepted := fileLines_acceptable (within_startLine (within_init 32 512)) file
          have kept : AllFromFile services last :=
            foldlM_within (fun _ _ _ all accepted handled => AllFromFile.line all ih accepted handled) accepted all folded
          exact kept
  exact parsed depth filename fatalErrors true (freed fixedUsername) st (fun _ member => by cases member) read

end Reading

end Nut.Nutauth
