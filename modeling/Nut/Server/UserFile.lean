import Mathlib.Data.List.Induction
import Mathlib.Data.List.Nodup
import Nut.Server.User

set_option autoImplicit false

namespace Nut

-- user.c: `users` and `curr_user`, the latter by its place in the list.
structure UserFile where
  users : List User
  currUser : Option Nat
  deriving DecidableEq, Repr

namespace UserFile

def userAdd (un : CString) (s : UserFile) : UserFile :=
  if s.users.any fun tmp => tmp.username == un then s
  else
    { users := s.users ++ [{ username := un, password := none, firstcmd := [], firstaction := [] }]
      currUser := some s.users.length }

def update (change : User -> User) (s : UserFile) : UserFile :=
  match s.currUser with
  | none => s
  | some i => { s with users := s.users.modify i change }

def userPassword (pw : CString) : UserFile -> UserFile :=
  update fun user => if user.password.isSome then user else { user with password := some pw }

def userAddInstcmd (cmd : CString) : UserFile -> UserFile :=
  update fun user =>
    if user.firstcmd.any fun tmp => strcasecmp tmp cmd == .eq then user
    else { user with firstcmd := user.firstcmd ++ [cmd] }

def userAddAction (act : CString) : UserFile -> UserFile :=
  update fun user => { user with firstaction := user.firstaction ++ [act] }

def setUpsmonType (type : CString) (s : UserFile) : UserFile :=
  if isCommand type "master" ∨ isCommand type "primary" then
    userAddAction (cstr "fsd") (userAddAction (cstr "master") (userAddAction (cstr "login") s))
  else if isCommand type "slave" ∨ isCommand type "secondary" then userAddAction (cstr "login") s
  else s

def parseVar (var : CString) (s : UserFile) (val : CString) : UserFile :=
  if isCommand var "password" then userPassword val s
  else if isCommand var "instcmds" then userAddInstcmd val s
  else if isCommand var "actions" then userAddAction val s
  else if isCommand var "allowfrom" then s
  else if isCommand var "upsmon" then setUpsmonType val s
  else s

def parseRest (var : CString) (vals : List CString) (s : UserFile) : UserFile :=
  if s.currUser = none then s else vals.foldl (parseVar var) s

end UserFile

def sectionName (arg : CString) : Option CString :=
  if arg.head? = some 91 ∧ arg.getLast? = some 93 then some arg.tail.dropLast else none

open UserFile in
def userParseArg (s : UserFile) : List CString -> UserFile
  | [] => s
  | arg0 :: arg =>
    if isCommand arg0 "user" then s
    else if 61 ∈ arg0 then
      -- foo=bar
      parseRest (arg0.takeWhile (· != 61)) ((arg0.dropWhile (· != 61)).tail :: arg) s
    else
      match sectionName arg0 with
      | some un => userAdd un s
      | none =>
        match arg with
        | [] => s
        | arg1 :: vals =>
          let s := if isCommand arg0 "upsmon" then setUpsmonType arg1 s else s
          -- foo = bar
          if vals ≠ [] ∧ arg1 = cstr "=" then parseRest arg0 vals s else s

-- The lines of upsd.users as `pconf_file_next` splits them, read into an empty table.
def userLoad (lines : List (List CString)) : UserFile :=
  lines.foldl userParseArg { users := [], currUser := none }

inductive Setting where
  | password (pw : CString)
  | instcmd (cmd : CString)
  | action (act : CString)
  deriving DecidableEq, Repr

namespace Setting

def apply (user : User) : Setting -> User
  | password pw => if user.password.isSome then user else { user with password := some pw }
  | instcmd cmd =>
    if user.firstcmd.any fun tmp => strcasecmp tmp cmd == .eq then user
    else { user with firstcmd := user.firstcmd ++ [cmd] }
  | action act => { user with firstaction := user.firstaction ++ [act] }

def Present (user : User) : Setting -> Prop
  | password _ => user.password ≠ none
  | instcmd cmd => ∃ item ∈ user.firstcmd, strcasecmp item cmd = .eq
  | action _ => False

end Setting

def upsmonSettings (type : CString) : List Setting :=
  if isCommand type "master" ∨ isCommand type "primary" then
    [.action (cstr "login"), .action (cstr "master"), .action (cstr "fsd")]
  else if isCommand type "slave" ∨ isCommand type "secondary" then [.action (cstr "login")]
  else []

def valueSettings (var val : CString) : List Setting :=
  if isCommand var "password" then [.password val]
  else if isCommand var "instcmds" then [.instcmd val]
  else if isCommand var "actions" then [.action val]
  else if isCommand var "upsmon" then upsmonSettings val
  else []

def lineSettings : List CString -> List Setting
  | [] => []
  | arg0 :: arg =>
    if isCommand arg0 "user" then []
    else if 61 ∈ arg0 then
      ((arg0.dropWhile (· != 61)).tail :: arg).flatMap (valueSettings (arg0.takeWhile (· != 61)))
    else if (sectionName arg0).isSome then []
    else
      match arg with
      | [] => []
      | arg1 :: vals =>
        (if isCommand arg0 "upsmon" then upsmonSettings arg1 else []) ++
          if vals ≠ [] ∧ arg1 = cstr "=" then vals.flatMap (valueSettings arg0) else []

def headerName (line : List CString) : Option CString :=
  line.head?.bind sectionName

def nearestHeader (lines : List (List CString)) : Option CString :=
  (lines.filterMap headerName).getLast?

def attributeTo (name : Option CString) (settings : List Setting) (users : List User) : List User :=
  users.map fun user => if name = some user.username then settings.foldl Setting.apply user else user

def Attributed (before : List (List CString)) (line : List CString) : Prop :=
  let s := userLoad before
  if headerName line = none then
    (userParseArg s line).users = attributeTo (nearestHeader before) (lineSettings line) s.users
  else s.users <+: (userParseArg s line).users

def Attributable (before : List (List CString)) (line : List CString) : Prop :=
  let users := (userLoad before).users
  users.getLast?.map User.username = nearestHeader before ∨
    ∀ user ∈ users, users.getLast? = some user ∨ nearestHeader before = some user.username ->
      ∀ setting ∈ lineSettings line, setting.Present user

section Lines

variable {s : UserFile}

def UserFile.settle (settings : List Setting) : UserFile -> UserFile :=
  UserFile.update fun user => settings.foldl Setting.apply user

theorem update_update (first second : User -> User) (s : UserFile) :
    (s.update first).update second = s.update (second ∘ first) := by
  obtain ⟨users, currUser⟩ := s
  cases currUser with
  | none => rfl
  | some i => simp only [UserFile.update, List.modify_modify_eq]

theorem settle_nil : s.settle [] = s := by
  obtain ⟨users, currUser⟩ := s
  cases currUser with
  | none => rfl
  | some i =>
    simp only [UserFile.settle, UserFile.update, List.foldl_nil]
    rw [show (fun user : User => user) = id from rfl, List.modify_id]

theorem settle_append (first second : List Setting) : s.settle (first ++ second) = (s.settle first).settle second := by
  simp only [UserFile.settle, update_update]
  congr 1
  funext user
  exact List.foldl_append

theorem setUpsmonType_eq (type : CString) : s.setUpsmonType type = s.settle (upsmonSettings type) := by
  unfold UserFile.setUpsmonType upsmonSettings
  split_ifs
  · simp only [UserFile.userAddAction, update_update]
    rfl
  · rfl
  · exact settle_nil.symm

theorem parseVar_eq (var val : CString) : UserFile.parseVar var s val = s.settle (valueSettings var val) := by
  unfold UserFile.parseVar valueSettings
  split_ifs with password instcmds actions allowfrom upsmon upsmon
  · rfl
  · rfl
  · rfl
  · rw [isCommand, beq_iff_eq] at allowfrom upsmon
    have same := Std.TransCmp.eq_trans (Std.OrientedCmp.eq_symm allowfrom) upsmon
    exact absurd same (by decide)
  · exact settle_nil.symm
  · exact setUpsmonType_eq val
  · exact settle_nil.symm

theorem parseRest_eq (var : CString) (vals : List CString) :
    UserFile.parseRest var vals s = s.settle (vals.flatMap (valueSettings var)) := by
  have each (s : UserFile) : vals.foldl (UserFile.parseVar var) s = s.settle (vals.flatMap (valueSettings var)) := by
    induction vals generalizing s with
    | nil => exact settle_nil.symm
    | cons val rest ih => rw [List.foldl_cons, ih, parseVar_eq, <- settle_append, List.flatMap_cons]
  unfold UserFile.parseRest
  split
  next outside =>
    rw [UserFile.settle, UserFile.update, outside]
  next => exact each s

theorem isCommand_bracket {text : CString} {word : String} (other : (foldCase (cstr word)).head? ≠ some 91) :
    isCommand (91 :: text) word = false := by
  cases hit : isCommand (91 :: text) word with
  | false => rfl
  | true =>
    have same := (strcasecmp_eq_iff _ _).mp (beq_iff_eq.mp hit)
    rw [<- same] at other
    exact absurd rfl other

theorem valueSettings_bracket (text val : CString) : valueSettings (91 :: text) val = [] := by
  simp only [valueSettings, isCommand_bracket (show (foldCase (cstr "password")).head? ≠ some 91 by decide),
    isCommand_bracket (show (foldCase (cstr "instcmds")).head? ≠ some 91 by decide),
    isCommand_bracket (show (foldCase (cstr "actions")).head? ≠ some 91 by decide),
    isCommand_bracket (show (foldCase (cstr "upsmon")).head? ≠ some 91 by decide), Bool.false_eq_true, if_false]

theorem sectionName_bracket {arg un : CString} (header : sectionName arg = some un) : ∃ text, arg = 91 :: text := by
  unfold sectionName at header
  split at header
  next both =>
    cases arg with
    | nil => exact absurd both.1 (by simp)
    | cons b text =>
      obtain rfl : b = 91 := by simpa using both.1
      exact ⟨text, rfl⟩
  next => cases header

theorem lineSettings_header {line : List CString} (header : headerName line ≠ none) : lineSettings line = [] := by
  cases line with
  | nil => rfl
  | cons arg0 arg =>
    obtain ⟨un, found⟩ := Option.ne_none_iff_exists'.mp header
    obtain ⟨text, rfl⟩ := sectionName_bracket found
    have isSection : (sectionName (91 :: text)).isSome := Option.isSome_iff_exists.mpr ⟨un, found⟩
    have first : (91 :: text : CString).takeWhile (· != 61) = 91 :: text.takeWhile (· != 61) := rfl
    simp only [lineSettings]
    split_ifs
    · rfl
    · rw [first]
      simp only [valueSettings_bracket, List.flatMap_eq_nil_iff, implies_true]
    · rfl

theorem userParseArg_cases (s : UserFile) (line : List CString) :
    (∃ un, headerName line = some un ∧ userParseArg s line = s.userAdd un) ∨
      userParseArg s line = s.settle (lineSettings line) := by
  cases line with
  | nil => exact Or.inr settle_nil.symm
  | cons arg0 arg =>
    simp only [userParseArg, lineSettings]
    by_cases user : isCommand arg0 "user" = true
    · rw [if_pos user, if_pos user]
      exact Or.inr settle_nil.symm
    rw [if_neg user, if_neg user]
    by_cases compressed : 61 ∈ arg0
    · rw [if_pos compressed, if_pos compressed]
      exact Or.inr (parseRest_eq _ _)
    rw [if_neg compressed, if_neg compressed]
    cases found : sectionName arg0 with
    | some un => exact Or.inl ⟨un, found, rfl⟩
    | none =>
      refine Or.inr ?_
      cases arg with
      | nil => exact settle_nil.symm
      | cons arg1 vals =>
        have typed : (if isCommand arg0 "upsmon" then s.setUpsmonType arg1 else s) =
            s.settle (if isCommand arg0 "upsmon" then upsmonSettings arg1 else []) := by
          split
          · exact setUpsmonType_eq arg1
          · exact settle_nil.symm
        simp only [Option.isSome_none, Bool.false_eq_true, if_false, typed, settle_append]
        split
        · exact parseRest_eq _ _
        · exact settle_nil.symm

end Lines

structure UserFile.Ok (s : UserFile) : Prop where
  names : (s.users.map User.username).Nodup
  cursor : s.currUser = if s.users = [] then none else some (s.users.length - 1)

section Runs

variable {s : UserFile}

theorem apply_username (user : User) (setting : Setting) : (setting.apply user).username = user.username := by
  cases setting with
  | action act => rfl
  | password pw =>
    simp only [Setting.apply]
    split <;> rfl
  | instcmd cmd =>
    simp only [Setting.apply]
    split <;> rfl

theorem settings_username (settings : List Setting) (user : User) :
    (settings.foldl Setting.apply user).username = user.username := by
  induction settings generalizing user with
  | nil => rfl
  | cons setting rest ih => rw [List.foldl_cons, ih, apply_username]

theorem settle_empty (ok : s.Ok) (empty : s.users = []) (settings : List Setting) : s.settle settings = s := by
  have outside : s.currUser = none := by rw [ok.cursor, if_pos empty]
  simp only [UserFile.settle, UserFile.update, outside]

theorem settle_last (ok : s.Ok) {first : List User} {last : User} (users : s.users = first ++ [last])
    (settings : List Setting) :
    s.settle settings = { s with users := first ++ [settings.foldl Setting.apply last] } := by
  have cursor : s.currUser = some first.length := by
    rw [ok.cursor, if_neg (by simp [users]), users, List.length_append]
    rfl
  have last_ : (first ++ [last]).modify first.length (fun user => settings.foldl Setting.apply user) =
      first ++ [settings.foldl Setting.apply last] := by
    clear users cursor
    induction first with
    | nil => rfl
    | cons user first ih =>
      rw [List.cons_append, List.length_cons, List.modify_succ_cons, ih]
      rfl
  simp only [UserFile.settle, UserFile.update, cursor, users, last_]

theorem names_settle (ok : s.Ok) (settings : List Setting) :
    (s.settle settings).users.map User.username = s.users.map User.username := by
  obtain empty | ⟨first, last, users⟩ := List.eq_nil_or_concat' s.users
  · rw [settle_empty ok empty]
  · rw [settle_last ok users, users]
    simp [settings_username]

theorem ok_settle (ok : s.Ok) (settings : List Setting) : (s.settle settings).Ok := by
  have names := names_settle ok settings
  have length := congrArg List.length names
  simp only [List.length_map] at length
  have empty : (s.settle settings).users = [] ↔ s.users = [] := by
    rw [<- List.length_eq_zero_iff, length, List.length_eq_zero_iff]
  have cursor : (s.settle settings).currUser = s.currUser := by
    unfold UserFile.settle UserFile.update
    split
    · rfl
    · rfl
  refine ⟨names ▸ ok.names, ?_⟩
  rw [cursor, ok.cursor, length]
  simp only [empty]

theorem ok_userAdd (ok : s.Ok) (un : CString) : (s.userAdd un).Ok := by
  unfold UserFile.userAdd
  split
  next => exact ok
  next new =>
    refine ⟨?_, by simp⟩
    rw [List.map_append]
    refine List.nodup_append.mpr ⟨ok.names, List.nodup_singleton _, ?_⟩
    rintro name member _ added rfl
    obtain ⟨user, inside, same⟩ := List.mem_map.mp member
    refine new (List.any_eq_true.mpr ⟨user, inside, ?_⟩)
    rw [beq_iff_eq, same]
    exact List.mem_singleton.mp added

theorem ok_userLoad (lines : List (List CString)) : (userLoad lines).Ok := by
  unfold userLoad
  induction lines using List.reverseRecOn with
  | nil => exact ⟨List.nodup_nil, rfl⟩
  | append_singleton lines line ih =>
    rw [List.foldl_append, List.foldl_cons, List.foldl_nil]
    obtain ⟨un, _, added⟩ | settled := userParseArg_cases (lines.foldl userParseArg ⟨[], none⟩) line
    · exact added ▸ ok_userAdd ih un
    · exact settled ▸ ok_settle ih _

theorem apply_eq_iff {user : User} {setting : Setting} : setting.apply user = user ↔ setting.Present user := by
  cases setting with
  | password pw =>
    cases user with
    | mk username password firstcmd firstaction => cases password <;> simp [Setting.apply, Setting.Present]
  | instcmd cmd =>
    have listed : user.firstcmd.any (fun tmp => strcasecmp tmp cmd == .eq) = true ↔
        (Setting.instcmd cmd).Present user := by
      simp only [List.any_eq_true, beq_iff_eq, Setting.Present]
    rw [<- listed, Setting.apply]
    split
    next found => exact iff_of_true rfl found
    next missing =>
      refine iff_of_false (fun same => ?_) missing
      have longer := congrArg (fun user => user.firstcmd.length) same
      simp at longer
  | action act =>
    refine iff_of_false (fun same => ?_) id
    have longer := congrArg (fun user => user.firstaction.length) same
    simp [Setting.apply] at longer

def User.size (user : User) : Nat :=
  user.password.toList.length + user.firstcmd.length + user.firstaction.length

theorem size_apply (user : User) (setting : Setting) :
    setting.apply user = user ∨ user.size < (setting.apply user).size := by
  cases setting with
  | password pw =>
    cases user with
    | mk username password firstcmd firstaction => cases password <;> simp [Setting.apply, User.size]
  | instcmd cmd =>
    simp only [Setting.apply]
    split
    · exact Or.inl rfl
    · refine Or.inr ?_
      simp [User.size]
  | action act =>
    refine Or.inr ?_
    simp [User.size, Setting.apply]

theorem size_settings (settings : List Setting) (user : User) :
    user.size ≤ (settings.foldl Setting.apply user).size := by
  induction settings generalizing user with
  | nil => exact Nat.le_refl _
  | cons setting rest ih =>
    have later := ih (setting.apply user)
    rw [List.foldl_cons]
    obtain same | more := size_apply user setting
    · rwa [same] at later ⊢
    · omega

theorem settings_eq_iff {settings : List Setting} {user : User} :
    settings.foldl Setting.apply user = user ↔ ∀ setting ∈ settings, setting.Present user := by
  induction settings with
  | nil => simp
  | cons setting rest ih =>
    rw [List.foldl_cons, List.forall_mem_cons]
    obtain same | more := size_apply user setting
    · rw [same, ih]
      exact ⟨fun all => ⟨apply_eq_iff.mp same, all⟩, And.right⟩
    · have later := size_settings rest (setting.apply user)
      refine iff_of_false (fun same => ?_) fun both => ?_
      · rw [same] at later
        omega
      · rw [apply_eq_iff.mpr both.1] at more
        omega

theorem settle_attributed_iff (ok : s.Ok) (name : Option CString) (settings : List Setting) :
    (s.settle settings).users = attributeTo name settings s.users ↔ s.users.getLast?.map User.username = name ∨
        ∀ user ∈ s.users, s.users.getLast? = some user ∨ name = some user.username ->
          ∀ setting ∈ settings, setting.Present user := by
  simp only [<- settings_eq_iff]
  obtain empty | ⟨first, last, users⟩ := List.eq_nil_or_concat' s.users
  · rw [settle_empty ok empty, empty]
    simp [attributeTo]
  have others : ∀ user ∈ first, user.username ≠ last.username := by
    intro user member same
    have names := ok.names
    rw [users, List.map_append] at names
    exact (List.nodup_append.mp names).2.2 _ (List.mem_map_of_mem member) _ (by simp) same
  have parts : first ++ [settings.foldl Setting.apply last] = attributeTo name settings (first ++ [last]) ↔
      first = attributeTo name settings first ∧
        [settings.foldl Setting.apply last] = attributeTo name settings [last] := by
    rw [show attributeTo name settings (first ++ [last]) =
      attributeTo name settings first ++ attributeTo name settings [last] from List.map_append]
    constructor
    · exact fun same => List.append_inj' same (by simp [attributeTo])
    · rintro ⟨front, back⟩
      rw [<- front, <- back]
  have unchanged : first = attributeTo name settings first ↔
      ∀ user ∈ first, name = some user.username -> settings.foldl Setting.apply user = user := by
    have each : first.map id = attributeTo name settings first ↔ _ := List.map_inj_left
    rw [List.map_id] at each
    refine each.trans (forall₂_congr fun user _ => ?_)
    by_cases named : name = some user.username
    · rw [if_pos named]
      exact ⟨fun same _ => same.symm, fun same => (same named).symm⟩
    · rw [if_neg named]
      exact iff_of_true rfl fun same => absurd same named
  rw [settle_last ok users, users, parts, unchanged]
  simp only [List.getLast?_append, List.getLast?_singleton, Option.some_or, Option.map_some]
  by_cases own : some last.username = name
  · refine iff_of_true ⟨fun user member named => ?_, by simp [attributeTo, <- own]⟩ (Or.inl own)
    rw [<- own] at named
    exact absurd (Option.some.inj named).symm (others user member)
  · have back : [settings.foldl Setting.apply last] = attributeTo name settings [last] ↔
        settings.foldl Setting.apply last = last := by
      rw [attributeTo, List.map_singleton, if_neg fun same => own same.symm, List.cons.injEq]
      exact and_iff_left rfl
    rw [back]
    constructor
    · rintro ⟨front, same⟩
      refine Or.inr fun user member case => ?_
      obtain rest | rfl := (List.mem_append.mp member).imp_right List.mem_singleton.mp
      · obtain isLast | named := case
        · exact Option.some.inj isLast ▸ same
        · exact front user rest named
      · exact same
    · rintro (isLast | all)
      · exact absurd isLast own
      · exact ⟨fun user member named => all user (List.mem_append_left _ member) (Or.inr named),
          all last (by simp) (Or.inl rfl)⟩

end Runs

-- upsd.users is read as its headers say exactly if below each header the settings are for the user
-- defined last, or there already.
theorem users_attributed_iff (lines : List (List CString)) :
    (∀ before line after, lines = before ++ line :: after -> Attributed before line) ↔
      ∀ before line after, lines = before ++ line :: after -> Attributable before line := by
  have each (before : List (List CString)) (line : List CString) : Attributed before line ↔ Attributable before line := by
    have ok := ok_userLoad before
    by_cases plain : headerName line = none
    · obtain ⟨un, header, _⟩ | settled := userParseArg_cases (userLoad before) line
      · rw [plain] at header
        cases header
      · rw [Attributed, if_pos plain, settled]
        exact settle_attributed_iff ok _ _
    · -- a header sets nothing
      have none_ := lineSettings_header plain
      refine iff_of_true ?_ (Or.inr fun user _ _ setting member => ?_)
      · rw [Attributed, if_neg plain]
        obtain ⟨un, _, added⟩ | settled := userParseArg_cases (userLoad before) line
        · rw [added]
          unfold UserFile.userAdd
          split
          · exact List.prefix_rfl
          · exact List.prefix_append _ _
        · simp [settled, none_, settle_nil]
      · rw [none_] at member
        cases member
  simp only [each]

def sampleLines : List (List CString) :=
  [[cstr "[a]"], [cstr "[b]"], [cstr "[a]"], [cstr "password", cstr "=", cstr "x"]]

-- The password that stands below the second header for `a` is given to `b`.
theorem users_not_attributed : ¬ (∀ before line after, sampleLines = before ++ line :: after -> Attributed before line) ∧
      ((userLoad sampleLines).users.map fun user => (user.username, user.password)) =
        [(cstr "a", none), (cstr "b", some (cstr "x"))] := by
  refine ⟨fun all => ?_, by decide +kernel⟩
  have last := all [[cstr "[a]"], [cstr "[b]"], [cstr "[a]"]] [cstr "password", cstr "=", cstr "x"] [] rfl
  revert last
  unfold Attributed
  decide +kernel

end Nut
