import Nut.Clients.AuthconfItems

set_option autoImplicit false

namespace Nut.Nutauth

section Conditions

def OneWord (title : CString) : Prop :=
  title.length ≤ 510 ∧ ∀ b ∈ title, isBare b = true

def leavesOpen : (quoted : Bool) -> CString -> Bool
  | true, [] => false
  | false, [] => true
  | true, b :: rest => leavesOpen (b ≠ 34) rest
  | false, b :: rest => if b = 34 then leavesOpen true rest else false

def AuthconfItem.fixedUser (item : AuthconfItem) : Option CString :=
  item.section_.bind titleUser

def AuthconfItem.free (item : AuthconfItem) : List (CString × Option CString) :=
  if item.fixedUser.isSome then item.strings.tail else item.strings

structure ItemReadsBack (item : AuthconfItem) : Prop where
  title : ∀ title, item.section_ = some title -> OneWord title
  user : ∀ user, item.fixedUser = some user -> item.user = some user
  free : ∀ string ∈ item.free, ∀ val, string.2 = some val -> Plain val

structure ListReadsBack (list : List AuthconfItem) : Prop where
  items : ∀ item ∈ list, ItemReadsBack item
  defaults : ∀ item ∈ list.tail, item.section_ ≠ none
  closed : ∀ front item back user, list = front ++ item :: back -> item.fixedUser = some user -> leavesOpen true user = true ->
    back = [] ∧ item = { createAuthconfItem item.section_ with user := some user }

end Conditions

section Words

variable {title val : CString}

theorem header_whole (oneWord : OneWord title) : WholeLine 32 512 (91 :: title ++ [93]) [91 :: title ++ [93]] := by
  have bare : ∀ b ∈ 91 :: title ++ [93], isBare b = true := by
    intro b member
    rw [List.mem_append, List.mem_cons, List.mem_singleton] at member
    rcases member with (rfl | inside) | rfl
    · rfl
    · exact oneWord.2 b inside
    · rfl
  have word : BareWord (91 :: title ++ [93]) := ⟨by simp, by simp, bare⟩
  refine wholeLine_of (.last word.token) (by simp) ?_
  intro word member
  have length := oneWord.1
  rw [List.mem_singleton.mp member, List.length_append, List.length_cons, List.length_singleton]
  omega

def settingNames : List CString :=
  [cstr "USER", cstr "PASS", cstr "CERTPATH", cstr "CERTFILE", cstr "CERTIDENT_NAME", cstr "CERTIDENT_PASS",
    cstr "SSLBACKEND", cstr "CERTHOST", cstr "CERTVERIFY", cstr "FORCESSL"]

def indents : List CString :=
  [[], cstr "\t"]

theorem setting_begins : ∀ indent ∈ indents, ∀ var ∈ settingNames,
    runChars (pconfInitWith 32 512) (indent ++ var ++ cstr " = ") = ⟨.findwordstart, [var, [61]], [], 32, 512⟩ ∧
      (∀ b ∈ indent ++ var ++ cstr " = ", b ≠ 10) ∧ (indent ++ var).head?.any (· ≠ 91) = true := by
  decide +kernel

theorem setting_oneLine {indent var : CString} (indented : indent ∈ indents) (named : var ∈ settingNames) :
    ∀ b ∈ indent ++ var ++ cstr " = ", b ≠ 10 := (setting_begins indent indented var named).2.1

theorem runChars_setting {indent var : CString} (indented : indent ∈ indents) (named : var ∈ settingNames) (written : CString) :
    runChars (pconfInitWith 32 512) (indent ++ var ++ cstr " = " ++ written) =
      runChars ⟨.findwordstart, [var, [61]], [], 32, 512⟩ written := by
  rw [runChars_append, (setting_begins indent indented var named).1]

theorem setting_whole {indent : CString} {setting : Setting} (indented : indent ∈ indents)
    (named : setting.var ∈ settingNames) (token : Token setting.written setting.meaning)
    (short : setting.meaning.length ≤ 512) :
    WholeLine 32 512 (setting.line indent) [setting.var, [61], setting.meaning] := by
  constructor
  · intro b member
    rcases List.mem_append.mp member with inside | inside
    · exact setting_oneLine indented named b inside
    · exact isText_ne_newline (token.isText b inside)
  · have few : [setting.var, [61]].length < 32 := by
      rw [List.length_cons, List.length_singleton]
      decide
    rw [Setting.line, List.append_assoc, runChars_setting indented named, run_token_newline _ _ _ token, clip_fits short,
      addArg_fits _ few]
    rfl

section UserLine

variable {ctx : PconfCtx} {text : CString}

theorem collect_rest (inside : ctx.state = .collect) (bare : ∀ b ∈ text, isBare b = true) :
    (runChars ctx text).state = .collect := by
  induction text generalizing ctx with
  | nil => exact inside
  | cons b text ih =>
    obtain ⟨isText, space, hash, equals, escape⟩ := isBare_iff.mp (bare b List.mem_cons_self)
    have still : (parseChar ctx (charToInt b)).state = .collect := by
      simp [parseChar, inside, collect, hash, equals, escape, isText_ne_newline isText, isspace_text isText space, enter]
    exact ih still fun c member => bare c (List.mem_cons_of_mem b member)

theorem run_leavesOpen {quoted : Bool} (state : ctx.state = if quoted then .quotecollect else .findwordstart)
    (bare : ∀ b ∈ text, isBare b = true) :
    (runChars ctx (text ++ [34, 10])).state = if leavesOpen quoted text then .quotecollect else .endofline := by
  induction text generalizing ctx quoted with
  | nil =>
    obtain ⟨state_, _, _, _, _⟩ := ctx
    cases quoted with
    | true =>
      obtain rfl : state_ = .quotecollect := state
      rfl
    | false =>
      obtain rfl : state_ = .findwordstart := state
      rfl
  | cons b text ih =>
    obtain ⟨isText, space, hash, equals, escape⟩ := isBare_iff.mp (bare b List.mem_cons_self)
    have rest : ∀ c ∈ text, isBare c = true := fun c member => bare c (List.mem_cons_of_mem b member)
    rw [List.cons_append, runChars_cons]
    cases quoted with
    | true =>
      rw [leavesOpen]
      apply ih ?_ rest
      by_cases quote : b = 34
      · subst quote
        simp [parseChar, state, quotecollect, enter, charToInt]
      · simp [parseChar, state, quotecollect, enter, quote, escape]
    | false =>
      rw [leavesOpen]
      by_cases quote : b = 34
      · subst quote
        rw [if_pos rfl]
        exact ih (by simp [parseChar, state, findwordstart, enter, charToInt, isspace]) rest
      · have inside : (parseChar ctx (charToInt b)).state = .collect := by
          simp [parseChar, state, findwordstart, quote, hash, equals, escape, isText_ne_newline isText, isspace_text isText space, enter]
        have collected : (runChars (parseChar ctx (charToInt b)) (text ++ [34])).state = .collect := by
          apply collect_rest inside
          intro c member
          rcases List.mem_append.mp member with early | last
          · exact rest c early
          · rw [List.mem_singleton.mp last]
            rfl
        have split_ : text ++ [34, 10] = (text ++ [34]) ++ [10] := by simp
        rw [if_neg quote, split_, runChars_append]
        generalize runChars (parseChar ctx (charToInt b)) (text ++ [34]) = last at collected
        obtain ⟨state_, _, _, _, _⟩ := last
        obtain rfl : state_ = .collect := collected
        rfl

end UserLine

theorem user_oneLine {indent user : CString} (indented : indent ∈ indents) (bare : ∀ b ∈ user, isBare b = true) :
    ∀ b ∈ (stringSetting (cstr "USER") user).line indent, b ≠ 10 := by
  have named : cstr "USER" ∈ settingNames := by decide
  intro b member
  rcases List.mem_append.mp member with inside | inside
  · exact setting_oneLine indented named b inside
  · rcases List.mem_append.mp inside with inside | last
    · rcases List.mem_cons.mp inside with rfl | inside
      · decide
      · exact isText_ne_newline (isBare_iff.mp (bare b inside)).1
    · rw [List.mem_singleton.mp last]
      decide

theorem user_line {indent user : CString} (indented : indent ∈ indents) (bare : ∀ b ∈ user, isBare b = true) :
    (leavesOpen true user = false -> ∃ words,
      WholeLine 32 512 ((stringSetting (cstr "USER") user).line indent) (cstr "USER" :: [61] :: words)) ∧
    (leavesOpen true user = true ->
      (runChars (pconfInitWith 32 512) ((stringSetting (cstr "USER") user).line indent ++ [10])).state = .quotecollect ∧
      ∃ words, (runChars (pconfInitWith 32 512) ((stringSetting (cstr "USER") user).line indent ++ [10])).arglist =
        cstr "USER" :: [61] :: words) := by
  have named : cstr "USER" ∈ settingNames := by decide
  have line : (stringSetting (cstr "USER") user).line indent ++ [10] =
      indent ++ cstr "USER" ++ cstr " = " ++ (34 :: user ++ [34, 10]) := by
    simp [Setting.line, stringSetting]
  have opened : parseChar ⟨.findwordstart, [cstr "USER", [61]], [], 32, 512⟩ (charToInt 34) =
      ⟨.quotecollect, [cstr "USER", [61]], [], 32, 512⟩ := rfl
  have run : runChars (pconfInitWith 32 512) ((stringSetting (cstr "USER") user).line indent ++ [10]) =
      runChars ⟨.quotecollect, [cstr "USER", [61]], [], 32, 512⟩ (user ++ [34, 10]) := by
    rw [line, runChars_setting indented named, List.cons_append, runChars_cons, opened]
  have state : (runChars ⟨.quotecollect, [cstr "USER", [61]], [], 32, 512⟩ (user ++ [34, 10])).state =
      if leavesOpen true user then .quotecollect else .endofline := run_leavesOpen (by simp) bare
  obtain ⟨words, args⟩ := (grows_runChars ⟨.quotecollect, [cstr "USER", [61]], [], 32, 512⟩ (user ++ [34, 10])).args
  have underway : Underway 32 512 (runChars ⟨.quotecollect, [cstr "USER", [61]], [], 32, 512⟩ (user ++ [34, 10])) := by
    rw [<- run]
    exact underway_init.run _
  constructor
  · intro closed
    refine ⟨words, user_oneLine indented bare, ?_⟩
    rw [run]
    rw [closed, if_neg Bool.false_ne_true] at state
    have empty := underway.emptied.2 (.inr (.inr state))
    generalize runChars ⟨.quotecollect, [cstr "USER", [61]], [], 32, 512⟩ (user ++ [34, 10]) = ctx at *
    obtain ⟨state_, arglist, word, argLimit, wordlenLimit⟩ := ctx
    obtain rfl : state_ = .endofline := state
    obtain rfl : argLimit = 32 := underway.args
    obtain rfl : wordlenLimit = 512 := underway.length
    obtain rfl : word = [] := empty
    obtain rfl : cstr "USER" :: [61] :: words = arglist := args
    rfl
  · intro open_
    rw [open_, if_pos rfl] at state
    rw [run]
    exact ⟨state, words, args.symm⟩

end Words

section Settings

variable {services : Services} {parseInclude : CString -> Bool -> Bool -> Authconf -> Except Stop Authconf} {st : Authconf}
  {front : List AuthconfItem} {item : AuthconfItem} {flag : Bool}

theorem settingNames_plain : ∀ var ∈ settingNames, ¬ (var.head? = some 91 ∧ var.getLast? = some 93) ∧
    strcasecmp var (cstr "INCLUDE_REQUIRED") ≠ .eq ∧ strcasecmp var (cstr "INCLUDE") ≠ .eq ∧
    (isUser var = true ↔ var = cstr "USER") ∧
    (strcasecmp var (cstr "pass") = .eq ∨ strcasecmp var (cstr "password") = .eq ↔ var = cstr "PASS") := by
  decide +kernel

theorem handle_setting (heeds : st.currentSectionIgnored = false) {var : CString} (named : var ∈ settingNames)
    (rest : List CString) :
    handleAuthconfArgs services parseInclude true st (var :: rest) = .ok (st.setVal var (assigned rest)) := by
  obtain ⟨noHeader, notRequired, notIncluded, -⟩ := settingNames_plain var named
  unfold handleAuthconfArgs
  dsimp only
  rw [if_neg noHeader, heeds, if_neg Bool.false_ne_true, if_neg notRequired, if_neg notIncluded]
  rcases rest with _ | ⟨_, _ | ⟨_, _⟩⟩ <;> rfl

structure Edits (flag : Bool) (front : List AuthconfItem) (item : AuthconfItem) (st : Authconf) : Prop where
  heeds : st.currentSectionIgnored = false
  flag : st.currentSectionWithFixedUsername = flag
  place : st.list = front ++ [item] ∧ st.currentSection.or st.globalDefaults = some front.length ∨
    st.list = front ∧ st.currentSection = none ∧ st.globalDefaults = none ∧ item = createAuthconfItem none

theorem modify_last (front : List AuthconfItem) (item : AuthconfItem) (edit : AuthconfItem -> AuthconfItem) :
    (front ++ [item]).modify front.length edit = front ++ [edit item] := by
  induction front with
  | nil => rfl
  | cons first front ih =>
    rw [List.cons_append, List.length_cons, List.modify_succ_cons, ih]
    rfl

theorem Edits.setVal (edits : Edits flag front item st) (var : CString) (val : Option CString) :
    Edits flag front (setAuthconfVal flag var val item) (st.setVal var val) ∧
      (st.setVal var val).list = front ++ [setAuthconfVal flag var val item] := by
  obtain ⟨heeds, rfl, ⟨list, place⟩ | ⟨list, current, defaults, rfl⟩⟩ := edits
  · have edited : st.setVal var val =
        { st with list := front ++ [setAuthconfVal st.currentSectionWithFixedUsername var val item] } := by
      unfold Authconf.setVal
      cases current : st.currentSection with
      | some i =>
        rw [current, Option.some_or, Option.some.injEq] at place
        subst place
        dsimp only
        rw [list, modify_last, current]
      | none =>
        rw [current, Option.none_or] at place
        dsimp only [Authconf.editDefaults]
        rw [place]
        dsimp only
        rw [list, modify_last, current, place]
    rw [edited]
    exact ⟨⟨heeds, rfl, .inl ⟨rfl, place⟩⟩, rfl⟩
  · have edited : st.setVal var val =
        { st with
          list := front ++ [setAuthconfVal st.currentSectionWithFixedUsername var val (createAuthconfItem none)]
          globalDefaults := some front.length } := by
      unfold Authconf.setVal
      rw [current]
      dsimp only [Authconf.editDefaults]
      rw [defaults]
      dsimp only
      rw [list, modify_last, current]
    rw [edited]
    refine ⟨⟨heeds, rfl, .inl ⟨rfl, ?_⟩⟩, rfl⟩
    dsimp only
    rw [current, Option.none_or]

def AuthconfItem.apply (flag : Bool) (item : AuthconfItem) (setting : Setting) : AuthconfItem :=
  setAuthconfVal flag setting.var (some setting.meaning) item

def Setting.words (setting : Setting) : List CString :=
  [setting.var, [61], setting.meaning]

theorem Edits.settings (edits : Edits flag front item st) {settings : List Setting}
    (named : ∀ setting ∈ settings, setting.var ∈ settingNames) :
    ∃ after, (settings.map Setting.words).foldlM (handleAuthconfArgs services parseInclude true) st = .ok after ∧
      Edits flag front (settings.foldl (AuthconfItem.apply flag) item) after ∧
      (settings ≠ [] -> after.list = front ++ [settings.foldl (AuthconfItem.apply flag) item]) := by
  induction settings generalizing st item with
  | nil => exact ⟨st, rfl, edits, fun some_ => absurd rfl some_⟩
  | cons setting settings ih =>
    have assigns : assigned [[61], setting.meaning] = some setting.meaning := rfl
    obtain ⟨edits_, list⟩ := edits.setVal setting.var (some setting.meaning)
    have done : handleAuthconfArgs services parseInclude true st setting.words =
        .ok (st.setVal setting.var (some setting.meaning)) := by
      rw [Setting.words, handle_setting edits.heeds (named setting List.mem_cons_self), assigns]
    obtain ⟨after, rest, now, last⟩ := ih edits_ fun other member => named other (List.mem_cons_of_mem setting member)
    refine ⟨after, ?_, now, fun _ => ?_⟩
    · rw [List.map_cons, List.foldlM_cons, done]
      exact rest
    · cases settings with
      | nil =>
        cases rest
        exact list
      | cons other settings => exact last (List.cons_ne_nil other settings)

def AuthconfItem.others (item : AuthconfItem) : List Setting :=
  (item.strings.tail.flatMap fun string => string.2.toList.map (stringSetting string.1)) ++
    item.switches.map fun switch => switchSetting switch.1 switch.2

theorem AuthconfItem.written_eq (item : AuthconfItem) :
    item.written = item.user.toList.map (stringSetting (cstr "USER")) ++ item.others := by
  simp [AuthconfItem.written, AuthconfItem.others, AuthconfItem.strings]

section Names

variable (flag : Bool) (val : Option CString) (item : AuthconfItem)

theorem setAuthconfVal_user : setAuthconfVal flag (cstr "USER") val item =
    if flag ∧ item.user ≠ none ∧ item.user ≠ val then item else { item with user := val } := by
  have named : cstr "USER" ∈ settingNames := by decide
  obtain ⟨-, -, -, isUser, -⟩ := settingNames_plain _ named
  unfold setAuthconfVal
  rw [if_pos (isUser.mpr rfl)]

theorem setAuthconfVal_named {var : CString} (named : var ∈ settingNames) (other : var ≠ cstr "USER") :
    setAuthconfVal flag var val item =
      if var = cstr "PASS" then { item with pass := val }
      else if var = cstr "CERTPATH" then { item with certpath := val }
      else if var = cstr "CERTFILE" then { item with certfile := val }
      else if var = cstr "CERTIDENT_NAME" then { item with certident := val }
      else if var = cstr "CERTIDENT_PASS" then { item with certpasswd := val }
      else if var = cstr "SSLBACKEND" then { item with sslBackend := val }
      else if var = cstr "CERTHOST" then { item with certhost := val }
      else if var = cstr "CERTVERIFY" then
        { item with certverify := val.elim item.certverify (setSwitch · item.certverify) }
      else if var = cstr "FORCESSL" then
        { item with forcessl := val.elim item.forcessl (setSwitch · item.forcessl) }
      else item := by
  obtain ⟨-, -, -, isUser, isPass⟩ := settingNames_plain var named
  unfold setAuthconfVal
  rw [if_neg fun user => other (isUser.mp user)]
  simp only [isPass]
  cases val <;> rfl

theorem set_user (free : flag = false ∨ item.user = none) :
    setAuthconfVal flag (cstr "USER") val item = { item with user := val } := by
  rw [setAuthconfVal_user, if_neg]
  rintro ⟨fixed, some_, _⟩
  rcases free with rfl | none_
  · cases fixed
  · exact some_ none_

theorem set_fixedUser (user : item.user ≠ none) : setAuthconfVal true (cstr "USER") val item = item := by
  rw [setAuthconfVal_user]
  split
  · rfl
  next same =>
    have same : item.user = val := by simpa [user] using same
    rw [<- same]

theorem set_pass : setAuthconfVal flag (cstr "PASS") val item = { item with pass := val } := by
  rw [setAuthconfVal_named _ _ _ (by decide) (by decide)]
  rw [if_pos rfl]

theorem set_certpath : setAuthconfVal flag (cstr "CERTPATH") val item = { item with certpath := val } := by
  rw [setAuthconfVal_named _ _ _ (by decide) (by decide)]
  rw [if_neg (by decide)]
  rw [if_pos rfl]

theorem set_certfile : setAuthconfVal flag (cstr "CERTFILE") val item = { item with certfile := val } := by
  rw [setAuthconfVal_named _ _ _ (by decide) (by decide)]
  iterate 2 rw [if_neg (by decide)]
  rw [if_pos rfl]

theorem set_certident : setAuthconfVal flag (cstr "CERTIDENT_NAME") val item = { item with certident := val } := by
  rw [setAuthconfVal_named _ _ _ (by decide) (by decide)]
  iterate 3 rw [if_neg (by decide)]
  rw [if_pos rfl]

theorem set_certpasswd : setAuthconfVal flag (cstr "CERTIDENT_PASS") val item = { item with certpasswd := val } := by
  rw [setAuthconfVal_named _ _ _ (by decide) (by decide)]
  iterate 4 rw [if_neg (by decide)]
  rw [if_pos rfl]

theorem set_sslBackend : setAuthconfVal flag (cstr "SSLBACKEND") val item = { item with sslBackend := val } := by
  rw [setAuthconfVal_named _ _ _ (by decide) (by decide)]
  iterate 5 rw [if_neg (by decide)]
  rw [if_pos rfl]

theorem set_certhost : setAuthconfVal flag (cstr "CERTHOST") val item = { item with certhost := val } := by
  rw [setAuthconfVal_named _ _ _ (by decide) (by decide)]
  iterate 6 rw [if_neg (by decide)]
  rw [if_pos rfl]

theorem set_certverify : setAuthconfVal flag (cstr "CERTVERIFY") val item =
    { item with certverify := val.elim item.certverify (setSwitch · item.certverify) } := by
  rw [setAuthconfVal_named _ _ _ (by decide) (by decide)]
  iterate 7 rw [if_neg (by decide)]
  rw [if_pos rfl]

theorem set_forcessl : setAuthconfVal flag (cstr "FORCESSL") val item =
    { item with forcessl := val.elim item.forcessl (setSwitch · item.forcessl) } := by
  rw [setAuthconfVal_named _ _ _ (by decide) (by decide)]
  iterate 8 rw [if_neg (by decide)]
  rw [if_pos rfl]

end Names

theorem Edits.fixedLine (edits : Edits true front item st) (user : item.user ≠ none) (rest : List CString) :
    ∃ after, handleAuthconfArgs services parseInclude true st (cstr "USER" :: rest) = .ok after ∧
      Edits true front item after ∧ after.list = front ++ [item] := by
  have named : cstr "USER" ∈ settingNames := by decide
  obtain ⟨now, list⟩ := edits.setVal (cstr "USER") (assigned rest)
  rw [set_fixedUser _ _ user] at now list
  exact ⟨_, handle_setting edits.heeds named rest, now, list⟩

theorem apply_string {var : CString} {put : Option CString -> AuthconfItem} {val : Option CString} {rest : List Setting}
    (unset : put none = item) (set : ∀ val, setAuthconfVal flag var val item = put val) :
    (val.toList.map (stringSetting var) ++ rest).foldl (AuthconfItem.apply flag) item =
      rest.foldl (AuthconfItem.apply flag) (put val) := by
  cases val with
  | none =>
    rw [unset]
    rfl
  | some val =>
    rw [<- set (some val)]
    rfl

theorem setSwitch_printed {val : Int} (three : val = -1 ∨ val = 0 ∨ val = 1) : setSwitch (printInt val) (-1) = val := by
  rcases three with rfl | rfl | rfl <;> decide

theorem apply_others (certverify : item.certverify = -1 ∨ item.certverify = 0 ∨ item.certverify = 1)
    (forcessl : item.forcessl = -1 ∨ item.forcessl = 0 ∨ item.forcessl = 1) :
    item.others.foldl (AuthconfItem.apply flag) { createAuthconfItem item.section_ with user := item.user } = item := by
  have strings : item.others =
      item.pass.toList.map (stringSetting (cstr "PASS")) ++ (item.certpath.toList.map (stringSetting (cstr "CERTPATH")) ++
      (item.certfile.toList.map (stringSetting (cstr "CERTFILE")) ++
      (item.certident.toList.map (stringSetting (cstr "CERTIDENT_NAME")) ++
      (item.certpasswd.toList.map (stringSetting (cstr "CERTIDENT_PASS")) ++
      (item.sslBackend.toList.map (stringSetting (cstr "SSLBACKEND")) ++
      (item.certhost.toList.map (stringSetting (cstr "CERTHOST")) ++
      [switchSetting (cstr "CERTVERIFY") item.certverify, switchSetting (cstr "FORCESSL") item.forcessl])))))) := by
    simp [AuthconfItem.others, AuthconfItem.strings, AuthconfItem.switches]
  rw [strings]
  refine Eq.trans (apply_string rfl fun val => set_pass flag val _) ?_
  refine Eq.trans (apply_string rfl fun val => set_certpath flag val _) ?_
  refine Eq.trans (apply_string rfl fun val => set_certfile flag val _) ?_
  refine Eq.trans (apply_string rfl fun val => set_certident flag val _) ?_
  refine Eq.trans (apply_string rfl fun val => set_certpasswd flag val _) ?_
  refine Eq.trans (apply_string rfl fun val => set_sslBackend flag val _) ?_
  refine Eq.trans (apply_string rfl fun val => set_certhost flag val _) ?_
  rw [List.foldl_cons, List.foldl_cons, List.foldl_nil, AuthconfItem.apply, AuthconfItem.apply]
  dsimp only [switchSetting]
  rw [set_certverify, set_forcessl]
  apply AuthconfItem.ext
  case certverify => exact setSwitch_printed certverify
  case forcessl => exact setSwitch_printed forcessl
  all_goals rfl

end Settings

section Items

variable {services : Services} {parseInclude : CString -> Bool -> Bool -> Authconf -> Except Stop Authconf} {st : Authconf}
  {item : AuthconfItem}

theorem keepsTitle_nonempty {title : CString} (keeps : KeepsTitle services title) : title ≠ [] := by
  rintro rfl
  obtain ⟨_, accepted, _⟩ := keeps
  cases accepted

theorem header_enters {title : CString} (keeps : KeepsTitle services title)
    (new : ∀ other ∈ st.list, other.section_ ≠ some title) :
    ∃ after, handleAuthconfArgs services parseInclude true st [91 :: title ++ [93]] = .ok after ∧
      Edits (titleUser title).isSome st.list { createAuthconfItem (some title) with user := titleUser title } after := by
  obtain ⟨parts, accepted, same, fixed⟩ := keeps
  have bracketed : (91 :: title ++ [93]).head? = some 91 ∧ (91 :: title ++ [93]).getLast? = some 93 :=
    ⟨rfl, List.getLast?_concat⟩
  have header : isHeader (91 :: title ++ [93]) = true := decide_eq_true bracketed
  have name : (91 :: title ++ [93]).tail.dropLast = title := by simp
  have list := (@finishSection_list services st).1
  have absent : st.list.findIdx? (fun other => other.section_ = some title) = none := by
    rw [List.findIdx?_eq_none_iff]
    intro other member
    simpa using new other member
  have user : (if parts.fixedUser then titleUser title else none) = titleUser title := by
    rw [fixed]
    cases titleUser title <;> rfl
  unfold handleAuthconfArgs
  dsimp only
  rw [if_pos bracketed, if_neg (isHeader_bracketed header), name]
  unfold enterSection
  rw [accepted]
  dsimp only
  rw [same, Bool.not_true, Bool.false_and, if_neg Bool.false_ne_true, list, absent, user]
  exact ⟨_, rfl, rfl, fixed, .inl ⟨rfl, rfl⟩⟩

def AuthconfItem.entered (item : AuthconfItem) : AuthconfItem :=
  { createAuthconfItem item.section_ with user := item.fixedUser }

theorem fixedUser_bare (back : ItemReadsBack item) {user : CString} (fixed : item.fixedUser = some user) :
    ∀ b ∈ user, isBare b = true := by
  obtain ⟨title, titled, named⟩ := Option.bind_eq_some_iff.mp fixed
  rw [titleUser] at named
  split at named
  next i _ =>
    cases named
    exact fun b member => (back.title title titled).2 b (List.mem_of_mem_take member)
  next => cases named

theorem user_read (fromFile : FromFile services item) (back : ItemReadsBack item)
    (closed : ∀ user, item.fixedUser = some user -> leavesOpen true user = false) {indent : CString}
    (indented : indent ∈ indents) : ∃ words, List.Forall₂ (WholeLine 32 512)
        ((item.user.toList.map (stringSetting (cstr "USER"))).map (Setting.line indent)) words ∧
      ∀ st front flag, (item.fixedUser.isSome -> flag = true) -> Edits flag front item.entered st ->
        ∃ after, words.foldlM (handleAuthconfArgs services parseInclude true) st = .ok after ∧
          Edits flag front { createAuthconfItem item.section_ with user := item.user } after := by
  have named : cstr "USER" ∈ settingNames := by decide
  cases user : item.user with
  | none =>
    have fixed : item.fixedUser = none := by
      cases fixed : item.fixedUser with
      | none => rfl
      | some val =>
        have given := back.user val fixed
        rw [user] at given
        cases given
    refine ⟨[], .nil, fun st front flag _ edits => ⟨st, rfl, ?_⟩⟩
    rw [AuthconfItem.entered, fixed] at edits
    exact edits
  | some val =>
    cases fixed : item.fixedUser with
    | none =>
      have own : (cstr "USER", item.user) ∈ item.free := by
        simp [AuthconfItem.free, fixed, AuthconfItem.strings]
      have string : (cstr "USER", item.user) ∈ item.strings := by simp [AuthconfItem.strings]
      have plain := back.free _ own val user
      have short : val.length ≤ 512 := (fromFile.strings _ string val user).1 (by decide)
      refine ⟨[[cstr "USER", [61], val]],
        .cons (setting_whole indented named (.quoted (quotedAs_plain plain)) short) .nil, ?_⟩
      intro st front flag _ edits
      have assigns : assigned [[61], val] = some val := rfl
      obtain ⟨now, _⟩ := edits.setVal (cstr "USER") (some val)
      rw [AuthconfItem.entered, fixed, set_user flag (some val) _ (.inr rfl)] at now
      refine ⟨_, ?_, now⟩
      rw [List.foldlM_cons, handle_setting edits.heeds named, assigns]
      rfl
    | some known =>
      have given := back.user known fixed
      rw [user, Option.some.injEq] at given
      subst given
      obtain ⟨words, whole⟩ := (user_line indented (fixedUser_bare back fixed)).1 (closed val fixed)
      refine ⟨[cstr "USER" :: [61] :: words], .cons whole .nil, ?_⟩
      intro st front flag fixes edits
      obtain rfl := fixes rfl
      rw [AuthconfItem.entered, fixed] at edits
      obtain ⟨after, done, now, _⟩ := @Edits.fixedLine services parseInclude _ _ _ edits (by simp) ([61] :: words)
      refine ⟨after, ?_, now⟩
      rw [List.foldlM_cons, done]
      rfl

theorem settings_mem {strings : List (CString × Option CString)} {setting : Setting}
    (member : setting ∈ (strings.flatMap fun string => string.2.toList.map (stringSetting string.1)) ++
      item.switches.map fun switch => switchSetting switch.1 switch.2) :
    (∃ string ∈ strings, ∃ val, string.2 = some val ∧ setting = stringSetting string.1 val) ∨
      setting = switchSetting (cstr "CERTVERIFY") item.certverify ∨ setting = switchSetting (cstr "FORCESSL") item.forcessl := by
  rcases List.mem_append.mp member with inside | inside
  · obtain ⟨string, member, there⟩ := List.mem_flatMap.mp inside
    obtain ⟨val, set, same⟩ := List.mem_map.mp there
    exact .inl ⟨string, member, val, Option.mem_toList.mp set, same.symm⟩
  · right
    simpa [AuthconfItem.switches] using inside

theorem tail_named : ∀ string ∈ item.strings.tail, string.1 ∈ settingNames := by
  have names : ∀ var ∈ item.strings.tail.map Prod.fst, var ∈ settingNames := by
    intro var member
    exact List.mem_append_left _ (List.mem_of_mem_tail member : var ∈ item.strings.map Prod.fst)
  exact fun string member => names _ (List.mem_map_of_mem member)

theorem switches_named : cstr "CERTVERIFY" ∈ settingNames ∧ cstr "FORCESSL" ∈ settingNames := by
  decide

theorem others_whole (fromFile : FromFile services item) (back : ItemReadsBack item) {indent : CString}
    (indented : indent ∈ indents) :
    List.Forall₂ (WholeLine 32 512) (item.others.map (Setting.line indent)) (item.others.map Setting.words) := by
  have switched {val : Int} (three : val = -1 ∨ val = 0 ∨ val = 1) : BareWord (printInt val) ∧ (printInt val).length ≤ 512 := by
    rcases three with rfl | rfl | rfl <;> decide
  rw [List.forall₂_map_left_iff, List.forall₂_map_right_iff, List.forall₂_same]
  intro setting member
  rcases settings_mem member with ⟨string, inside, val, set, rfl⟩ | rfl | rfl
  · have own : string ∈ item.free := by
      unfold AuthconfItem.free
      split
      · exact inside
      · exact List.mem_of_mem_tail inside
    have short := (fromFile.strings string (List.mem_of_mem_tail inside) val set).1 (by decide)
    exact setting_whole indented (tail_named string inside) (.quoted (quotedAs_plain (back.free string own val set))) short
  · obtain ⟨bare, short⟩ := switched fromFile.certverify
    exact setting_whole indented switches_named.1 bare.token short
  · obtain ⟨bare, short⟩ := switched fromFile.forcessl
    exact setting_whole indented switches_named.2 bare.token short

theorem others_named : ∀ setting ∈ item.others, setting.var ∈ settingNames := by
  intro setting member
  rcases settings_mem member with ⟨string, inside, val, _, rfl⟩ | rfl | rfl
  · exact tail_named string inside
  · exact switches_named.1
  · exact switches_named.2

theorem indent_mem (item : AuthconfItem) : item.indent ∈ indents := by
  unfold AuthconfItem.indent indents
  split <;> simp

theorem header_read (fromFile : FromFile services item) (back : ItemReadsBack item) :
    ∃ words, List.Forall₂ (WholeLine 32 512) (item.header.toList.map fun title => 91 :: title ++ [93]) words ∧
      ∀ st, st.currentSectionIgnored = false -> (∀ other ∈ st.list, other.section_ ≠ item.section_) ->
        (item.section_ = none -> st.currentSection = none ∧ st.globalDefaults = none) ->
        ∃ after flag, words.foldlM (handleAuthconfArgs services parseInclude true) st = .ok after ∧
          (item.fixedUser.isSome -> flag = true) ∧ Edits flag st.list item.entered after := by
  cases titled : item.section_ with
  | none =>
    have fixed : item.fixedUser = none := by rw [AuthconfItem.fixedUser, titled, Option.bind_none]
    have header : item.header = none := by rw [AuthconfItem.header, titled, Option.filter_none]
    rw [header]
    refine ⟨[], .nil, fun st heeds _ first => ⟨st, _, rfl, fun named => ?_, heeds, rfl, .inr ⟨rfl, ?_⟩⟩⟩
    · rw [fixed] at named
      cases named
    · obtain ⟨current, defaults⟩ := first rfl
      refine ⟨current, defaults, ?_⟩
      rw [AuthconfItem.entered, fixed, titled]
      rfl
  | some title =>
    have keeps := (fromFile.title title titled).1
    have header : item.header = some title := by
      rw [AuthconfItem.header, titled, Option.filter_some, if_pos (by simpa using keepsTitle_nonempty keeps)]
    have fixed : item.fixedUser = titleUser title := by rw [AuthconfItem.fixedUser, titled, Option.bind_some]
    rw [header]
    refine ⟨[[91 :: title ++ [93]]], .cons (header_whole (back.title title titled)) .nil, ?_⟩
    intro st heeds new _
    obtain ⟨after, done, edits⟩ := @header_enters services parseInclude st title keeps new
    refine ⟨after, (titleUser title).isSome, ?_, ?_, ?_⟩
    · rw [List.foldlM_cons, done]
      rfl
    · rw [fixed]
      exact id
    · rw [AuthconfItem.entered, fixed, titled]
      exact edits

theorem item_read (fromFile : FromFile services item) (back : ItemReadsBack item)
    (closed : ∀ user, item.fixedUser = some user -> leavesOpen true user = false) :
    ∃ words, List.Forall₂ (WholeLine 32 512) item.lines words ∧
      ∀ st, st.currentSectionIgnored = false -> (∀ other ∈ st.list, other.section_ ≠ item.section_) ->
        (item.section_ = none -> st.currentSection = none ∧ st.globalDefaults = none) ->
        ∃ after, words.foldlM (handleAuthconfArgs services parseInclude true) st = .ok after ∧
          after.currentSectionIgnored = false ∧ after.list = st.list ++ [item] := by
  obtain ⟨headers, headerLines, entering⟩ := @header_read services parseInclude item fromFile back
  obtain ⟨users, userLines, naming⟩ := @user_read services parseInclude item fromFile back closed _ (indent_mem item)
  have otherLines := others_whole fromFile back (indent_mem item)
  refine ⟨headers ++ (users ++ item.others.map Setting.words), ?_, ?_⟩
  · rw [AuthconfItem.lines, item.written_eq, List.map_append]
    exact List.rel_append headerLines (List.rel_append userLines otherLines)
  · intro st heeds new first
    obtain ⟨entered, flag, entering, fixes, edits⟩ := entering st heeds new first
    obtain ⟨named, naming, edits⟩ := naming entered st.list flag fixes edits
    obtain ⟨after, done, edits, list⟩ := @Edits.settings services parseInclude _ _ _ _ edits item.others others_named
    have some_ : item.others ≠ [] := by simp [AuthconfItem.others, AuthconfItem.switches]
    rw [apply_others fromFile.certverify fromFile.forcessl] at list
    refine ⟨after, ?_, edits.heeds, list some_⟩
    rw [List.foldlM_append, entering]
    exact (List.foldlM_append.trans (congrArg (· >>= _) naming)).trans done

theorem items_read {items : List AuthconfItem} (fromFile : ∀ item ∈ items, FromFile services item)
    (back : ∀ item ∈ items, ItemReadsBack item)
    (closed : ∀ item ∈ items, ∀ user, item.fixedUser = some user -> leavesOpen true user = false)
    (titled : ∀ item ∈ items.tail, item.section_ ≠ none) :
    ∃ words, List.Forall₂ (WholeLine 32 512) (items.flatMap AuthconfItem.lines) words ∧
      ∀ st, st.currentSectionIgnored = false -> ((st.list ++ items).map (·.section_)).Nodup ->
        (∀ item, items.head? = some item -> item.section_ = none -> st.currentSection = none ∧ st.globalDefaults = none) ->
        ∃ after, words.foldlM (handleAuthconfArgs services parseInclude true) st = .ok after ∧
          after.currentSectionIgnored = false ∧ after.list = st.list ++ items := by
  induction items with
  | nil => exact ⟨[], .nil, fun st heeds _ _ => ⟨st, rfl, heeds, (List.append_nil _).symm⟩⟩
  | cons item items ih =>
    obtain ⟨here, lines, reads⟩ := @item_read services parseInclude item (fromFile item List.mem_cons_self)
      (back item List.mem_cons_self) (closed item List.mem_cons_self)
    obtain ⟨later, laterLines, laterReads⟩ := ih (fun other member => fromFile other (List.mem_cons_of_mem item member))
      (fun other member => back other (List.mem_cons_of_mem item member))
      (fun other member => closed other (List.mem_cons_of_mem item member))
      (fun other member => titled other (List.mem_of_mem_tail member))
    refine ⟨here ++ later, List.rel_append lines laterLines, ?_⟩
    intro st heeds apart first
    have new : ∀ other ∈ st.list, other.section_ ≠ item.section_ := by
      intro other member same
      rw [List.map_append, List.nodup_append] at apart
      exact apart.2.2 _ (List.mem_map_of_mem member) _ (List.mem_map_of_mem List.mem_cons_self) same
    obtain ⟨next, done, heeds, list⟩ := reads st heeds new (first item rfl)
    have behind : next.list ++ items = st.list ++ item :: items := by rw [list, List.append_assoc, List.singleton_append]
    obtain ⟨after, rest, heeds, all⟩ := laterReads next heeds (by rw [behind]; exact apart) fun other head none_ =>
      absurd none_ (titled other (List.mem_of_mem_head? head))
    refine ⟨after, ?_, heeds, by rw [all, behind]⟩
    rw [List.foldlM_append, done]
    exact rest

theorem lines_user {user : CString} (user_ : item.user = some user) :
    item.lines = item.header.toList.map (fun title => 91 :: title ++ [93]) ++
      (stringSetting (cstr "USER") user).line item.indent :: item.others.map (Setting.line item.indent) := by
  rw [AuthconfItem.lines, item.written_eq, List.map_append, user_]
  rfl

theorem switches_plain : ∀ indent ∈ indents, ∀ certverify ∈ [(-1 : Int), 0, 1], ∀ forcessl ∈ [(-1 : Int), 0, 1],
    ∀ b ∈ linesText ([switchSetting (cstr "CERTVERIFY") certverify, switchSetting (cstr "FORCESSL") forcessl].map
      (Setting.line indent)), b ≠ 34 ∧ b ≠ 92 := by
  decide +kernel

theorem open_read (fromFile : FromFile services item) (back : ItemReadsBack item) {user : CString}
    (fixed : item.fixedUser = some user) (open_ : leavesOpen true user = true)
    (only : item = { createAuthconfItem item.section_ with user := some user }) :
    ∃ lines, fileLines (pconfInitWith 32 512) (linesText item.lines) = lines ∧
      ∀ st, st.currentSectionIgnored = false -> (∀ other ∈ st.list, other.section_ ≠ item.section_) ->
        ∃ after, lines.foldlM (handleAuthconfArgs services parseInclude true) st = .ok after ∧
          after.list = st.list ++ [item] := by
  obtain ⟨headers, headerLines, entering⟩ := @header_read services parseInclude item fromFile back
  obtain ⟨state, words, args⟩ := (user_line (indent_mem item) (fixedUser_bare back fixed)).2 open_
  have titled : item.section_ ≠ none := by
    intro none_
    rw [AuthconfItem.fixedUser, none_] at fixed
    cases fixed
  have others : item.others = [switchSetting (cstr "CERTVERIFY") (-1), switchSetting (cstr "FORCESSL") (-1)] := by
    rw [only]
    rfl
  have lines := lines_user (back.user user fixed)
  have oneLine := user_oneLine (indent_mem item) (fixedUser_bare back fixed)
  have behind := switches_plain item.indent (indent_mem item) (-1) List.mem_cons_self (-1) List.mem_cons_self
  have running : lineDone (runChars (pconfInitWith 32 512) ((stringSetting (cstr "USER") user).line item.indent ++ [10])) =
      false := by
    rw [lineDone, state]
    rfl
  obtain ⟨all, last, begins⟩ := fileLines_open state (by rw [args]; simp) behind
  refine ⟨headers ++ [all], ?_, ?_⟩
  · rw [lines, fileLines_linesText headerLines, linesText_cons, fileLines_line rfl oneLine, if_neg (by rw [running]; decide),
      others, last]
  · intro st heeds new
    obtain ⟨entered, flag, entering, fixes, edits⟩ := entering st heeds new fun none_ => absurd none_ titled
    obtain ⟨more, same⟩ := begins
    rw [args] at same
    obtain rfl := fixes (by rw [fixed]; rfl)
    rw [AuthconfItem.entered, fixed, <- only] at edits
    obtain ⟨after, step, _, list⟩ := @Edits.fixedLine services parseInclude _ _ _ edits (by rw [only]; simp)
      ([61] :: (words ++ more))
    refine ⟨after, ?_, list⟩
    rw [List.foldlM_append, entering, <- same]
    have last : [cstr "USER" :: [61] :: (words ++ more)].foldlM (handleAuthconfArgs services parseInclude true) entered =
        .ok after := by
      rw [List.foldlM_cons, step]
      rfl
    exact last

end Items

section Lists

variable {services : Services} {files : Files} {confpath filename path : CString} {list : List AuthconfItem}

theorem read_lines {text : CString} (resolved : resolvePath confpath filename = some path) (file : files path = .opened text)
    (depth : Nat) (fatalErrors fixedUsername : Bool) {after : Authconf}
    (done : (fileLines (pconfInitWith 32 512) text).foldlM
      (handleAuthconfArgs services (parseAuthconfFile services files confpath depth) true) (freed fixedUsername) = .ok after) :
    readAuthconfFile services files confpath (depth + 1) filename fatalErrors fixedUsername =
      .ok { after with currentSectionIgnored := false } := by
  unfold readAuthconfFile parseAuthconfFile
  rw [resolved]
  dsimp only
  rw [file]
  exact bind_eq_ok.mpr ⟨after, done, rfl⟩

theorem list_read (fromFile : ∀ item ∈ list, FromFile services item) (apart : (list.map (·.section_)).Nodup)
    (back : ListReadsBack list) (resolved : resolvePath confpath filename = some path)
    (file : files path = .opened (dumpAuthconfList 0 true list).1) (depth : Nat) (fatalErrors fixedUsername : Bool) :
    ∃ again, readAuthconfFile services files confpath (depth + 1) filename fatalErrors fixedUsername = .ok again ∧
      again.list = list := by
  rw [dumpAuthconfList_text] at file
  suffices read : ∃ after, (fileLines (pconfInitWith 32 512) (linesText (list.flatMap AuthconfItem.lines))).foldlM
      (handleAuthconfArgs services (parseAuthconfFile services files confpath depth) true) (freed fixedUsername) = .ok after ∧
      after.list = list by
    obtain ⟨after, done, same⟩ := read
    exact ⟨_, read_lines resolved file depth fatalErrors fixedUsername done, same⟩
  by_cases open_ : ∃ front item user, list = front ++ [item] ∧ item.fixedUser = some user ∧ leavesOpen true user = true
  · obtain ⟨front, item, user, rfl, fixed, open_⟩ := open_
    have only := (back.closed front item [] user rfl fixed open_).2
    have closed : ∀ other ∈ front, ∀ user, other.fixedUser = some user -> leavesOpen true user = false := by
      intro other member user fixed
      obtain ⟨before, behind, rfl⟩ := List.append_of_mem member
      cases open_ : leavesOpen true user with
      | false => rfl
      | true =>
        have whole : before ++ other :: behind ++ [item] = before ++ other :: (behind ++ [item]) := by simp
        exact absurd (back.closed before other (behind ++ [item]) user whole fixed open_).1 (by simp)
    obtain ⟨words, lines, reads⟩ := @items_read services (parseAuthconfFile services files confpath depth) front
      (fun other member => fromFile other (List.mem_append_left _ member))
      (fun other member => back.items other (List.mem_append_left _ member)) closed fun other member =>
        back.defaults other (by
          cases front with
          | nil => cases member
          | cons first front => exact List.mem_append_left _ member)
    have last : item ∈ front ++ [item] := by simp
    obtain ⟨behind, text, readsLast⟩ := @open_read services (parseAuthconfFile services files confpath depth) item
      (fromFile item last) (back.items item last) user fixed open_ only
    rw [List.map_append, List.nodup_append] at apart
    obtain ⟨next, done, heeds, all⟩ := reads (freed fixedUsername) rfl apart.1 fun _ _ _ => ⟨rfl, rfl⟩
    rw [freed, List.nil_append] at all
    obtain ⟨after, ends, whole⟩ := readsLast next heeds fun other member =>
      apart.2.2 _ (List.mem_map_of_mem (all ▸ member)) _ (List.mem_map_of_mem List.mem_cons_self)
    refine ⟨after, ?_, by rw [whole, all]⟩
    rw [List.flatMap_append, List.flatMap_singleton, fileLines_linesText lines, text, List.foldlM_append, done]
    exact ends
  · have closed : ∀ item ∈ list, ∀ user, item.fixedUser = some user -> leavesOpen true user = false := by
      intro item member user fixed
      obtain ⟨front, behind, rfl⟩ := List.append_of_mem member
      cases opens : leavesOpen true user with
      | false => rfl
      | true =>
        obtain ⟨rfl, -⟩ := back.closed front item behind user rfl fixed opens
        exact absurd ⟨front, item, user, rfl, fixed, opens⟩ open_
    obtain ⟨words, lines, reads⟩ := @items_read services (parseAuthconfFile services files confpath depth) list fromFile
      back.items closed back.defaults
    obtain ⟨after, done, _, all⟩ := reads (freed fixedUsername) rfl apart fun _ _ _ => ⟨rfl, rfl⟩
    refine ⟨after, ?_, all⟩
    rw [<- List.append_nil (list.flatMap AuthconfItem.lines), fileLines_linesText lines]
    exact (congrArg (List.foldlM _ _) (List.append_nil words)).trans done

end Lists

end Nut.Nutauth
