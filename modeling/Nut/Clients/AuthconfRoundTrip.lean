import Nut.Clients.AuthconfReread
import Nut.Common.ParseConfSingle

set_option autoImplicit false

namespace Nut.Nutauth

section Headers

def bareWord : CString -> CString
  | [] => []
  | 92 :: b :: rest => b :: bareWord rest
  | b :: rest => if b = 32 ∨ b = 35 ∨ b = 61 ∨ b = 92 then [] else b :: bareWord rest

variable {text title word : CString} {words : List CString}

theorem bareWord_sublist (text : CString) : (bareWord text).Sublist text := by
  fun_induction bareWord text with
  | case1 => exact List.Sublist.slnil
  | case2 b rest ih => exact (ih.cons_cons b).cons 92
  | case3 b rest _ _ => exact List.nil_sublist _
  | case4 b rest _ _ ih => exact ih.cons_cons b

theorem bareWord_bare (bare : ∀ b ∈ text, isBare b = true) : bareWord text = text := by
  fun_induction bareWord text with
  | case1 => rfl
  | case2 b rest ih => exact absurd rfl (isBare_iff.mp (bare 92 List.mem_cons_self)).2.2.2.2
  | case3 b rest _ special =>
    obtain ⟨_, space, hash, equals, escape⟩ := isBare_iff.mp (bare b List.mem_cons_self)
    simp [space, hash, equals, escape] at special
  | case4 b rest _ _ ih => rw [ih fun c member => bare c (List.mem_cons_of_mem b member)]

theorem bareWord_loses (isText : ∀ b ∈ text, isText b = true) :
    (∀ b ∈ text, isBare b = true) ∨ ∃ b ∈ ([32, 35, 61, 92] : CString), (bareWord text).count b < text.count b := by
  fun_induction bareWord text with
  | case1 => exact .inl fun b member => by cases member
  | case2 b rest ih =>
    refine .inr ⟨92, by decide, ?_⟩
    have counts := (bareWord_sublist rest).count_le 92
    rw [List.count_cons, List.count_cons_self, List.count_cons]
    omega
  | case3 b rest _ special =>
    refine .inr ⟨b, by simpa using special, ?_⟩
    rw [List.count_nil, List.count_cons_self]
    omega
  | case4 b rest _ special ih =>
    rcases ih fun c member => isText c (List.mem_cons_of_mem b member) with bare | ⟨c, lost, fewer⟩
    · simp only [not_or] at special
      have here : isBare b = true := isBare_iff.mpr ⟨isText b List.mem_cons_self, special⟩
      exact .inl (List.forall_mem_cons.mpr ⟨here, bare⟩)
    · refine .inr ⟨c, lost, ?_⟩
      rw [List.count_cons, List.count_cons]
      omega

theorem bareWord_read (isText : ∀ b ∈ text, isText b = true) (ends : text.getLast? ≠ some 92) (word : CString) :
    [clip 512 (word ++ bareWord text)] <+: (runChars ⟨.collect, [], clip 512 word, 32, 512⟩ (text ++ [10])).arglist := by
  fun_induction bareWord text generalizing word with
  | case1 =>
    rw [List.append_nil, List.nil_append, runChars_cons, collect_newline]
    exact List.prefix_refl _
  | case2 b rest ih =>
    have later := ih (fun c member => isText c (List.mem_cons_of_mem _ (List.mem_cons_of_mem _ member))) (by
      cases rest with
      | nil => simp
      | cons c rest => simpa using ends) (word ++ [b])
    have literal := collectliteral_text [] word 32 512 (isText b (by simp))
    rw [List.cons_append, List.cons_append, runChars_cons, runChars_cons, collect_escape, literal]
    rwa [List.append_assoc] at later
  | case3 b rest notPair special =>
    have room : ([] : List CString).length < 32 := by decide
    rw [List.append_nil, List.cons_append, runChars_cons]
    refine List.IsPrefix.trans ?_ (grows_runChars _ (rest ++ [10])).args
    rcases special with rfl | rfl | rfl | rfl
    · rw [collect_space]
      exact List.prefix_refl _
    · exact collect_ends room _ (.inr (.inl rfl))
    · exact collect_ends room _ (.inr (.inr rfl))
    · cases rest with
      | nil => exact absurd rfl ends
      | cons c rest => exact absurd rfl (notPair c rest rfl)
  | case4 b rest _ special ih =>
    simp only [not_or] at special
    have bare : isBare b = true := isBare_iff.mpr ⟨isText b List.mem_cons_self, special⟩
    have later := ih (fun c member => isText c (List.mem_cons_of_mem _ member)) (by
      cases rest with
      | nil => simp
      | cons c rest => simpa using ends) (word ++ [b])
    rw [List.cons_append, runChars_cons, collect_raw [] word 32 512 bare]
    rwa [List.append_assoc] at later

theorem isText_closed (isText : ∀ b ∈ title, isText b = true) : ∀ b ∈ title ++ [93], Nut.isText b = true := by
  intro b member
  rcases List.mem_append.mp member with inside | last
  · exact isText b inside
  · rw [List.mem_singleton.mp last]
    rfl

theorem header_word (isText : ∀ b ∈ title, isText b = true)
    (lineIs : LineIs (runChars (pconfInitWith 32 512) (91 :: title ++ [93] ++ [10])) words) :
    ∃ more, words = clip 512 (91 :: bareWord (title ++ [93])) :: more := by
  have opened : parseChar (pconfInitWith 32 512) (charToInt 91) = ⟨.collect, [], clip 512 [91], 32, 512⟩ := by
    decide
  have read := bareWord_read (isText_closed isText) (by simp) [91]
  have args := lineIs.goesOn.args
  rw [List.cons_append, List.cons_append, runChars_cons, opened] at args
  obtain ⟨more, same⟩ := read.trans args
  exact ⟨more, same.symm⟩

theorem oneWord_of_header (isText : ∀ b ∈ title, isText b = true)
    (header : isHeader (clip 512 (91 :: bareWord (title ++ [93]))) = true) (keeps : ∀ b, isAdded b = false ->
      title.count b ≤ ((clip 512 (91 :: bareWord (title ++ [93]))).tail.dropLast).count b) : OneWord title := by
  have clipped (word : CString) : clip 512 (91 :: word) = 91 :: word.take 511 := rfl
  rw [clipped, List.tail_cons] at keeps
  rcases bareWord_loses (isText_closed isText) with bare | ⟨b, lost, fewer⟩
  · refine ⟨?_, fun b member => bare b (List.mem_append_left _ member)⟩
    by_contra long
    have inside : 510 < title.length := by omega
    have cut : title.take 511 = title.take 510 ++ [title[510]] := by
      rw [List.take_add_one, List.getElem?_eq_getElem inside]
      rfl
    have ends : title.take 511 = title.take 510 ++ [93] := by
      rw [clipped, bareWord_bare bare, List.take_append_of_le_length (by omega), cut, <- List.cons_append] at header
      have last := (of_decide_eq_true header).2
      rw [List.getLast?_concat, Option.some.injEq] at last
      rw [cut, last]
    rw [bareWord_bare bare, List.take_append_of_le_length (by omega), ends, List.dropLast_concat] at keeps
    have fewer := keeps 93 (by decide)
    have part := (List.take_sublist 511 title).count_le 93
    rw [ends, List.count_append, List.count_singleton_self] at part
    omega
  · have added : isAdded b = false ∧ b ≠ 93 := by
      simp only [List.mem_cons, List.not_mem_nil, or_false] at lost
      rcases lost with rfl | rfl | rfl | rfl <;> decide
    have kept := keeps b added.1
    have cut : (((bareWord (title ++ [93])).take 511).dropLast).Sublist (bareWord (title ++ [93])) :=
      (List.dropLast_sublist _).trans (List.take_sublist 511 _)
    have part := cut.count_le b
    rw [List.count_append, List.count_singleton, if_neg (by simpa using added.2.symm)] at fewer
    omega

end Headers

section Strings

variable {args words : List CString} {text word val : CString}

theorem goesOn_word {state : PconfState} (room : args.length < 32) {more : CString}
    (goesOn : GoesOn (runChars ⟨state, args, clip 512 text, 32, 512⟩ more) words)
    (place : words[args.length]? = some word) (short : text.length ≤ 512) : text <+: word := by
  have begun := (GoesOn.before (grows_runChars _ more) goesOn).next room word place
  rwa [clip_fits short] at begun

theorem goesOn_ended (room : args.length < 32) {more : CString}
    (goesOn : GoesOn (runChars ⟨.findwordstart, addArg 32 args text, [], 32, 512⟩ more) words)
    (place : words[args.length]? = some word) : word = text := by
  have ended := (GoesOn.before (grows_runChars _ more) goesOn).args
  rw [addArg_fits text room] at ended
  rw [getElem?_begins ended, Option.some.injEq] at place
  exact place.symm

theorem goesOn_next {state : PconfState} {b : UInt8} {behind : CString} (room : args.length < 32) {more : CString}
    (goesOn : GoesOn (runChars ⟨state, args, clip 512 (text ++ [b]), 32, 512⟩ more) words)
    (place : words[args.length]? = some (text ++ behind)) (short : (text ++ [b]).length ≤ 512) : behind.head? = some b := by
  have begun := goesOn_word room goesOn place short
  rw [List.prefix_append_right_inj] at begun
  obtain ⟨rest, rfl⟩ := begun
  rfl

theorem escapes_head {escapes : Nat} {b c : UInt8} {rest : CString}
    (next : (List.replicate escapes 92 ++ b :: rest).head? = some c) : escapes = 0 ∧ c = b ∨ 0 < escapes ∧ c = 92 := by
  cases escapes with
  | zero => exact .inl ⟨rfl, (Option.some.inj next).symm⟩
  | succ escapes =>
    rw [List.replicate_succ, List.cons_append, List.head?_cons, Option.some.injEq] at next
    exact .inr ⟨Nat.succ_pos escapes, next.symm⟩

theorem quoted_back (isText : ∀ b ∈ text, isText b = true) (room : args.length < 32) {escapes : Nat}
    (goesOn : GoesOn (runChars ⟨.quotecollect, args, clip 512 word, 32, 512⟩ (text ++ [34, 10])) words)
    (place : words[args.length]? = some (word ++ (List.replicate escapes 92 ++ text)))
    (short : word.length + escapes + text.length ≤ 512) : escapes = 0 ∧ ∀ b ∈ text, b ≠ 34 ∧ b ≠ 92 := by
  induction text using quoteThenBlank.induct generalizing word escapes with
  | case1 =>
    rw [List.nil_append, runChars_cons, quotecollect_quote] at goesOn
    have same := goesOn_ended room goesOn place
    rw [clip_fits (by omega), List.append_right_eq_self, List.append_nil, List.replicate_eq_nil_iff] at same
    exact ⟨same, fun b member => by cases member⟩
  | case2 b rest ih =>
    have literal := qcLiteral_text args word 32 512 (isText b (by simp))
    rw [List.length_cons, List.length_cons] at short
    rw [List.cons_append, List.cons_append, runChars_cons, runChars_cons, quotecollect_escape, literal] at goesOn
    have next := goesOn_next room goesOn place (by rw [List.length_append, List.length_singleton]; omega)
    obtain rfl : b = 92 := by
      rcases escapes_head next with ⟨_, same⟩ | ⟨_, same⟩ <;> exact same
    have behind : word ++ (List.replicate escapes 92 ++ 92 :: 92 :: rest) =
        word ++ [92] ++ (List.replicate (escapes + 1) 92 ++ rest) := by
      have moved (n : Nat) (tail : CString) : List.replicate n 92 ++ 92 :: tail = List.replicate (n + 1) 92 ++ tail := by
        rw [List.replicate_succ', List.append_assoc, List.singleton_append]
      rw [moved, moved, List.append_assoc, List.singleton_append, <- List.cons_append, <- List.replicate_succ]
    have later := ih (fun c member => isText c (by simp [member])) goesOn (by rw [<- behind]; exact place)
      (by rw [List.length_append, List.length_singleton]; omega)
    exact absurd later.1 (by omega)
  | case3 rest notPair =>
    rw [List.cons_append, runChars_cons, quotecollect_quote] at goesOn
    rw [List.length_cons] at short
    have same := goesOn_ended room goesOn place
    rw [clip_fits (by omega), List.append_right_eq_self] at same
    simp at same
  | case4 b rest notPair quote ih =>
    rw [List.length_cons] at short
    rw [List.cons_append, runChars_cons] at goesOn
    by_cases escape : b = 92
    · subst escape
      obtain rfl : rest = [] := by
        cases rest with
        | nil => rfl
        | cons c rest => exact absurd rfl (notPair c rest rfl)
      have literal := qcLiteral_text args word 32 512 (show Nut.isText 34 = true from rfl)
      rw [quotecollect_escape, List.nil_append, runChars_cons, literal] at goesOn
      have next := goesOn_next room goesOn place (by rw [List.length_append, List.length_singleton]; omega)
      rcases escapes_head next with ⟨_, same⟩ | ⟨_, same⟩ <;> cases same
    · rw [quotecollect_raw args word 32 512 (isText b List.mem_cons_self) quote escape] at goesOn
      have next := goesOn_next room goesOn place (by rw [List.length_append, List.length_singleton]; omega)
      obtain rfl : escapes = 0 := by
        rcases escapes_head next with ⟨none_, _⟩ | ⟨_, same⟩
        · exact none_
        · exact absurd same escape
      have behind : word ++ (List.replicate 0 92 ++ b :: rest) = word ++ [b] ++ (List.replicate 0 92 ++ rest) := by simp
      have later := ih (fun c member => isText c (List.mem_cons_of_mem b member)) goesOn (by rw [<- behind]; exact place)
        (by rw [List.length_append, List.length_singleton]; omega)
      exact ⟨rfl, List.forall_mem_cons.mpr ⟨⟨quote, escape⟩, later.2⟩⟩

theorem string_back {indent var : CString} (indented : indent ∈ indents) (named : var ∈ settingNames)
    (accepted : Acceptable pconfDefaultWordlenLimit val)
    (lineIs : LineIs (runChars (pconfInitWith 32 512) ((stringSetting var val).line indent ++ [10])) (var :: [61] :: words))
    (assigns : assigned ([61] :: words) = some val) : Plain val := by
  have short : val.length ≤ 512 := accepted.1 (by decide)
  have place : (var :: [61] :: words)[[var, [61]].length]? = some val := by
    cases words with
    | nil => cases assigns
    | cons word words =>
      obtain rfl : word = val := Option.some.inj assigns
      rfl
  have line : (stringSetting var val).line indent ++ [10] = indent ++ var ++ cstr " = " ++ (34 :: (val ++ [34, 10])) := by
    simp [Setting.line, stringSetting]
  have goesOn := lineIs.goesOn
  have opened := @findwordstart_quote [var, [61]] [] 32 512
  rw [line, runChars_setting indented named, runChars_cons, opened] at goesOn
  obtain ⟨-, unquoted⟩ := @quoted_back _ _ val [] accepted.2 (by simp) 0 goesOn place (by simpa using short)
  exact fun b member => ⟨accepted.2 b member, unquoted b member⟩

end Strings

variable {services : Services} {parseInclude : CString -> Bool -> Bool -> Authconf -> Except Stop Authconf} {st after : Authconf}

section Lines

def Authconf.titles (st : Authconf) : List CString :=
  st.list.filterMap (·.section_)

theorem modify_titles (list : List AuthconfItem) (place : Nat) (flag : Bool) (var : CString) (val : Option CString) :
    (list.modify place (setAuthconfVal flag var val)).filterMap (·.section_) = list.filterMap (·.section_) := by
  induction list generalizing place with
  | nil => rw [List.modify_nil]
  | cons item list ih =>
    cases place with
    | zero => rw [List.modify_zero_cons, List.filterMap_cons, List.filterMap_cons, setAuthconfVal_section]
    | succ place => rw [List.modify_succ_cons, List.filterMap_cons, List.filterMap_cons, ih]

theorem setVal_titles (var : CString) (val : Option CString) (st : Authconf) :
    (st.setVal var val).titles = st.titles ∧ (st.setVal var val).currentSectionIgnored = st.currentSectionIgnored := by
  unfold Authconf.setVal Authconf.titles
  split
  next => exact ⟨modify_titles _ _ _ _ _, rfl⟩
  next =>
    unfold Authconf.editDefaults
    split
    next => exact ⟨modify_titles _ _ _ _ _, rfl⟩
    next =>
      refine ⟨(modify_titles _ _ _ _ _).trans ?_, rfl⟩
      rw [List.filterMap_append, List.filterMap_cons_none rfl, List.filterMap_nil, List.append_nil]

theorem enter_titles {sectName : CString} (entered : enterSection services true sectName st = .ok after) :
    after.currentSectionIgnored = st.currentSectionIgnored ∧ (after.titles = st.titles ∨
      ∃ parts user, splitAuthconfSection services sectName = some (parts, user) ∧ after.titles = st.titles ++ [parts.title]) := by
  unfold enterSection at entered
  split at entered
  next => cases entered
  next parts user accepted =>
    dsimp only at entered
    rw [Bool.not_true, Bool.false_and, if_neg Bool.false_ne_true] at entered
    split at entered
    next =>
      cases entered
      exact ⟨rfl, .inl rfl⟩
    next =>
      cases entered
      refine ⟨rfl, .inr ⟨parts, user, accepted, ?_⟩⟩
      unfold Authconf.titles
      rw [List.filterMap_append]
      rfl

theorem bracket_line (heeds : st.currentSectionIgnored = false) {var : CString} {rest : List CString} (bracket : var.head? = some 91)
    (handled : handleAuthconfArgs services parseInclude true st (var :: rest) = .ok after) :
    after.currentSectionIgnored = false ∧ (after.titles = st.titles ∨ isHeader var = true ∧
      ∃ parts user, splitAuthconfSection services var.tail.dropLast = some (parts, user) ∧
        after.titles = st.titles ++ [parts.title]) := by
  obtain ⟨name, rfl⟩ : ∃ name, var = 91 :: name := by
    cases var with
    | nil => cases bracket
    | cons b name => exact ⟨name, by rw [Option.some.inj bracket]⟩
  have list := (@finishSection_list services st).1
  unfold handleAuthconfArgs at handled
  dsimp only at handled
  split at handled
  next bracketed =>
    have header : isHeader (91 :: name) = true := decide_eq_true bracketed
    rw [if_neg (isHeader_bracketed header)] at handled
    obtain ⟨heeds_, titles⟩ := enter_titles handled
    unfold Authconf.titles at *
    rw [list] at titles
    exact ⟨heeds_, titles.imp_right fun added => ⟨header, added⟩⟩
  next =>
    have required : strcasecmp (91 :: name) (cstr "INCLUDE_REQUIRED") ≠ .eq := by
      intro same
      cases same
    have included : strcasecmp (91 :: name) (cstr "INCLUDE") ≠ .eq := by
      intro same
      cases same
    rw [heeds, if_neg Bool.false_ne_true, if_neg required, if_neg included] at handled
    cases handled
    exact ⟨(setVal_titles _ _ st).2.trans heeds, .inl (setVal_titles _ _ st).1⟩

def isHeading (line : CString) : Bool :=
  line.head? = some 91

inductive Printed : CString -> Prop where
  | heading {title : CString} (isText : ∀ b ∈ title, isText b = true) : Printed (91 :: title ++ [93])
  | setting {indent : CString} {setting : Setting} (indented : indent ∈ indents) (named : setting.var ∈ settingNames) :
      Printed (setting.line indent)

theorem setting_words {indent : CString} {setting : Setting} {words : List CString} (indented : indent ∈ indents)
    (named : setting.var ∈ settingNames)
    (lineIs : LineIs (runChars (pconfInitWith 32 512) (setting.line indent ++ [10])) words) :
    ∃ more, words = setting.var :: [61] :: more := by
  have args := lineIs.goesOn.args
  rw [Setting.line, List.append_assoc, runChars_setting indented named] at args
  obtain ⟨more, same⟩ := (grows_runChars _ _).args.trans args
  exact ⟨more, same.symm⟩

theorem setting_notHeading : ∀ indent ∈ indents, ∀ var ∈ settingNames, ∀ written : CString,
    isHeading (indent ++ var ++ cstr " = " ++ written) = false := by
  intro indent indented var named written
  obtain ⟨-, -, begins⟩ := setting_begins indent indented var named
  obtain ⟨b, head, other⟩ := Option.any_eq_true _ _ |>.mp begins
  rw [isHeading, List.append_assoc, List.head?_append, head]
  simpa using other

variable {lines : List CString} {read : List (List CString)}

theorem lines_titles (heeds : st.currentSectionIgnored = false) (printed : ∀ line ∈ lines, Printed line)
    (begun : Begun 32 512 lines read) (done : read.foldlM (handleAuthconfArgs services parseInclude true) st = .ok after) :
    st.titles <+: after.titles ∧ after.titles.length ≤ st.titles.length + lines.countP isHeading := by
  induction begun generalizing st with
  | nil =>
    cases done
    exact ⟨List.prefix_refl _, Nat.le_refl _⟩
  | @within line lines rest later ih =>
    obtain ⟨titles, few⟩ := ih heeds (fun other member => printed other (List.mem_cons_of_mem line member)) done
    refine ⟨titles, ?_⟩
    rw [List.countP_cons]
    omega
  | @read line lines words rest lineIs later ih =>
    rw [List.foldlM_cons] at done
    obtain ⟨next, handled, done⟩ := bind_eq_ok.mp done
    have onward := fun heeds => @ih next heeds (fun other member => printed other (List.mem_cons_of_mem line member)) done
    rw [List.countP_cons]
    cases printed line List.mem_cons_self with
    | @heading title isText =>
      obtain ⟨more, rfl⟩ := header_word isText lineIs
      obtain ⟨heeds, step⟩ := bracket_line heeds rfl handled
      obtain ⟨titles, few⟩ := onward heeds
      have heading : isHeading (91 :: title ++ [93]) = true := rfl
      rw [if_pos heading]
      rcases step with same | ⟨_, parts, user, _, added⟩
      · rw [same] at titles few
        exact ⟨titles, by omega⟩
      · rw [added] at titles few
        rw [List.length_append, List.length_singleton] at few
        exact ⟨(List.prefix_append _ _).trans titles, by omega⟩
    | @setting indent setting indented named =>
      obtain ⟨more, rfl⟩ := setting_words indented named lineIs
      rw [handle_setting heeds named] at handled
      cases handled
      obtain ⟨same, still⟩ := setVal_titles setting.var (assigned ([61] :: more)) st
      obtain ⟨titles, few⟩ := onward (still.trans heeds)
      rw [same] at titles few
      exact ⟨titles, by omega⟩

theorem Edits.titled {flag : Bool} {front : List AuthconfItem} {item : AuthconfItem} (edits : Edits flag front item st)
    (titled : item.section_ ≠ none) : st.list = front ++ [item] := by
  rcases edits.place with ⟨list, _⟩ | ⟨_, _, _, rfl⟩
  · exact list
  · exact absurd rfl titled

theorem whole_words {line : CString} {words words' : List CString} (whole : WholeLine 32 512 line words)
    (lineIs : LineIs (runChars (pconfInitWith 32 512) (line ++ [10])) words') : words' = words := by
  have done : lineDone ⟨.endofline, words, [], 32, 512⟩ = true := rfl
  rw [whole.2, LineIs, if_pos done] at lineIs
  exact lineIs

theorem header_first {title : CString} (keeps : KeepsTitle services title) (isText : ∀ b ∈ title, isText b = true)
    (heeds : st.currentSectionIgnored = false) (printed : ∀ line ∈ lines, Printed line)
    (begun : Begun 32 512 ((91 :: title ++ [93]) :: lines) read)
    (done : read.foldlM (handleAuthconfArgs services parseInclude true) st = .ok after)
    (full : st.titles.length + lines.countP isHeading < after.titles.length)
    (next : after.titles[st.titles.length]? = some title) (new : ∀ other ∈ st.list, other.section_ ≠ some title) :
    OneWord title ∧ ∃ rest entered,
      Edits (titleUser title).isSome st.list { createAuthconfItem (some title) with user := titleUser title } entered ∧
      Begun 32 512 lines rest ∧ rest.foldlM (handleAuthconfArgs services parseInclude true) entered = .ok after := by
  cases begun with
  | within later =>
    have few := (lines_titles heeds printed later done).2
    omega
  | @read _ _ words rest lineIs later =>
    rw [List.foldlM_cons] at done
    obtain ⟨entered, handled, onward⟩ := bind_eq_ok.mp done
    obtain ⟨more, rfl⟩ := header_word isText lineIs
    obtain ⟨heeds_, step⟩ := bracket_line heeds rfl handled
    obtain ⟨titles, few⟩ := lines_titles heeds_ printed later onward
    rcases step with same | ⟨header, parts, user, accepted, added⟩
    · rw [same] at few
      omega
    · rw [added] at titles
      rw [getElem?_begins titles, Option.some.injEq] at next
      subst next
      have oneWord := oneWord_of_header isText header fun b own => split_count accepted own
      obtain ⟨entered_, enters, edits⟩ := @header_enters services parseInclude st _ keeps new
      rw [whole_words (header_whole oneWord) lineIs, enters] at handled
      cases handled
      exact ⟨oneWord, rest, entered, edits, later, onward⟩

section Settings

variable {flag : Bool} {front : List AuthconfItem} {item item' : AuthconfItem} {var : CString}

theorem set_strings (named : var ∈ settingNames) (val : Option CString) :
    ∀ string ∈ (setAuthconfVal flag var val item).strings, string ∈ item.strings ∨ string = (var, val) := by
  have same : ∀ string ∈ item.strings, string ∈ item.strings ∨ string = (var, val) := fun string member => .inl member
  simp only [settingNames, List.mem_cons, List.not_mem_nil, or_false] at named
  rcases named with rfl | rfl | rfl | rfl | rfl | rfl | rfl | rfl | rfl | rfl
  · rw [setAuthconfVal_user]
    split
    · exact same
    · simp [AuthconfItem.strings]
  · rw [set_pass]
    simp [AuthconfItem.strings]
  · rw [set_certpath]
    simp [AuthconfItem.strings]
  · rw [set_certfile]
    simp [AuthconfItem.strings]
  · rw [set_certident]
    simp [AuthconfItem.strings]
  · rw [set_certpasswd]
    simp [AuthconfItem.strings]
  · rw [set_sslBackend]
    simp [AuthconfItem.strings]
  · rw [set_certhost]
    simp [AuthconfItem.strings]
  · rw [set_certverify]
    exact same
  · rw [set_forcessl]
    exact same

theorem settingNames_nodup : settingNames.Nodup := by decide

theorem strings_named {string other : CString × Option CString} (member : string ∈ item.strings) (member' : other ∈ item.strings)
    (same : string.1 = other.1) : string = other := by
  have names : (item.strings.map Prod.fst).Nodup := (List.take_sublist 8 settingNames).nodup settingNames_nodup
  exact List.inj_on_of_nodup_map names member member' same

theorem set_keepsUser (named : var ∈ settingNames) (user : item.user ≠ none) (val : Option CString) :
    (setAuthconfVal true var val item).user = item.user := by
  by_cases isUser : var = cstr "USER"
  · rw [isUser, set_fixedUser val item user]
  · have own (item : AuthconfItem) : (cstr "USER", item.user) ∈ item.strings := List.mem_cons_self
    rcases set_strings named val _ (own _) with inside | same
    · exact congrArg Prod.snd (strings_named inside (own item) rfl)
    · exact absurd (congrArg Prod.fst same).symm isUser

structure Gathers (flag : Bool) (indent : CString) (settings : List Setting) (item item' : AuthconfItem) : Prop where
  section_ : item'.section_ = item.section_
  user : flag = true -> item.user ≠ none -> item'.user = item.user
  strings : ∀ string ∈ item'.strings, ∀ val, string.2 = some val -> string ∈ item.strings ∨
    ∃ setting ∈ settings, setting.var = string.1 ∧ ∃ words,
      LineIs (runChars (pconfInitWith 32 512) (setting.line indent ++ [10])) (setting.var :: [61] :: words) ∧
        assigned ([61] :: words) = some val

theorem gathers_settings {indent : CString} {settings : List Setting} (edits : Edits flag front item st)
    (indented : indent ∈ indents) (named : ∀ setting ∈ settings, setting.var ∈ settingNames)
    (begun : Begun 32 512 (settings.map (Setting.line indent)) read)
    (done : read.foldlM (handleAuthconfArgs services parseInclude true) st = .ok after) :
    ∃ item', Edits flag front item' after ∧ Gathers flag indent settings item item' := by
  induction settings generalizing st item read with
  | nil =>
    cases begun
    cases done
    exact ⟨item, edits, rfl, fun _ _ => rfl, fun string member _ _ => .inl member⟩
  | cons setting settings ih =>
    have others := fun other member => named other (List.mem_cons_of_mem setting member)
    rw [List.map_cons] at begun
    cases begun with
    | within later =>
      obtain ⟨item', edits, gathers⟩ := ih edits others later done
      refine ⟨item', edits, gathers.section_, gathers.user, fun string member val set => ?_⟩
      refine (gathers.strings string member val set).imp_right ?_
      rintro ⟨other, inside, rest⟩
      exact ⟨other, List.mem_cons_of_mem setting inside, rest⟩
    | @read _ _ words rest lineIs later =>
      have here := named setting List.mem_cons_self
      obtain ⟨more, rfl⟩ := setting_words indented here lineIs
      rw [List.foldlM_cons] at done
      obtain ⟨next, handled, onward⟩ := bind_eq_ok.mp done
      rw [handle_setting edits.heeds here] at handled
      cases handled
      obtain ⟨now, _⟩ := edits.setVal setting.var (assigned ([61] :: more))
      obtain ⟨item', edits, gathers⟩ := ih now others later onward
      refine ⟨item', edits, ?_, ?_, ?_⟩
      · rw [gathers.section_, setAuthconfVal_section]
      · rintro rfl user
        have kept := @set_keepsUser item _ here user (assigned ([61] :: more))
        rw [gathers.user rfl (by rw [kept]; exact user), kept]
      · intro string member val set
        rcases gathers.strings string member val set with inside | ⟨other, inside, rest⟩
        · rcases set_strings here _ string inside with before | rfl
          · exact .inl before
          · exact .inr ⟨setting, List.mem_cons_self, rfl, more, lineIs, set⟩
        · exact .inr ⟨other, List.mem_cons_of_mem setting inside, rest⟩

end Settings

end Lines

section Items

variable {item : AuthconfItem} {items : List AuthconfItem} {read : List (List CString)}

theorem written_named : ∀ setting ∈ item.written, setting.var ∈ settingNames := by
  have names : ∀ var ∈ item.strings.map Prod.fst, var ∈ settingNames := fun var member => List.mem_append_left _ member
  intro setting member
  rcases settings_mem member with ⟨string, inside, val, _, rfl⟩ | rfl | rfl
  · exact names _ (List.mem_map_of_mem inside)
  · exact switches_named.1
  · exact switches_named.2

theorem header_some (fromFile : FromFile services item) {title : CString} (titled : item.section_ = some title) :
    item.header = some title := by
  have some_ := keepsTitle_nonempty (fromFile.title title titled).1
  rw [AuthconfItem.header, titled, Option.filter_some, if_pos (by simpa using some_)]

theorem header_none (untitled : item.section_ = none) : item.header = none := by
  rw [AuthconfItem.header, untitled, Option.filter_none]

theorem lines_titled (fromFile : FromFile services item) {title : CString} (titled : item.section_ = some title) :
    item.lines = (91 :: title ++ [93]) :: item.written.map (Setting.line item.indent) := by
  rw [AuthconfItem.lines, header_some fromFile titled]
  rfl

theorem lines_untitled (untitled : item.section_ = none) : item.lines = item.written.map (Setting.line item.indent) := by
  rw [AuthconfItem.lines, header_none untitled]
  rfl

theorem written_printed : ∀ line ∈ item.written.map (Setting.line item.indent), Printed line ∧ isHeading line = false := by
  intro line member
  obtain ⟨setting, inside, rfl⟩ := List.mem_map.mp member
  have named := written_named setting inside
  exact ⟨.setting (indent_mem item) named, setting_notHeading _ (indent_mem item) _ named _⟩

theorem items_printed (fromFile : ∀ item ∈ items, FromFile services item) :
    (∀ line ∈ items.flatMap AuthconfItem.lines, Printed line) ∧
      (items.flatMap AuthconfItem.lines).countP isHeading = (items.filterMap (·.section_)).length := by
  induction items with
  | nil => exact ⟨fun line member => absurd member List.not_mem_nil, rfl⟩
  | cons item items ih =>
    obtain ⟨here, later⟩ := List.forall_mem_cons.mp fromFile
    obtain ⟨printed, headings⟩ := ih later
    have own : (item.written.map (Setting.line item.indent)).countP isHeading = 0 :=
      List.countP_eq_zero.mpr fun line member => by simp [(written_printed line member).2]
    rw [List.flatMap_cons, List.countP_append, headings]
    cases titled : item.section_ with
    | none =>
      have titles : (item :: items).filterMap (·.section_) = items.filterMap (·.section_) := List.filterMap_cons_none titled
      rw [lines_untitled titled, own, titles, Nat.zero_add]
      refine ⟨fun line member => ?_, rfl⟩
      rcases List.mem_append.mp member with inside | behind
      · exact (written_printed line inside).1
      · exact printed line behind
    | some title =>
      have heading : isHeading (91 :: title ++ [93]) = true := rfl
      have titles : (item :: items).filterMap (·.section_) = title :: items.filterMap (·.section_) :=
        List.filterMap_cons_some titled
      rw [lines_titled here titled, List.countP_cons_of_pos heading, own, titles, List.length_cons]
      refine ⟨fun line member => ?_, by omega⟩
      rcases List.mem_append.mp member with inside | behind
      · rcases List.mem_cons.mp inside with rfl | inside
        · exact .heading (here.title title titled).2
        · exact (written_printed line inside).1
      · exact printed line behind

theorem entered_titled {title : CString} (titled : item.section_ = some title) :
    item.entered = { createAuthconfItem (some title) with user := titleUser title } := by
  rw [AuthconfItem.entered, AuthconfItem.fixedUser, titled, Option.bind_some]

theorem item_begun {lines : List CString} {title : CString} (fromFile : FromFile services item) (titled : item.section_ = some title)
    (heeds : st.currentSectionIgnored = false) (printed : ∀ line ∈ lines, Printed line)
    (begun : Begun 32 512 (item.lines ++ lines) read)
    (done : read.foldlM (handleAuthconfArgs services parseInclude true) st = .ok after)
    (full : st.titles.length + lines.countP isHeading < after.titles.length)
    (next : after.titles[st.titles.length]? = some title) (new : title ∉ st.titles) :
    OneWord title ∧ ∃ item' behind rest, Gathers (titleUser title).isSome item.indent item.written item.entered item' ∧
      behind.list = st.list ++ [item'] ∧ Edits (titleUser title).isSome st.list item' behind ∧ Begun 32 512 lines rest ∧
      rest.foldlM (handleAuthconfArgs services parseInclude true) behind = .ok after := by
  obtain ⟨keeps, isText⟩ := fromFile.title title titled
  have own : (item.written.map (Setting.line item.indent)).countP isHeading = 0 :=
    List.countP_eq_zero.mpr fun line member => by simp [(written_printed line member).2]
  have all : ∀ line ∈ item.written.map (Setting.line item.indent) ++ lines, Printed line := by
    intro line member
    rcases List.mem_append.mp member with inside | later
    · exact (written_printed line inside).1
    · exact printed line later
  have absent : ∀ other ∈ st.list, other.section_ ≠ some title := fun other member same =>
    new (List.mem_filterMap.mpr ⟨other, member, same⟩)
  rw [lines_titled fromFile titled, List.cons_append] at begun
  obtain ⟨oneWord, later, entered, edits, begun, onward⟩ := header_first keeps isText heeds all begun done
    (by rw [List.countP_append, own]; omega) next absent
  refine ⟨oneWord, ?_⟩
  obtain ⟨first, second, rfl, here, rest⟩ := begun.split
  rw [List.foldlM_append] at onward
  obtain ⟨behind, settled, onward⟩ := bind_eq_ok.mp onward
  rw [<- entered_titled titled] at edits
  obtain ⟨item', edits, gathers⟩ := gathers_settings edits (indent_mem item) written_named here settled
  have section_ : item'.section_ ≠ none := by
    rw [gathers.section_, entered_titled titled]
    exact Option.some_ne_none title
  exact ⟨item', behind, second, gathers, edits.titled section_, edits, rest, onward⟩

theorem titles_sections {list list' : List AuthconfItem} (same : list.map (·.section_) = list'.map (·.section_)) :
    list.filterMap (·.section_) = list'.filterMap (·.section_) := by
  have titles (list : List AuthconfItem) : list.filterMap (·.section_) = (list.map (·.section_)).filterMap id := by
    rw [List.filterMap_map]
    rfl
  rw [titles, titles, same]

theorem titles_append {title : CString} {list : List AuthconfItem} (listed : st.list = list ++ [item])
    (titled : item.section_ = some title) : st.titles = list.filterMap (·.section_) ++ [title] := by
  rw [Authconf.titles, listed, List.filterMap_append]
  exact congrArg _ (List.filterMap_cons_some titled)

theorem items_begun (fromFile : ∀ item ∈ items, FromFile services item) (heeds : st.currentSectionIgnored = false)
    (ready : (∀ item ∈ items, item.section_ ≠ none) ∨ ∃ flag front item, Edits flag front item st ∧ item.section_ ≠ none)
    (begun : Begun 32 512 (items.flatMap AuthconfItem.lines) read)
    (done : read.foldlM (handleAuthconfArgs services parseInclude true) st = .ok after)
    (titles : after.titles = st.titles ++ items.filterMap (·.section_)) (apart : after.titles.Nodup) :
    after.list.map (·.section_) = st.list.map (·.section_) ++ (items.filterMap (·.section_)).map some ∧
      ((∀ item ∈ items, item.section_ ≠ none) -> st.list <+: after.list) := by
  induction items generalizing st read with
  | nil =>
    rw [List.flatMap_nil] at begun
    cases begun
    cases done
    exact ⟨(List.append_nil _).symm, fun _ => List.prefix_refl _⟩
  | cons item items ih =>
    obtain ⟨own, later⟩ := List.forall_mem_cons.mp fromFile
    rw [List.flatMap_cons] at begun
    cases titled : item.section_ with
    | none =>
      have titles' : (item :: items).filterMap (·.section_) = items.filterMap (·.section_) := List.filterMap_cons_none titled
      rcases ready with all | ⟨flag, front, current, edits, current_⟩
      · exact absurd titled (all item List.mem_cons_self)
      · rw [lines_untitled titled] at begun
        obtain ⟨first, second, rfl, here, rest⟩ := begun.split
        rw [List.foldlM_append] at done
        obtain ⟨behind, settled, onward⟩ := bind_eq_ok.mp done
        obtain ⟨current', edits', gathers⟩ := gathers_settings edits (indent_mem item) written_named here settled
        have section_ : current'.section_ ≠ none := by
          rw [gathers.section_]
          exact current_
        have sections : behind.list.map (·.section_) = st.list.map (·.section_) := by
          rw [edits.titled current_, edits'.titled section_, List.map_append, List.map_append, List.map_singleton,
            List.map_singleton, gathers.section_]
        obtain ⟨all, _⟩ := ih later edits'.heeds (.inr ⟨flag, front, current', edits', section_⟩) rest onward
          (by rw [titles, titles', Authconf.titles, Authconf.titles, titles_sections sections])
        rw [titles', <- sections]
        exact ⟨all, fun all => absurd titled (all item List.mem_cons_self)⟩
    | some title =>
      have titles' : (item :: items).filterMap (·.section_) = title :: items.filterMap (·.section_) :=
        List.filterMap_cons_some titled
      rw [titles'] at titles
      obtain ⟨printed, headings⟩ := items_printed later
      have new : title ∉ st.titles := by
        rw [titles, List.nodup_append] at apart
        exact fun member => apart.2.2 title member title List.mem_cons_self rfl
      have full := congrArg List.length titles
      rw [List.length_append, List.length_cons] at full
      obtain ⟨-, item', behind, rest, gathers, list, edits, begun, onward⟩ := item_begun own titled heeds
         printed begun done (by omega) (by rw [titles]; simp) new
      have section_ : item'.section_ = some title := by
        rw [gathers.section_, entered_titled titled]
        rfl
      obtain ⟨all, extends_⟩ := ih later edits.heeds (.inr ⟨_, _, item', edits, by rw [section_]; simp⟩) begun onward (by
        rw [titles, titles_append list section_, List.append_assoc]
        rfl)
      rw [all, titles', list]
      refine ⟨by simp [section_], fun all => ?_⟩
      rw [list] at extends_
      exact (List.prefix_append _ _).trans (extends_ fun other member => all other (List.mem_cons_of_mem item member))

theorem strings_names : ∀ string ∈ item.strings,
    string.1 ≠ cstr "CERTVERIFY" ∧ string.1 ≠ cstr "FORCESSL" ∧ (string ∈ item.strings.tail -> string.1 ≠ cstr "USER") := by
  have plain : ∀ var ∈ settingNames.take 8, var ≠ cstr "CERTVERIFY" ∧ var ≠ cstr "FORCESSL" := by decide
  have others : ∀ var ∈ (settingNames.take 8).tail, var ≠ cstr "USER" := by decide
  intro string member
  have named : string.1 ∈ settingNames.take 8 := (List.mem_map_of_mem member : string.1 ∈ item.strings.map Prod.fst)
  refine ⟨(plain _ named).1, (plain _ named).2, fun inside => others _ ?_⟩
  exact (List.mem_map_of_mem inside : string.1 ∈ item.strings.tail.map Prod.fst)

theorem written_string {setting : Setting} (written : setting ∈ item.written) {string : CString × Option CString}
    (member : string ∈ item.strings) (var : setting.var = string.1) {val : CString} (set : string.2 = some val) :
    setting = stringSetting string.1 val := by
  obtain ⟨certverify, forcessl, -⟩ := strings_names string member
  rcases settings_mem written with ⟨other, inside, val', set', rfl⟩ | rfl | rfl
  · obtain rfl := strings_named inside member var
    rw [set', Option.some.injEq] at set
    rw [set]
  · exact absurd var.symm certverify
  · exact absurd var.symm forcessl

theorem entered_strings {string : CString × Option CString} (member : string ∈ item.entered.strings) {val : CString}
    (set : string.2 = some val) : string = (cstr "USER", item.fixedUser) := by
  simp only [AuthconfItem.strings, AuthconfItem.entered, createAuthconfItem, List.mem_cons, List.not_mem_nil, or_false] at member
  rcases member with rfl | rfl | rfl | rfl | rfl | rfl | rfl | rfl
  · rfl
  all_goals cases set

theorem entered_free {string : CString × Option CString} (member : string ∈ item.free) {val : CString}
    (set : string.2 = some val) : string ∉ item.entered.strings := by
  intro before
  obtain rfl := entered_strings before set
  have fixed : item.fixedUser.isSome = true := Option.isSome_iff_exists.mpr ⟨val, set⟩
  rw [AuthconfItem.free, if_pos fixed] at member
  exact (strings_names _ (List.mem_of_mem_tail member)).2.2 member rfl

theorem free_strings : ∀ string ∈ item.free, string ∈ item.strings := by
  intro string member
  unfold AuthconfItem.free at member
  split at member
  · exact List.mem_of_mem_tail member
  · exact member

theorem item_back {flag : Bool} (fromFile : FromFile services item) (title : ∀ title, item.section_ = some title -> OneWord title)
    (fixes : item.fixedUser.isSome -> flag = true) (gathers : Gathers flag item.indent item.written item.entered item) :
    ItemReadsBack item where
  title := title
  user := by
    intro user fixed
    have entered : item.entered.user = some user := fixed
    rw [gathers.user (fixes (by rw [fixed]; rfl)) (by rw [entered]; simp), entered]
  free := by
    intro string member val set
    have inside := free_strings string member
    rcases gathers.strings string inside val set with before | ⟨setting, written, var, words, lineIs, assigns⟩
    · exact absurd before (entered_free member set)
    · obtain rfl := written_string written inside var set
      exact string_back (indent_mem item) (written_named _ written) (fromFile.strings string inside val set) lineIs assigns

theorem item_oneLine (fromFile : FromFile services item) : ∀ line ∈ item.lines, ∀ b ∈ line, b ≠ 10 := by
  have quoted {val : CString} (isText : ∀ b ∈ val, isText b = true) : ∀ b ∈ 34 :: val ++ [34], b ≠ 10 := by
    intro b member
    rw [List.mem_append, List.mem_cons, List.mem_singleton] at member
    rcases member with (rfl | inside) | rfl
    · decide
    · exact isText_ne_newline (isText b inside)
    · decide
  have switched {val : Int} (three : val = -1 ∨ val = 0 ∨ val = 1) : ∀ b ∈ printInt val, b ≠ 10 := by
    rcases three with rfl | rfl | rfl <;> decide
  have written : ∀ setting ∈ item.written, ∀ b ∈ setting.written, b ≠ 10 := by
    intro setting member
    rcases settings_mem member with ⟨string, inside, val, set, rfl⟩ | rfl | rfl
    · exact quoted (fromFile.strings string inside val set).2
    · exact switched fromFile.certverify
    · exact switched fromFile.forcessl
  have settings : ∀ line ∈ item.written.map (Setting.line item.indent), ∀ b ∈ line, b ≠ 10 := by
    intro line member b inside
    obtain ⟨setting, there, rfl⟩ := List.mem_map.mp member
    rcases List.mem_append.mp inside with start | behind
    · exact setting_oneLine (indent_mem item) (written_named setting there) b start
    · exact written setting there b behind
  cases titled : item.section_ with
  | none =>
    rw [lines_untitled titled]
    exact settings
  | some title =>
    rw [lines_titled fromFile titled]
    refine List.forall_mem_cons.mpr ⟨fun b member => ?_, settings⟩
    rw [List.mem_append, List.mem_cons, List.mem_singleton] at member
    rcases member with (rfl | inside) | rfl
    · decide
    · exact isText_ne_newline ((fromFile.title title titled).2 b inside)
    · decide

theorem items_oneLine (fromFile : ∀ item ∈ items, FromFile services item) :
    ∀ line ∈ items.flatMap AuthconfItem.lines, ∀ b ∈ line, b ≠ 10 := by
  intro line member
  obtain ⟨item, inside, there⟩ := List.mem_flatMap.mp member
  exact item_oneLine (fromFile item inside) line there

theorem strings_vars (strings : List (CString × Option CString)) :
    ((strings.flatMap fun string => string.2.toList.map (stringSetting string.1)).map Setting.var).Sublist
      (strings.map Prod.fst) := by
  induction strings with
  | nil => exact List.Sublist.slnil
  | cons string strings ih =>
    rw [List.flatMap_cons, List.map_append, List.map_cons]
    cases string.2 with
    | none => exact ih.cons _
    | some val => exact ih.cons_cons _

theorem others_nodup (item : AuthconfItem) : (item.others.map Setting.var).Nodup := by
  refine List.Sublist.nodup ?_ settingNames_nodup.tail
  rw [AuthconfItem.others, List.map_append]
  exact (strings_vars item.strings.tail).append (List.Sublist.refl _)

end Items

section Open

variable {item : AuthconfItem} {items : List AuthconfItem} {lines : List CString}

theorem user_absorbs {ctx : PconfCtx} {front : List AuthconfItem} (edits : Edits true front item st) (user : item.user ≠ none)
    (oneLine : ∀ line ∈ lines, ∀ b ∈ line, b ≠ 10) (underway : Underway 32 512 ctx) (quoted : ctx.state = .quotecollect)
    {words : List CString} (args : ctx.arglist = cstr "USER" :: words)
    (done : (fileLines ctx (linesText lines)).foldlM (handleAuthconfArgs services parseInclude true) st = .ok after) :
    ∃ next read, Edits true front item next ∧ next.list = front ++ [item] ∧ Begun 32 512 lines.tail read ∧
      read.foldlM (handleAuthconfArgs services parseInclude true) next = .ok after := by
  have running : lineDone ctx = false := by
    rw [lineDone, quoted]
    rfl
  rcases (@begun_both 32 512 _ oneLine).2 ctx underway running with ⟨line, read, same, goesOn, begun⟩ | ⟨none_, _⟩
  · obtain ⟨more, rfl⟩ := goesOn.args
    rw [args, List.cons_append] at same
    obtain ⟨next, handled, edits, list⟩ := @Edits.fixedLine services parseInclude _ _ _ edits user (words ++ more)
    rw [same, List.foldlM_cons, handled] at done
    exact ⟨next, read, edits, list, begun, done⟩
  · rw [args] at none_
    cases none_

section Behind

variable {ctx : PconfCtx} {front : List AuthconfItem} {words : List CString}

theorem titles_behind {item' : AuthconfItem} (same : item'.section_ = item.section_) (entered : st.list = front ++ [item'])
    (list : after.list = front ++ item :: items) : after.titles = st.titles ++ items.filterMap (·.section_) := by
  have listed : st.list.map (·.section_) = (front ++ [item]).map (·.section_) := by
    rw [entered, List.map_append, List.map_append, List.map_singleton, List.map_singleton, same]
  have behind : front ++ item :: items = (front ++ [item]) ++ items := by simp
  rw [Authconf.titles, Authconf.titles, titles_sections listed, list, behind, List.filterMap_append]

theorem item_stays {item' : AuthconfItem} {read : List (List CString)} (fromFile : ∀ other ∈ items, FromFile services other)
    (titled : ∀ other ∈ items, other.section_ ≠ none) (heeds : st.currentSectionIgnored = false)
    (same : item'.section_ = item.section_) (entered : st.list = front ++ [item'])
    (begun : Begun 32 512 (items.flatMap AuthconfItem.lines) read)
    (done : read.foldlM (handleAuthconfArgs services parseInclude true) st = .ok after) (apart : after.titles.Nodup)
    (list : after.list = front ++ item :: items) : item' = item := by
  have extends_ := (items_begun fromFile heeds (.inl titled) begun done (titles_behind same entered list) apart).2 titled
  rw [entered, list, List.prefix_append_right_inj, List.cons_prefix_cons] at extends_
  exact extends_.1

theorem open_string (fromFile : ∀ other ∈ item :: items, FromFile services other)
    (titled : ∀ other ∈ item :: items, other.section_ ≠ none) (fixed : item.fixedUser.isSome)
    (edits : Edits true front item.entered st) (apart : after.titles.Nodup)
    (oneLine : ∀ line ∈ item.others.map (Setting.line item.indent) ++ items.flatMap AuthconfItem.lines, ∀ b ∈ line, b ≠ 10)
    (underway : Underway 32 512 ctx) (quoted : ctx.state = .quotecollect) (args : ctx.arglist = cstr "USER" :: words)
    (done : (fileLines ctx (linesText (item.others.map (Setting.line item.indent) ++
      items.flatMap AuthconfItem.lines))).foldlM (handleAuthconfArgs services parseInclude true) st = .ok after)
    (list : after.list = front ++ item :: items) {string : CString × Option CString} (member : string ∈ item.strings.tail)
    {val : CString} {more : List Setting} (others : item.others = stringSetting string.1 val :: more) : string.2 = none := by
  by_contra some_
  obtain ⟨val', set⟩ := Option.ne_none_iff_exists'.mp some_
  have user : item.entered.user ≠ none := Option.isSome_iff_ne_none.mp fixed
  obtain ⟨-, later⟩ := List.forall_mem_cons.mp fromFile
  obtain ⟨entered, titledLater⟩ := List.forall_mem_cons.mp titled
  have apart_ := others_nodup item
  have written := item.written_eq
  have named := @others_named item
  rw [others] at oneLine done apart_ named written
  obtain ⟨next, read, edits, _, begun, onward⟩ := user_absorbs edits user oneLine underway quoted args done
  rw [List.map_cons, List.cons_append, List.tail_cons] at begun
  obtain ⟨first, second, rfl, here, rest⟩ := begun.split
  rw [List.foldlM_append] at onward
  obtain ⟨behind, settled, onward⟩ := bind_eq_ok.mp onward
  obtain ⟨item', edits', gathers⟩ := gathers_settings edits (indent_mem item)
    (fun other inside => named other (List.mem_cons_of_mem _ inside)) here settled
  have section_ : item'.section_ ≠ none := by
    rw [gathers.section_]
    exact entered
  have same : item'.section_ = item.section_ := gathers.section_
  rw [item_stays later titledLater edits'.heeds same (edits'.titled section_) rest onward apart list] at gathers
  have free : string ∈ item.free := by
    rw [AuthconfItem.free, if_pos fixed]
    exact member
  rcases gathers.strings string (List.mem_of_mem_tail member) val' set with before | ⟨setting, inside, var, _⟩
  · exact entered_free free set before
  · rw [List.map_cons, List.nodup_cons] at apart_
    exact apart_.1 (List.mem_map.mpr ⟨setting, inside, var⟩)

theorem open_switches (fromFile : ∀ other ∈ item :: items, FromFile services other)
    (titled : ∀ other ∈ items, other.section_ ≠ none) (fixed : item.fixedUser.isSome)
    (edits : Edits true front item.entered st) (underway : Underway 32 512 ctx) (quoted : ctx.state = .quotecollect)
    (args : ctx.arglist = cstr "USER" :: words)
    (done : (fileLines ctx (linesText (item.others.map (Setting.line item.indent) ++
      items.flatMap AuthconfItem.lines))).foldlM (handleAuthconfArgs services parseInclude true) st = .ok after)
    (list : after.list = front ++ item :: items)
    (others : item.others = [switchSetting (cstr "CERTVERIFY") item.certverify, switchSetting (cstr "FORCESSL") item.forcessl]) :
    items = [] ∧ item = item.entered := by
  have user : item.entered.user ≠ none := Option.isSome_iff_ne_none.mp fixed
  obtain ⟨here, later⟩ := List.forall_mem_cons.mp fromFile
  have three {val : Int} (three : val = -1 ∨ val = 0 ∨ val = 1) : val ∈ [(-1 : Int), 0, 1] := by simpa using three
  have plain := switches_plain _ (indent_mem item) _ (three here.certverify) _ (three here.forcessl)
  rw [others, linesText_append, fileLines_stillQuoted quoted plain] at done
  have still := run_stillQuoted quoted plain
  obtain ⟨next, read, edits, list', begun, onward⟩ := user_absorbs edits user (items_oneLine later) (underway.run _) still.1
    (still.2.trans args) done
  cases items with
  | nil =>
    rw [List.flatMap_nil, List.tail_nil] at begun
    cases begun
    cases onward
    rw [list', List.append_cancel_left_eq, List.cons.injEq] at list
    exact ⟨rfl, list.1.symm⟩
  | cons other items =>
    exfalso
    obtain ⟨title, titled_⟩ := Option.ne_none_iff_exists'.mp (titled other List.mem_cons_self)
    obtain ⟨printed, headings⟩ := items_printed later
    rw [List.flatMap_cons, lines_titled (later other List.mem_cons_self) titled_, List.cons_append] at begun printed headings
    have few := (lines_titles edits.heeds (fun line member => printed line (List.mem_cons_of_mem _ member)) begun onward).2
    have same : item.entered.section_ = item.section_ := rfl
    have heading : isHeading (91 :: title ++ [93]) = true := rfl
    have counted := congrArg List.length (titles_behind same list' list)
    rw [List.length_append, <- headings, List.countP_cons_of_pos heading] at counted
    omega

end Behind

theorem open_last (fromFile : ∀ other ∈ item :: items, FromFile services other)
    (titled : ∀ other ∈ item :: items, other.section_ ≠ none) (back : ItemReadsBack item) {user : CString}
    (fixed : item.fixedUser = some user) (open_ : leavesOpen true user = true) (heeds : st.currentSectionIgnored = false)
    (new : ∀ other ∈ st.list, other.section_ ≠ item.section_) (apart : after.titles.Nodup)
    (done : (fileLines (pconfInitWith 32 512) (linesText ((item :: items).flatMap AuthconfItem.lines))).foldlM
      (handleAuthconfArgs services parseInclude true) st = .ok after) (list : after.list = st.list ++ item :: items) :
    items = [] ∧ item = { createAuthconfItem item.section_ with user := some user } := by
  have here := fromFile item List.mem_cons_self
  obtain ⟨headers, headerLines, entering⟩ := @header_read services parseInclude item here back
  obtain ⟨state, words, args⟩ := (user_line (indent_mem item) (fixedUser_bare back fixed)).2 open_
  obtain ⟨entered, flag, entering, fixes, edits⟩ := entering st heeds new fun none_ =>
    absurd none_ (titled item List.mem_cons_self)
  obtain rfl := fixes (by rw [fixed]; rfl)
  have underway := (@underway_init 32 512).run ((stringSetting (cstr "USER") user).line item.indent ++ [10])
  have oneLine := user_oneLine (indent_mem item) (fixedUser_bare back fixed)
  have all := items_oneLine fromFile
  rw [List.flatMap_cons, lines_user (back.user user fixed), List.append_assoc, List.cons_append] at done all
  rw [fileLines_linesText headerLines, linesText_cons, fileLines_line rfl oneLine,
    if_neg (by rw [lineDone, state]; decide), List.foldlM_append, entering] at done
  generalize runChars (pconfInitWith 32 512) ((stringSetting (cstr "USER") user).line item.indent ++ [10]) = ctx at *
  have rest : ∀ line ∈ item.others.map (Setting.line item.indent) ++ items.flatMap AuthconfItem.lines, ∀ b ∈ line, b ≠ 10 :=
    fun line member => all line (List.mem_append_right _ (List.mem_cons_of_mem _ member))
  have isSome : item.fixedUser.isSome = true := by
    rw [fixed]
    rfl
  rcases strings : item.strings.tail.flatMap fun string => string.2.toList.map (stringSetting string.1) with _ | ⟨setting, more⟩
  · have others : item.others = [switchSetting (cstr "CERTVERIFY") item.certverify, switchSetting (cstr "FORCESSL") item.forcessl] := by
      rw [AuthconfItem.others, strings]
      rfl
    obtain ⟨last, only⟩ := open_switches fromFile (fun other member => titled other (List.mem_cons_of_mem item member)) isSome
      edits underway state args done list others
    refine ⟨last, only.trans ?_⟩
    rw [AuthconfItem.entered, fixed]
  · obtain ⟨string, member, there⟩ := List.mem_flatMap.mp (strings ▸ List.mem_cons_self : setting ∈ _)
    obtain ⟨val, set, rfl⟩ := List.mem_map.mp there
    rw [Option.mem_toList] at set
    have others : item.others = stringSetting string.1 val :: (more ++ item.switches.map fun switch =>
        switchSetting switch.1 switch.2) := by
      rw [AuthconfItem.others, strings]
      rfl
    have unset := open_string fromFile titled isSome edits apart rest underway state args done list member others
    rw [set] at unset
    cases unset

end Open

section Lists

variable {items : List AuthconfItem}

theorem titles_nodup (apart : (after.list.map (·.section_)).Nodup) : after.titles.Nodup := by
  have titles : after.titles = (after.list.map (·.section_)).filterMap id := by
    rw [List.filterMap_map]
    rfl
  rw [titles]
  refine apart.filterMap fun first second title here there => ?_
  exact (Option.mem_def.mp here).trans (Option.mem_def.mp there).symm

theorem ListReadsBack.cons {item : AuthconfItem} (back : ItemReadsBack item)
    (closed : ∀ user, item.fixedUser = some user -> leavesOpen true user = false) (titled : ∀ other ∈ items, other.section_ ≠ none)
    (behind : ListReadsBack items) : ListReadsBack (item :: items) where
  items := List.forall_mem_cons.mpr ⟨back, behind.items⟩
  defaults := titled
  closed := by
    intro front other rest user split fixed opens
    cases front with
    | nil =>
      obtain ⟨rfl, rfl⟩ := List.cons.inj split
      rw [closed user fixed] at opens
      cases opens
    | cons first front =>
      obtain ⟨rfl, rfl⟩ := List.cons.inj split
      exact behind.closed front other rest user rfl fixed opens

theorem items_back (fromFile : ∀ item ∈ items, FromFile services item) (titled : ∀ item ∈ items, item.section_ ≠ none)
    (heeds : st.currentSectionIgnored = false) (apart : (after.list.map (·.section_)).Nodup)
    (done : (fileLines (pconfInitWith 32 512) (linesText (items.flatMap AuthconfItem.lines))).foldlM
      (handleAuthconfArgs services parseInclude true) st = .ok after) (list : after.list = st.list ++ items) :
    ListReadsBack items := by
  induction items generalizing st with
  | nil =>
    constructor
    case items => exact fun item member => absurd member List.not_mem_nil
    case defaults => exact fun item member => absurd member List.not_mem_nil
    case closed => exact fun front item back user split => absurd split.symm (List.append_ne_nil_of_right_ne_nil _ (List.cons_ne_nil _ _))
  | cons item items ih =>
    obtain ⟨here, later⟩ := List.forall_mem_cons.mp fromFile
    obtain ⟨titledHere, titledLater⟩ := List.forall_mem_cons.mp titled
    obtain ⟨title, titled_⟩ := Option.ne_none_iff_exists'.mp titledHere
    have titles : after.titles = st.titles ++ title :: items.filterMap (·.section_) := by
      have cons : (item :: items).filterMap (·.section_) = title :: items.filterMap (·.section_) :=
        List.filterMap_cons_some titled_
      rw [Authconf.titles, list, List.filterMap_append, cons]
      rfl
    have full := congrArg List.length titles
    rw [List.length_append, List.length_cons] at full
    have new : ∀ other ∈ st.list, other.section_ ≠ item.section_ := by
      intro other member same
      rw [list, List.map_append, List.nodup_append] at apart
      exact apart.2.2 _ (List.mem_map_of_mem member) _ (List.mem_map_of_mem List.mem_cons_self) same
    have absent : title ∉ st.titles := by
      intro member
      obtain ⟨other, inside, same⟩ := List.mem_filterMap.mp member
      exact new other inside (same.trans titled_.symm)
    obtain ⟨printed, headings⟩ := items_printed later
    have begun := (@begun_both 32 512 _ (items_oneLine fromFile)).1
    rw [List.flatMap_cons] at begun
    obtain ⟨oneWord, item', behind, read, gathers, entered, edits, begun, onward⟩ := item_begun here titled_ heeds printed begun done
      (by omega) (by rw [titles]; simp) absent
    have same : item'.section_ = item.section_ := gathers.section_
    rw [item_stays later titledLater edits.heeds same entered begun onward (titles_nodup apart) list] at gathers
    have back : ItemReadsBack item := by
      refine item_back here (fun title' titled' => ?_) (fun named => ?_) gathers
      · rw [titled_, Option.some.injEq] at titled'
        rw [<- titled']
        exact oneWord
      · rwa [AuthconfItem.fixedUser, titled_, Option.bind_some] at named
    by_cases open_ : ∃ user, item.fixedUser = some user ∧ leavesOpen true user = true
    · obtain ⟨user, fixed, open_⟩ := open_
      obtain ⟨rfl, only⟩ := open_last fromFile titled back fixed open_ heeds new (titles_nodup apart) done list
      constructor
      case items => exact List.forall_mem_cons.mpr ⟨back, fun other member => absurd member List.not_mem_nil⟩
      case defaults => exact fun other member => absurd member List.not_mem_nil
      case closed =>
        intro front other behind user' split fixed' _
        obtain ⟨rfl, rfl, rfl⟩ : front = [] ∧ other = item ∧ behind = [] := by
          cases front with
          | nil =>
            obtain ⟨rfl, rfl⟩ := List.cons.inj split
            exact ⟨rfl, rfl, rfl⟩
          | cons first front => exact absurd (List.cons.inj split).2.symm (by simp)
        rw [fixed, Option.some.injEq] at fixed'
        exact ⟨rfl, fixed' ▸ only⟩
    · have closed : ∀ user, item.fixedUser = some user -> leavesOpen true user = false := by
        intro user fixed
        cases opens : leavesOpen true user with
        | false => rfl
        | true => exact absurd ⟨user, fixed, opens⟩ open_
      obtain ⟨words, lines, reads⟩ := @item_read services parseInclude item here back closed
      obtain ⟨next, settled, heeds, list'⟩ := reads st heeds new fun none_ => absurd none_ titledHere
      rw [List.flatMap_cons, fileLines_linesText lines, List.foldlM_append, settled] at done
      exact .cons back closed titledLater (ih later titledLater heeds done (by rw [list, list', List.append_assoc]; rfl))

section Whole

variable {item : AuthconfItem} {flag : Bool}

theorem titled_back (fromFile : ∀ other ∈ item :: items, FromFile services other) {title : CString}
    (titled : item.section_ = some title) (apart : (after.list.map (·.section_)).Nodup)
    (done : (fileLines (pconfInitWith 32 512) (linesText ((item :: items).flatMap AuthconfItem.lines))).foldlM
      (handleAuthconfArgs services parseInclude true) (freed flag) = .ok after) (list : after.list = item :: items) :
    ∀ other ∈ items, other.section_ ≠ none := by
  obtain ⟨here, later⟩ := List.forall_mem_cons.mp fromFile
  have titles : after.titles = title :: items.filterMap (·.section_) := by
    rw [Authconf.titles, list]
    exact List.filterMap_cons_some titled
  have full := congrArg List.length titles
  rw [List.length_cons] at full
  have nothing : (freed flag).titles = [] := rfl
  obtain ⟨printed, headings⟩ := items_printed later
  have begun := (@begun_both 32 512 _ (items_oneLine fromFile)).1
  rw [List.flatMap_cons] at begun
  obtain ⟨-, item', behind, read, gathers, entered, edits, begun, onward⟩ := item_begun here titled rfl printed
    begun done (by rw [nothing, List.length_nil]; omega) (by rw [titles]; rfl) (by rw [nothing]; simp)
  have section_ : item'.section_ = some title := gathers.section_.trans titled
  have sections := (items_begun later edits.heeds (.inr ⟨_, _, item', edits, by rw [section_]; simp⟩) begun onward
    (by rw [titles, titles_append entered section_]; rfl) (titles_nodup apart)).1
  rw [list, entered, List.map_cons, List.map_append, List.map_singleton, titled, section_] at sections
  intro other member none_
  have inside : none ∈ items.map (·.section_) := List.mem_map.mpr ⟨other, member, none_⟩
  rw [(List.cons.inj sections).2] at inside
  simp at inside

theorem defaults_back (fromFile : ∀ other ∈ item :: items, FromFile services other) (untitled : item.section_ = none)
    (apart : (after.list.map (·.section_)).Nodup)
    (done : (fileLines (pconfInitWith 32 512) (linesText ((item :: items).flatMap AuthconfItem.lines))).foldlM
      (handleAuthconfArgs services parseInclude true) (freed flag) = .ok after) (list : after.list = item :: items)
    (titled : ∀ other ∈ items, other.section_ ≠ none) : ItemReadsBack item := by
  obtain ⟨here, later⟩ := List.forall_mem_cons.mp fromFile
  have fixed : item.fixedUser = none := by rw [AuthconfItem.fixedUser, untitled, Option.bind_none]
  have begun := (@begun_both 32 512 _ (items_oneLine fromFile)).1
  rw [List.flatMap_cons, lines_untitled untitled] at begun
  obtain ⟨first, second, split, own, rest⟩ := begun.split
  rw [List.flatMap_cons, lines_untitled untitled, split, List.foldlM_append] at done
  obtain ⟨behind, settled, onward⟩ := bind_eq_ok.mp done
  have start : Edits flag [] item.entered (freed flag) := by
    refine ⟨rfl, rfl, .inr ⟨rfl, rfl, rfl, ?_⟩⟩
    rw [AuthconfItem.entered, fixed, untitled]
    rfl
  obtain ⟨item', edits, gathers⟩ := gathers_settings start (indent_mem item) written_named own settled
  have section_ : item'.section_ = none := gathers.section_.trans untitled
  have titles : after.titles = items.filterMap (·.section_) := by
    rw [Authconf.titles, list]
    exact List.filterMap_cons_none untitled
  have none_ : behind.titles = [] := by
    rcases edits.place with ⟨listed, _⟩ | ⟨listed, _⟩
    · rw [Authconf.titles, listed]
      exact List.filterMap_cons_none section_
    · rw [Authconf.titles, listed]
      rfl
  obtain ⟨sections, extends_⟩ := items_begun later edits.heeds (.inl titled) rest onward
    (by rw [titles, none_, List.nil_append]) (titles_nodup apart)
  rcases edits.place with ⟨listed, _⟩ | ⟨listed, _⟩
  · have same := extends_ titled
    rw [listed, list, List.nil_append, List.cons_prefix_cons] at same
    rw [same.1] at gathers
    refine item_back here (fun title titled' => ?_) (fun named => ?_) gathers
    · rw [untitled] at titled'
      cases titled'
    · rw [fixed] at named
      cases named
  · rw [list, listed, List.map_cons, untitled] at sections
    have inside : none ∈ none :: items.map (·.section_) := List.mem_cons_self
    rw [sections] at inside
    simp at inside

theorem list_back {list : List AuthconfItem} (fromFile : ∀ item ∈ list, FromFile services item)
    (apart : (list.map (·.section_)).Nodup)
    (done : (fileLines (pconfInitWith 32 512) (linesText (list.flatMap AuthconfItem.lines))).foldlM
      (handleAuthconfArgs services parseInclude true) (freed flag) = .ok after) (same : after.list = list) :
    ListReadsBack list := by
  cases list with
  | nil => exact items_back fromFile (fun item member => absurd member List.not_mem_nil) rfl (by rw [same]; exact apart) done same
  | cons item items =>
    rw [<- same] at apart
    obtain ⟨here, behind⟩ := List.forall_mem_cons.mp fromFile
    cases titled : item.section_ with
    | some title =>
      have later := titled_back fromFile titled apart done same
      exact items_back fromFile (List.forall_mem_cons.mpr ⟨by rw [titled]; simp, later⟩) rfl apart done same
    | none =>
      have later : ∀ other ∈ items, other.section_ ≠ none := by
        intro other member none_
        rw [same, List.map_cons, List.nodup_cons, titled] at apart
        exact apart.1 (List.mem_map.mpr ⟨other, member, none_⟩)
      have back := defaults_back fromFile titled apart done same later
      have fixed : item.fixedUser = none := by rw [AuthconfItem.fixedUser, titled, Option.bind_none]
      have closed : ∀ user, item.fixedUser = some user -> leavesOpen true user = false := by
        intro user named
        rw [fixed] at named
        cases named
      obtain ⟨words, lines, reads⟩ := @item_read services parseInclude item here back closed
      obtain ⟨next, settled, heeds, list'⟩ := reads (freed flag) rfl (fun other member => absurd member List.not_mem_nil)
        fun _ => ⟨rfl, rfl⟩
      rw [List.flatMap_cons, fileLines_linesText lines, List.foldlM_append, settled] at done
      exact .cons back closed later (items_back behind later heeds apart done (by rw [same, list']; rfl))

end Whole

end Lists

section Dumps

variable {files files' : Files} {confpath confpath' filename filename' path : CString} {depth : Nat}
  {fatalErrors fixedUsername : Bool} {st : Authconf}

-- The dump of a list that was read is read as the same list, if the values are ones that it can show.
theorem dump_reads_back_iff
    (read : readAuthconfFile services files confpath depth filename fatalErrors fixedUsername = .ok st)
    (resolved : resolvePath confpath' filename' = some path) (dumped : files' path = .opened (dumpAuthconfList 0 true st.list).1)
    (depth' : Nat) (fatalErrors' fixedUsername' : Bool) :
    (∃ again, readAuthconfFile services files' confpath' (depth' + 1) filename' fatalErrors' fixedUsername' = .ok again ∧
      again.list = st.list) ↔ ListReadsBack st.list := by
  have fromFile := read_fromFile read
  have apart := (readAuthconfFile_listed read).titles
  constructor
  · rintro ⟨again, reread, same⟩
    unfold readAuthconfFile parseAuthconfFile at reread
    rw [resolved] at reread
    dsimp only at reread
    rw [dumped, dumpAuthconfList_text] at reread
    obtain ⟨after, done, closed⟩ := bind_eq_ok.mp reread
    cases closed
    exact list_back fromFile apart done same
  · exact fun back => list_read fromFile apart back resolved dumped depth' fatalErrors' fixedUsername'

def dumpOf (list : List AuthconfItem) : Files := fun _ =>
  .opened (dumpAuthconfList 0 true list).1

theorem dump_reads_back_twoSections :
    (∃ again, readAuthconfFile noServices (dumpOf twoSections.list) [] 1 (cstr "/f") true false = .ok again ∧
      again.list = twoSections.list) ∧ ListReadsBack twoSections.list := by
  have again : readAuthconfFile noServices (dumpOf twoSections.list) [] 1 (cstr "/f") true false = .ok twoSections := by
    decide +kernel
  have resolved : resolvePath [] (cstr "/f") = some (cstr "/f") := by decide
  have dumped : dumpOf twoSections.list (cstr "/f") = .opened (dumpAuthconfList 0 true twoSections.list).1 := rfl
  exact ⟨⟨twoSections, again, rfl⟩, (dump_reads_back_iff twoPasswords_read resolved dumped 0 true false).mp ⟨twoSections, again, rfl⟩⟩

def quotedPass : Files := fun _ =>
  .opened (cstr "[h]\nPASS = \"a\\\"b\"\n")

def passSection (pass : CString) : Authconf :=
  { list := [{ createAuthconfItem (some (cstr "@h:3493")) with pass := some pass }]
    currentSection := some 0
    globalDefaults := none
    currentSectionWithFixedUsername := false
    currentSectionIgnored := false
    hostCerts := [] }

-- The quote in the dump ends the password.
theorem quote_not_read_back :
    ∃ st, readAuthconfFile noServices quotedPass [] 1 (cstr "/f") true false = .ok st ∧ st = passSection (cstr "a\"b") ∧
      ¬ ∃ again, readAuthconfFile noServices (dumpOf st.list) [] 1 (cstr "/f") true false = .ok again ∧
        again.list = st.list := by
  refine ⟨passSection (cstr "a\"b"), by decide +kernel, rfl, ?_⟩
  rintro ⟨again, reread, same⟩
  have cut : readAuthconfFile noServices (dumpOf (passSection (cstr "a\"b")).list) [] 1 (cstr "/f") true false =
      .ok (passSection (cstr "a")) := by
    decide +kernel
  rw [cut] at reread
  cases reread
  revert same
  decide +kernel

end Dumps

end Nut.Nutauth
