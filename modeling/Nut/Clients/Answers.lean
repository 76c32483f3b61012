import Nut.Clients.Upsclient

set_option autoImplicit false

namespace Nut

def Echoes (query words : List CString) : Prop :=
  ∀ pair ∈ query.zip words, strcasecmp pair.1 pair.2 = .eq

section Verify

variable {slots query : List CString} {start n : Nat}

theorem echoes_cons {q a : CString} {words : List CString} :
    Echoes (q :: query) (a :: words) ↔ strcasecmp q a = .eq ∧ Echoes query words := by
  simp [Echoes]

theorem echoes_append {first words : List CString} :
    Echoes (first ++ query) words ↔ Echoes first words ∧ Echoes query (words.drop first.length) := by
  induction first generalizing words with
  | nil => simp [Echoes]
  | cons q first ih =>
    cases words with
    | nil => simp [Echoes]
    | cons a words => simp [echoes_cons, ih, and_assoc]

theorem verify_reads (present : n ≤ slots.length) (within : start ≤ n) :
    (∀ place ∈ (verifyResp slots start query).reads, place < n) ↔
      query.length + start ≤ n ∨ ¬ Echoes query ((slots.take n).drop start) := by
  induction query generalizing start with
  | nil => simp [verifyResp, within]
  | cons q query ih =>
    by_cases last : start = n
    · have none_ : (slots.take n).drop start = [] := by
        rw [List.drop_eq_nil_iff, List.length_take]
        omega
      have reads : start ∈ (verifyResp slots start (q :: query)).reads := by
        unfold verifyResp
        split
        · exact List.mem_singleton_self _
        · split
          · exact List.mem_singleton_self _
          · exact List.mem_cons_self
      constructor
      · intro inside
        have bound := inside start reads
        omega
      · rintro (short | differs)
        · rw [List.length_cons] at short
          omega
        · rw [none_] at differs
          exact absurd (by simp [Echoes]) differs
    · have before : start < slots.length := by omega
      have here : slots[start]? = some slots[start] := List.getElem?_eq_getElem before
      have words : (slots.take n).drop start = slots[start] :: (slots.take n).drop (start + 1) := by
        rw [List.drop_eq_getElem_cons (by rw [List.length_take]; omega), List.getElem_take]
      rw [words, echoes_cons, verifyResp, here]
      by_cases same : strcasecmp q slots[start] = .eq
      · have next := @ih (start + 1) (by omega)
        have few : query.length + 1 + start = query.length + (start + 1) := by omega
        have low : start < n := by omega
        simp [same, few, low, next]
      · have low : start < n := by omega
        simp [same, low]

theorem verify_result (present : n ≤ slots.length) (within : start ≤ n) (few : query.length + start ≤ n) :
    ∃ ok, (verifyResp slots start query).result = some ok ∧ (ok = true ↔ Echoes query ((slots.take n).drop start)) := by
  induction query generalizing start with
  | nil => exact ⟨true, rfl, by simp [Echoes]⟩
  | cons q query ih =>
    rw [List.length_cons] at few
    have before : start < slots.length := by omega
    have here : slots[start]? = some slots[start] := List.getElem?_eq_getElem before
    have words : (slots.take n).drop start = slots[start] :: (slots.take n).drop (start + 1) := by
      rw [List.drop_eq_getElem_cons (by rw [List.length_take]; omega), List.getElem_take]
    obtain ⟨ok, result, echo⟩ := @ih (start + 1) (by omega) (by omega)
    rw [words, echoes_cons, verifyResp, here]
    by_cases same : strcasecmp q slots[start] = .eq
    · exact ⟨ok, by simp [same, result], by simp [same, echo]⟩
    · exact ⟨false, by simp [same], by simp [same]⟩

end Verify

inductive ClientCall where
  | get (query : List CString)
  | listStart (query : List CString)
  | listNext (query : List CString)
  | getVar (query : List CString) (bufsize : Nat)

namespace ClientCall

def reply (ups : Upsconn) : ClientCall -> Upsconn × Bool
  | get query => ups.ask "GET" query
  | listStart query => ups.ask "LIST" query
  | listNext _ => ups.receive
  | getVar query _ => ups.ask "GET" query

def perform (ups : Upsconn) : ClientCall -> Upsconn × List Nat × Option CString
  | get query => ((ups.upscliGet query).1, (ups.upscliGet query).2.reads, none)
  | listStart query => ((ups.upscliListStart query).1, (ups.upscliListStart query).2.reads, none)
  | listNext query => ((ups.upscliListNext query).1, (ups.upscliListNext query).2.reads, none)
  | getVar query bufsize =>
    ((ups.getVar query bufsize).1, (ups.getVar query bufsize).2.reads, (ups.getVar query bufsize).2.result.join)

-- A reply that matches the query as far as it goes does not end before it, or right behind it for `get_var`.
def Covers (words : List CString) : ClientCall -> Prop
  | get _ => True
  | listStart query =>
    words.length < 2 ∨ query.length + 2 ≤ words.length ∨ ¬ Echoes (cstr "BEGIN" :: cstr "LIST" :: query) words
  | listNext query =>
    words[0]? = some (cstr "END") ∧ words[1]? = some (cstr "LIST") ∨ words.length < 1 ∨
      query.length ≤ words.length ∨ ¬ Echoes query words
  | getVar query _ => words.length ≠ query.length ∨ ¬ Echoes query words

def Confined (ups : Upsconn) (call : ClientCall) : Prop :=
  (∀ place ∈ (call.perform ups).2.1, place < (call.perform ups).1.numargs) ∧
    ∀ query bufsize, call = getVar query bufsize -> ∀ value, (call.perform ups).2.2 = some value ->
      Echoes query (call.perform ups).1.pcCtx.arglist ∧
        ∃ word, (call.perform ups).1.pcCtx.arglist[query.length]? = some word ∧ value = snprintf bufsize word

end ClientCall

section Replies

variable {ups after : Upsconn}

theorem receive_slots (received : ups.receive = (after, true)) : after.pcCtx.arglist <+: after.slots := by
  unfold Upsconn.receive at received
  split at received
  · cases received
  · unfold Upsconn.accept at received
    split at received
    · cases received
    · cases received
      exact List.prefix_append _ _

theorem ask_slots {cmdname : String} {query : List CString} (received : ups.ask cmdname query = (after, true)) :
    after.pcCtx.arglist <+: after.slots := by
  unfold Upsconn.ask at received
  split at received
  · cases received
  · split at received
    · cases received
    · exact receive_slots received

theorem reply_slots {call : ClientCall} (received : call.reply ups = (after, true)) :
    after.pcCtx.arglist <+: after.slots := by
  cases call with
  | listNext query => exact receive_slots received
  | _ => exact ask_slots received

theorem slots_take (current : ups.pcCtx.arglist <+: ups.slots) :
    ups.numargs ≤ ups.slots.length ∧ ups.slots.take ups.numargs = ups.pcCtx.arglist :=
  ⟨current.length_le, (List.prefix_iff_eq_take.mp current).symm⟩

theorem judge_words (ups : Upsconn) (ok : Option Bool) : (ups.judge ok).pcCtx = ups.pcCtx ∧ (ups.judge ok).slots = ups.slots := by
  unfold Upsconn.judge
  split <;> exact ⟨rfl, rfl⟩

end Replies

section Checks

variable {ups : Upsconn} {query : List CString}

theorem checkGet_reads (current : ups.pcCtx.arglist <+: ups.slots) :
    ∀ place ∈ (ups.checkGet query).reads, place < ups.numargs := by
  obtain ⟨present, _⟩ := slots_take current
  unfold Upsconn.checkGet
  split
  · simp
  · exact (verify_reads present (Nat.zero_le _)).mpr (Or.inl (by omega))

theorem checkGet_result (current : ups.pcCtx.arglist <+: ups.slots) : ∃ ok, (ups.checkGet query).result = some ok ∧
      (ok = true ↔ query.length ≤ ups.numargs ∧ Echoes query ups.pcCtx.arglist) := by
  obtain ⟨present, words⟩ := slots_take current
  unfold Upsconn.checkGet
  by_cases short : ups.numargs < query.length
  · rw [if_pos short]
    exact ⟨false, rfl, by simp; omega⟩
  · obtain ⟨ok, result, echo⟩ := @verify_result _ query 0 _ present (Nat.zero_le _) (by omega)
    rw [if_neg short]
    rw [List.drop_zero, words] at echo
    exact ⟨ok, result, by rw [echo]; simp; omega⟩

theorem checkListStart_reads (current : ups.pcCtx.arglist <+: ups.slots) :
    (∀ place ∈ (ups.checkListStart query).reads, place < ups.numargs) ↔
      ups.numargs < 2 ∨ query.length + 2 ≤ ups.numargs ∨
        ¬ Echoes (cstr "BEGIN" :: cstr "LIST" :: query) ups.pcCtx.arglist := by
  obtain ⟨present, words⟩ := slots_take current
  unfold Upsconn.checkListStart
  by_cases short : ups.numargs < 2
  · simp [short]
  · have begin_ := @verify_reads _ [cstr "BEGIN", cstr "LIST"] 0 _ present (Nat.zero_le _)
    have first := begin_.mpr (Or.inl (by simp; omega))
    have rest := @verify_reads _ query 2 _ present (by omega)
    obtain ⟨ok, result, echo⟩ :=
      @verify_result _ [cstr "BEGIN", cstr "LIST"] 0 _ present (Nat.zero_le _) (by simp; omega)
    rw [List.drop_zero, words] at echo
    rw [words] at rest
    have both : Echoes (cstr "BEGIN" :: cstr "LIST" :: query) ups.pcCtx.arglist ↔
        ok = true ∧ Echoes query (ups.pcCtx.arglist.drop 2) := by
      rw [echo]
      exact @echoes_append query [cstr "BEGIN", cstr "LIST"] _
    rw [if_neg short, both]
    cases ok with
    | false => simpa [result] using first
    | true =>
      simp only [result, List.mem_append, or_imp, forall_and, rest, short, false_or, true_and]
      exact and_iff_right first

theorem checkListNext_reads (current : ups.pcCtx.arglist <+: ups.slots) :
    (∀ place ∈ (ups.checkListNext query).reads, place < ups.numargs) ↔
      (ups.pcCtx.arglist[0]? = some (cstr "END") ∧ ups.pcCtx.arglist[1]? = some (cstr "LIST")) ∨ ups.numargs < 1 ∨
        query.length ≤ ups.numargs ∨ ¬ Echoes query ups.pcCtx.arglist := by
  obtain ⟨present, words⟩ := slots_take current
  have count : ups.numargs = ups.pcCtx.arglist.length := rfl
  unfold Upsconn.checkListNext
  by_cases none_ : ups.numargs < 1
  · simp [none_]
  · have rest := @verify_reads _ query 0 _ present (Nat.zero_le _)
    rw [List.drop_zero, words] at rest
    have slot (place : Nat) (low : place < ups.numargs) : ups.slots[place]? = ups.pcCtx.arglist[place]? := by
      rw [<- words, List.getElem?_take_of_lt low]
    by_cases one : ups.numargs < 2
    · have missing : ups.pcCtx.arglist[1]? = none := List.getElem?_eq_none (by omega)
      have few : ¬ ups.numargs ≥ 2 := by omega
      simp [none_, one, few, missing, rest]
    · have two : ups.numargs ≥ 2 := by omega
      have looked : ∀ place ∈ (if Upsconn.isWord ups.slots 0 "END" then [0, 1] else [0] : List Nat), place < ups.numargs := by
        split <;> simp <;> omega
      simp only [Upsconn.isWord, slot 0 (by omega), slot 1 (by omega), decide_eq_true_eq] at looked ⊢
      rw [if_neg none_, if_neg one]
      by_cases end_ : ups.pcCtx.arglist[0]? = some (cstr "END") ∧ ups.pcCtx.arglist[1]? = some (cstr "LIST")
      · rw [if_pos ⟨two, end_⟩]
        simpa [end_] using looked
      · rw [if_neg fun all => end_ all.2]
        simp only [List.mem_append, or_imp, forall_and, rest, end_, none_, false_or]
        simpa using fun _ => looked

end Checks

section Performed

variable {ups after : Upsconn} {query : List CString}

theorem perform_failed {call : ClientCall} (failed : call.reply ups = (after, false)) :
    call.perform ups = (after, [], none) := by
  cases call with
  | listNext query =>
    have failed : ups.receive = (after, false) := failed
    simp [ClientCall.perform, Upsconn.upscliListNext, failed]
  | listStart query =>
    have failed : ups.ask "LIST" query = (after, false) := failed
    simp [ClientCall.perform, Upsconn.upscliListStart, failed]
  | get query =>
    have failed : ups.ask "GET" query = (after, false) := failed
    simp [ClientCall.perform, Upsconn.upscliGet, failed]
  | getVar query bufsize =>
    have failed : ups.ask "GET" query = (after, false) := failed
    simp [ClientCall.perform, Upsconn.getVar, Upsconn.upscliGet, failed]

theorem getVar_performed {bufsize : Nat} (received : ups.ask "GET" query = (after, true)) :
    (ups.getVar query bufsize).1.pcCtx = after.pcCtx ∧
      (query.length ≤ after.numargs ∧ Echoes query after.pcCtx.arglist ∧
          (ups.getVar query bufsize).2.reads = (after.checkGet query).reads ++ [query.length] ∧
          (ups.getVar query bufsize).2.result.join = (after.slots[query.length]?).map (snprintf bufsize) ∨
        ¬ (query.length ≤ after.numargs ∧ Echoes query after.pcCtx.arglist) ∧
          (ups.getVar query bufsize).2.reads = (after.checkGet query).reads ∧
          (ups.getVar query bufsize).2.result.join = none) := by
  obtain ⟨ok, result, accepted⟩ := @checkGet_result after query (ask_slots received)
  cases ok with
  | true =>
    obtain ⟨long, echo⟩ := accepted.mp rfl
    have enough : ¬ after.numargs < query.length := by omega
    have performed : ups.getVar query bufsize = (after, ⟨(after.checkGet query).reads ++ [query.length],
          (after.slots[query.length]?).map fun answer => some (snprintf bufsize answer)⟩) := by
      cases made : after.checkGet query with
      | mk reads outcome =>
        rw [made] at result
        simp only at result
        subst result
        simp [Upsconn.getVar, Upsconn.upscliGet, received, made, Upsconn.judge, enough]
    rw [performed]
    refine ⟨rfl, Or.inl ⟨long, echo, rfl, ?_⟩⟩
    cases after.slots[query.length]? with
    | none => rfl
    | some answer => rfl
  | false =>
    have performed : ups.getVar query bufsize = (after.fails .protocol, ⟨(after.checkGet query).reads, some none⟩) := by
      cases made : after.checkGet query with
      | mk reads outcome =>
        rw [made] at result
        simp only at result
        subst result
        simp [Upsconn.getVar, Upsconn.upscliGet, received, made, Upsconn.judge]
    rw [performed]
    exact ⟨rfl, Or.inr ⟨fun both => Bool.false_ne_true (accepted.mpr both), rfl, rfl⟩⟩

theorem getVar_confined {bufsize : Nat} (received : ups.ask "GET" query = (after, true)) :
    (ClientCall.getVar query bufsize).Confined ups ↔
      after.pcCtx.arglist.length ≠ query.length ∨ ¬ Echoes query after.pcCtx.arglist := by
  have current := ask_slots received
  have checked := @checkGet_reads after query current
  have count : after.numargs = after.pcCtx.arglist.length := rfl
  obtain ⟨same, performed⟩ := @getVar_performed ups after query bufsize received
  have confined : (ClientCall.getVar query bufsize).Confined ups ↔
      (∀ place ∈ (ups.getVar query bufsize).2.reads, place < after.numargs) ∧
        ∀ value, (ups.getVar query bufsize).2.result.join = some value -> Echoes query after.pcCtx.arglist ∧
            ∃ word, after.pcCtx.arglist[query.length]? = some word ∧ value = snprintf bufsize word := by
    simp only [ClientCall.Confined, ClientCall.perform, Upsconn.numargs, same]
    constructor
    · rintro ⟨reads, value⟩
      exact ⟨reads, value query bufsize rfl⟩
    · rintro ⟨reads, value⟩
      refine ⟨reads, fun query' bufsize' same => ?_⟩
      cases same
      exact value
  rw [confined]
  cases performed with
  | inl hit =>
    obtain ⟨long, echo, reads, value⟩ := hit
    rw [reads, value]
    constructor
    · rintro ⟨inside, _⟩
      have bound := inside query.length (by simp)
      exact Or.inl (by omega)
    · rintro (more | differs)
      · have low : query.length < after.pcCtx.arglist.length := by omega
        have word : after.slots[query.length]? = after.pcCtx.arglist[query.length]? := by
          rw [<- (slots_take current).2, List.getElem?_take_of_lt (by omega)]
        rw [word, List.getElem?_eq_getElem low]
        constructor
        · intro place member
          rcases List.mem_append.mp member with compared | behind
          · exact checked place compared
          · rw [List.mem_singleton.mp behind]
            omega
        · intro value copied
          exact ⟨echo, _, rfl, by simpa using copied.symm⟩
      · exact absurd echo differs
  | inr missed =>
    obtain ⟨neither, reads, value⟩ := missed
    rw [reads, value]
    constructor
    · intro _
      by_cases echo : Echoes query after.pcCtx.arglist
      · exact Or.inl fun length => neither ⟨by omega, echo⟩
      · exact Or.inr echo
    · intro _
      exact ⟨checked, fun _ copied => nomatch copied⟩

end Performed

theorem reads_confined (ups : Upsconn) (call : ClientCall) :
    call.Confined ups ↔ ((call.reply ups).2 = true -> call.Covers (call.reply ups).1.pcCtx.arglist) := by
  cases outcome : call.reply ups with
  | mk after came =>
    cases came with
    | false =>
      have done := perform_failed outcome
      simp [ClientCall.Confined, done]
    | true =>
      have current := reply_slots outcome
      simp only [forall_const]
      cases call with
      | get query =>
        have received : ups.ask "GET" query = (after, true) := outcome
        have reads := @checkGet_reads after query current
        simpa [ClientCall.Confined, ClientCall.Covers, ClientCall.perform, Upsconn.upscliGet, received,
          Upsconn.numargs, judge_words] using reads
      | listStart query =>
        have received : ups.ask "LIST" query = (after, true) := outcome
        have reads := @checkListStart_reads after query current
        simpa [ClientCall.Confined, ClientCall.Covers, ClientCall.perform, Upsconn.upscliListStart, received,
          Upsconn.numargs, judge_words] using reads
      | listNext query =>
        have received : ups.receive = (after, true) := outcome
        have reads := @checkListNext_reads after query current
        simpa [ClientCall.Confined, ClientCall.Covers, ClientCall.perform, Upsconn.upscliListNext, received,
          Upsconn.numargs, judge_words] using reads
      | getVar query bufsize => exact getVar_confined outcome

def Upsconn.expecting (replies : List String) : Upsconn :=
  { connected := true, upserror := none, pcCtx := pconfInit, slots := [], readbuf := [], writable := true,
    incoming := replies.map cstr, sent := [] }

-- `BEGIN LIST` alone is compared with the query, and a value left out is taken from the reply before.
theorem reads_behind_reply :
    ¬ (ClientCall.listStart [cstr "VAR", cstr "ups"]).Confined (Upsconn.expecting ["BEGIN LIST\n"]) ∧
      ¬ (ClientCall.listNext [cstr "VAR", cstr "ups"]).Confined (Upsconn.expecting ["VAR\n"]) ∧
      ∃ ups, ups = ((Upsconn.expecting ["VAR ups ups.status OL\n", "VAR ups ups.status\n"]).getVar
            (getVarQuery (cstr "ups") "status") 512).1 ∧
        ((ClientCall.getVar (getVarQuery (cstr "ups") "status") 512).perform ups).2.2 = some (cstr "OL") ∧
        ¬ (ClientCall.getVar (getVarQuery (cstr "ups") "status") 512).Confined ups := by
  have beyond {ups : Upsconn} {call : ClientCall} (place : Nat)
      (read : ((call.perform ups).2.1.contains place && decide ((call.perform ups).1.numargs ≤ place)) = true) :
      ¬ call.Confined ups := by
    rintro ⟨inside, _⟩
    simp only [Bool.and_eq_true, List.contains_iff_mem, decide_eq_true_eq] at read
    exact absurd (inside place read.1) (by omega)
  exact ⟨beyond 2 (by decide +kernel), beyond 1 (by decide +kernel), _, rfl, by decide +kernel,
    beyond 3 (by decide +kernel)⟩

end Nut
