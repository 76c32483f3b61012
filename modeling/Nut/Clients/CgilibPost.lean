import Nut.Clients.CgilibArgs

set_option autoImplicit false

namespace Nut

def chunkBuffers (buf : CString) : CString -> List CString
  | [] => [buf]
  | b :: rest => if b = 38 then buf :: chunkBuffers [] rest else chunkBuffers (snprintfcatChar buf smallbuf b) rest

def runChunks : List CString -> CgiRun
  | [] => ⟨[], none⟩
  | buf :: rest => CgiRun.andThen (postCall buf) (runChunks rest)

section Chunks

theorem postFrom_eq {contentLength seen : Int} {stdin : CString} (some_ : stdin ≠ []) (positive : 0 ≤ seen)
    (announced : seen + stdin.length = contentLength) (buf : CString) :
    postFrom contentLength buf seen stdin = runChunks (chunkBuffers buf stdin.dropLast) := by
  induction stdin generalizing seen buf with
  | nil => exact absurd rfl some_
  | cons b rest ih =>
    simp only [List.length_cons] at announced
    cases rest with
    | nil =>
      have full : contentLength ≥ 0 ∧ seen + 1 ≥ contentLength := by
        simp at announced
        omega
      simp [postFrom, full, chunkBuffers, runChunks]
    | cons c rest =>
      have notFull : ¬ (contentLength ≥ 0 ∧ seen + 1 ≥ contentLength) := by
        simp only [List.length_cons] at announced
        omega
      have later (buf : CString) := ih (List.cons_ne_nil c rest) (show 0 ≤ seen + 1 by omega)
        (by push_cast at announced; omega) buf
      rw [postFrom, List.dropLast_cons_cons, chunkBuffers]
      by_cases separator : b = 38
      · simp [notFull, separator, later, runChunks]
      · simp [notFull, separator, later]

theorem snprintfcatChar_smallbuf {buf : CString} {b : UInt8} (text : b ≠ 0) (short : buf.length ≤ 510) :
    snprintfcatChar buf smallbuf b = (buf ++ [b]).take 510 := by
  have open_ : ¬ buf.length > 512 - 1 := by omega
  rw [snprintfcatChar, if_neg text, snprintfcat, smallbuf, if_neg open_, List.take_append, List.take_of_length_le short]
  congr 2
  omega

theorem chunkBuffers_eq {text : CString} (noNul : 0 ∉ text) {buf whole : CString} (filled : buf = whole.take 510) :
    chunkBuffers buf text = ((text.splitOn 38).modifyHead (whole ++ ·)).map (·.take 510) := by
  induction text generalizing buf whole with
  | nil => simp [chunkBuffers, filled]
  | cons b text ih =>
    rw [List.mem_cons, not_or] at noNul
    rw [chunkBuffers, List.splitOn_cons_eq_if_modifyHead]
    by_cases separator : b = 38
    · have rest := ih noNul.2 (show ([] : CString) = List.take 510 [] from rfl)
      have same (pieces : List CString) : pieces.modifyHead (fun piece => [] ++ piece) = pieces := by
        cases pieces <;> rfl
      simp only [separator, if_true, beq_self_eq_true, rest, same, filled, List.modifyHead_cons, List.map_cons,
        List.append_nil]
    · have next : snprintfcatChar buf smallbuf b = (whole ++ [b]).take 510 := by
        rw [filled, snprintfcatChar_smallbuf (Ne.symm noNul.1) (List.length_take_le _ _), List.take_append, List.take_take,
          List.take_append]
        simp only [List.length_take, Nat.min_self]
        by_cases short : whole.length ≤ 510
        · rw [Nat.min_eq_right short]
        · simp [show 510 - whole.length = 0 by omega, show min 510 whole.length = 510 by omega]
      rw [if_neg separator, ih noNul.2 next]
      simp [separator, Function.comp_def]

end Chunks

def postChunks (body : CString) : List CString :=
  (body.dropLast.splitOn 38).map (·.take 510)

def danglingValue : List CString -> Bool
  | [] => false
  | chunk :: rest =>
    match strchr 61 chunk with
    | none => danglingValue rest
    | some (_, value) => dangling value || (decodable value && danglingValue rest)

section Post

variable {server : Option CString} (notIis : strstr (server.getD []) (cstr "IIS") = false)

include notIis in
theorem extractpostargs_eq {body : CString} (noNul : 0 ∉ body) : extractpostargs (some body.length) server body =
      if body = [] then ⟨[], none⟩ else runChunks (postChunks body) := by
  have whole : chunkBuffers [] body.dropLast = postChunks body := by
    have same (pieces : List CString) : pieces.modifyHead (fun piece => [] ++ piece) = pieces := by
      cases pieces <;> rfl
    rw [chunkBuffers_eq (fun member => noNul (List.dropLast_subset body member)) (show ([] : CString) = List.take 510 [] from rfl),
      same, postChunks]
  by_cases none_ : body = []
  · simp [extractpostargs, none_]
  · have loop := postFrom_eq none_ (Int.le_refl 0) (Int.zero_add _) []
    simp only [extractpostargs, Option.getD_some, notIis, Bool.false_eq_true, and_false, if_false, none_, loop, whole]

theorem runChunks_overrun (chunks : List CString) :
    (runChunks chunks).stop = some .overrun ↔ danglingValue chunks = true := by
  induction chunks with
  | nil => simp [runChunks, danglingValue]
  | cons chunk rest ih =>
    rw [runChunks, andThen_stop, ih, danglingValue, postCall]
    cases strchr 61 chunk with
    | none => simp
    | some found =>
      obtain ⟨name, value⟩ := found
      have overrun := @decode_overrun_iff [] value
      have good := @decode_ok_iff [] value
      simp only [unescape_eq, Bool.or_eq_true, Bool.and_eq_true]
      rw [<- good]
      cases result : decode [] value <;> simp_all [Except.map]

theorem runChunks_iff (chunks : List CString) (calls : List (CString × CString)) :
    runChunks chunks = ⟨calls, none⟩ ↔ List.Forall₂ (fun chunk call => postCall chunk = .ok call) chunks calls := by
  induction chunks generalizing calls with
  | nil => simp [runChunks, eq_comm]
  | cons chunk rest ih =>
    cases call : postCall chunk with
    | error stop =>
      rw [runChunks, call]
      constructor
      · intro same
        cases same
      · rintro (_ | ⟨good, _⟩)
        cases call.symm.trans good
    | ok first =>
      rw [runChunks, call]
      cases calls with
      | nil => simp [CgiRun.andThen]
      | cons second calls =>
        rw [List.forall₂_cons, <- ih, call]
        cases later : runChunks rest
        simp [CgiRun.andThen, and_assoc]

end Post

section Pairs

variable (pair : CgiPair)

theorem decode_dropLast {value : CString} (clean : Clean value) (some_ : value ≠ []) :
    decode [] (urlPrintEsc value).dropLast ≠ .ok value := by
  obtain ⟨front, last, rfl⟩ := List.eq_nil_or_concat value |>.resolve_left some_
  have shown : urlPrintEsc (front ++ [last]) = urlPrintEsc front ++ urlPrintChar last := by
    simp [urlPrintEsc]
  have char : urlPrintChar last ≠ [] := by
    unfold urlPrintChar
    split <;> simp
  have cleanFront : Clean front := fun b member => clean b (by simp [member])
  rw [List.concat_eq_append, shown, List.dropLast_append_of_ne_nil char, decode_urlPrintEsc cleanFront]
  unfold urlPrintChar
  split
  next => simp [decode, Except.map]
  next => simp [decode, Except.map]

theorem postCall_text : postCall pair.text = .ok (urlPrintEsc pair.name, pair.value) := by
  have free := urlPrintEsc_free pair.name
  rw [postCall, CgiPair.text, strchr_append free.2.1]
  simp [unescape_urlPrintEsc pair.cleanValue, Except.map]

theorem postCall_dropLast : postCall pair.text.dropLast = .ok pair.call ↔
    urlPrintEsc pair.name = pair.name ∧ pair.value = [] := by
  have free := urlPrintEsc_free pair.name
  by_cases none_ : pair.value = []
  · have text : pair.text.dropLast = urlPrintEsc pair.name := by
      simp [CgiPair.text, none_, urlPrintEsc]
    simp [postCall, text, strchr_none free.2.1, CgiPair.call, none_]
  · have some_ : urlPrintEsc pair.value ≠ [] := by
      intro same
      have longer := urlPrintEsc_longer pair.value
      rw [same] at longer
      exact none_ (List.length_eq_zero_iff.mp (by simpa using longer))
    have text : pair.text.dropLast = urlPrintEsc pair.name ++ 61 :: (urlPrintEsc pair.value).dropLast := by
      rw [CgiPair.text, List.dropLast_append_of_ne_nil (List.cons_ne_nil _ _), List.dropLast_cons_of_ne_nil some_]
    have lost := decode_dropLast pair.cleanValue none_
    rw [postCall, text, strchr_append free.2.1]
    simp only [unescape_eq, CgiPair.call, none_, and_false, iff_false]
    cases result : decode [] (urlPrintEsc pair.value).dropLast with
    | error stop => simp [Except.map]
    | ok value =>
      rw [result] at lost
      simp only [Except.map, Except.ok.injEq, Prod.mk.injEq, not_and]
      exact fun _ same => lost (by rw [same])

theorem CgiPair.text_length : pair.text.length ≤ 511 ∧ (pair.text.length = 511 -> pair.value ≠ []) := by
  have name := pair.shortName
  have value := pair.shortValue
  simp only [smallbuf] at name value
  simp only [CgiPair.text, List.length_append, List.length_cons]
  refine ⟨by omega, fun full none_ => ?_⟩
  simp only [none_, urlPrintEsc, List.flatMap_nil, List.length_nil] at full
  simp only [urlPrintEsc] at name
  omega

theorem postCall_chunk : postCall (pair.text.take 510) = .ok pair.call ↔
    urlPrintEsc pair.name = pair.name ∧ pair.text.length ≤ 510 := by
  obtain ⟨bound, full⟩ := pair.text_length
  by_cases short : pair.text.length ≤ 510
  · rw [List.take_of_length_le short, postCall_text]
    simp [CgiPair.call, short]
  · have length : pair.text.length = 511 := by omega
    have cut : pair.text.take 510 = pair.text.dropLast := by
      rw [List.dropLast_eq_take, length]
    rw [cut, postCall_dropLast]
    simp [full length, short]

theorem postCall_lastChunk : postCall (pair.text.dropLast.take 510) = .ok pair.call ↔
    urlPrintEsc pair.name = pair.name ∧ pair.value = [] := by
  obtain ⟨bound, _⟩ := pair.text_length
  rw [List.take_of_length_le (by rw [List.length_dropLast]; omega), postCall_dropLast]

theorem forall₂_snoc {α β γ : Type} {R : α -> β -> Prop} {f : γ -> α} {g : γ -> β} (front : List γ) (a : α) (b : β) :
    List.Forall₂ R (front.map f ++ [a]) (front.map g ++ [b]) ↔ (∀ c ∈ front, R (f c) (g c)) ∧ R a b := by
  induction front with
  | nil => simp
  | cons c front ih => simp [ih, and_assoc]

def PostSafe (pairs : List CgiPair) : Prop :=
  (∀ pair ∈ pairs, ∀ b ∈ pair.name, isUnreserved b = true) ∧
    (∀ pair ∈ pairs.dropLast, pair.text.length ≤ 510) ∧ ∀ pair ∈ pairs.getLast?, pair.value = []

theorem runChunks_queryOf (front : List CgiPair) (last : CgiPair) :
    runChunks (postChunks (queryOf (front ++ [last]))) = ⟨(front ++ [last]).map CgiPair.call, none⟩ ↔
      PostSafe (front ++ [last]) := by
  have some_ : last.text ≠ [] := by simp [CgiPair.text]
  have noAmp (pair : CgiPair) : 38 ∉ pair.text := by
    simp [CgiPair.text, (urlPrintEsc_free pair.name).1, (urlPrintEsc_free pair.value).1]
  have free : ∀ piece ∈ front.map CgiPair.text ++ [last.text.dropLast], 38 ∉ piece := by
    intro piece member
    obtain inside | final := List.mem_append.mp member
    · obtain ⟨pair, _, rfl⟩ := List.mem_map.mp inside
      exact noAmp pair
    · rw [List.mem_singleton.mp final]
      exact fun inText => noAmp last (List.dropLast_subset _ inText)
  have chunks : postChunks (queryOf (front ++ [last])) =
      front.map (·.text.take 510) ++ [last.text.dropLast.take 510] := by
    rw [postChunks, queryOf, List.map_append, List.map_singleton, intercalate_dropLast some_,
      List.splitOn_intercalate 38 free (by simp)]
    simp
  rw [chunks, runChunks_iff, List.map_append, List.map_singleton, forall₂_snoc, postCall_lastChunk]
  simp only [postCall_chunk, urlPrintEsc_self, PostSafe, List.forall_mem_append, List.dropLast_concat,
    List.getLast?_concat, List.forall_mem_singleton, Option.mem_def, Option.some.injEq, forall_eq', forall_and]
  tauto

theorem queryOf_noNul (pairs : List CgiPair) : 0 ∉ queryOf pairs := by
  cases pairs with
  | nil => simp [queryOf]
  | cons first rest =>
    have noNul (pair : CgiPair) : 0 ∉ pair.text := by
      simp [CgiPair.text, (urlPrintEsc_free pair.name).2.2, (urlPrintEsc_free pair.value).2.2]
    rw [queryOf, List.map_cons, intercalate_cons_map]
    simp only [List.mem_append, noNul first, false_or, List.mem_flatten, List.mem_map, not_exists, not_and]
    rintro piece ⟨_, ⟨pair, _, rfl⟩, rfl⟩
    simpa using noNul pair

end Pairs

-- Both functions call `parsearg` with these pairs, where what was encoded comes with its length from a server other than IIS.
def DecodedAlike (pairs : List CgiPair) : Prop :=
  extractcgiargs (some (queryOf pairs)) = ⟨pairs.map CgiPair.call, none⟩ ∧
    ∀ server : Option CString, strstr (server.getD []) (cstr "IIS") = false ->
      extractpostargs (some (queryOf pairs).length) server (queryOf pairs) = ⟨pairs.map CgiPair.call, none⟩

def ReadWithin (query : CString) : Prop :=
  (extractcgiargs (some query)).stop ≠ some .overrun ∧
    ∀ server : Option CString, strstr (server.getD []) (cstr "IIS") = false ->
      (extractpostargs (some query.length) server query).stop ≠ some .overrun

theorem decodedAlike_iff (pairs : List CgiPair) : DecodedAlike pairs ↔ PostSafe pairs := by
  have post (server : Option CString) (notIis : strstr (server.getD []) (cstr "IIS") = false) :
      extractpostargs (some (queryOf pairs).length) server (queryOf pairs) = ⟨pairs.map CgiPair.call, none⟩ ↔
        PostSafe pairs := by
    rw [extractpostargs_eq notIis (queryOf_noNul pairs)]
    obtain rfl | ⟨front, last, rfl⟩ := List.eq_nil_or_concat pairs
    · simp [queryOf, PostSafe]
    · have some_ : queryOf (front ++ [last]) ≠ [] := by
        intro none_
        have member : 61 ∈ queryOf (front ++ [last]) := by
          cases front with
          | nil => simp [queryOf, CgiPair.text]
          | cons first front =>
            rw [queryOf, List.cons_append, List.map_cons, intercalate_cons_map]
            simp [CgiPair.text]
        rw [none_] at member
        cases member
      rw [List.concat_eq_append, if_neg some_, runChunks_queryOf]
  constructor
  · intro alike
    exact (post none (by decide)).mp (alike.2 none (by decide))
  · intro safe
    exact ⟨extractcgiargs_queryOf pairs, fun server notIis => (post server notIis).mpr safe⟩

theorem readWithin_iff {query : CString} (noNul : 0 ∉ query) :
    ReadWithin query ↔ dangling query = false ∧ danglingValue (postChunks query) = false := by
  have get := extractcgiargs_overrun query
  have post (server : Option CString) (notIis : strstr (server.getD []) (cstr "IIS") = false) :
      (extractpostargs (some query.length) server query).stop = some .overrun ↔ danglingValue (postChunks query) = true := by
    rw [extractpostargs_eq notIis noNul]
    by_cases none_ : query = []
    · subst none_
      simp [postChunks, danglingValue, strchr]
    · rw [if_neg none_, runChunks_overrun]
  rw [ReadWithin, ne_eq, get, Bool.not_eq_true]
  constructor
  · rintro ⟨within, posted⟩
    refine ⟨within, ?_⟩
    have free := posted none (by decide)
    rwa [ne_eq, post none (by decide), Bool.not_eq_true] at free
  · rintro ⟨within, free⟩
    refine ⟨within, fun server notIis => ?_⟩
    rw [ne_eq, post server notIis, Bool.not_eq_true]
    exact free

def hostPair : CgiPair :=
  ⟨cstr "host", cstr "ups", by decide, by unfold Clean; decide +kernel, by unfold Clean; decide +kernel, by decide, by decide⟩

-- GET decodes every list; POST loses a byte, takes names as they are and is bounded by its buffer.
theorem cgiArguments_iff (pairs : List CgiPair) {query : CString} (noNul : 0 ∉ query) :
    DecodedAlike pairs ∧ ReadWithin query ↔
      PostSafe pairs ∧ dangling query = false ∧ danglingValue (postChunks query) = false := by
  rw [decodedAlike_iff, readWithin_iff noNul]

def submitPair : CgiPair :=
  ⟨cstr "go", [], by decide, by unfold Clean; decide +kernel, by unfold Clean; decide +kernel, by decide, by decide⟩

theorem cgiArguments_sample : DecodedAlike [hostPair, submitPair] ∧ ReadWithin (cstr "a=%41") :=
  (cgiArguments_iff [hostPair, submitPair] (by decide)).mpr ⟨by unfold PostSafe; decide, by decide, by decide⟩

-- The last byte of the value is lost, and a percent sign at the end takes the byte behind the NUL.
theorem not_cgiArguments : extractpostargs (some 8) none (queryOf [hostPair]) = ⟨[(cstr "host", cstr "up")], none⟩ ∧
      ¬ DecodedAlike [hostPair] ∧ (extractcgiargs (some (cstr "host=%"))).stop = some .overrun ∧
      ¬ ReadWithin (cstr "host=%") := by
  have lost : extractpostargs (some 8) none (queryOf [hostPair]) = ⟨[(cstr "host", cstr "up")], none⟩ := by decide
  have overrun : (extractcgiargs (some (cstr "host=%"))).stop = some .overrun :=
    (extractcgiargs_overrun (cstr "host=%")).mpr (by decide)
  refine ⟨lost, fun alike => ?_, overrun, fun within => within.1 overrun⟩
  have called := alike.2 none (by decide)
  have length : (queryOf [hostPair]).length = 8 := by decide
  rw [length] at called
  have different := lost.symm.trans called
  revert different
  decide

end Nut
