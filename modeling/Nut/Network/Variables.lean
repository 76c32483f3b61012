import Nut.Common.StateLists
import Nut.Network.Exchange
import Nut.Server.Incremental
import Nut.Server.Replay

set_option autoImplicit false

namespace Nut

def Dstate.text (d : Dstate) (var : CString) : Option CString :=
  (stateTreeFind d.dtreeRoot var).map fun node => fitPrefix (stMaxValueLen - 1) node.raw

structure Asked (upsname var : CString) : Prop where
  bare : BareWord upsname ∧ BareWord var
  local_ : isCommand (var.take 7) "server." = false
  short : upsname.length + var.length ≤ 243

section Words

variable {upsname var : CString}

theorem askable_bare {word : CString} (bare : BareWord word) : Askable word := by
  obtain ⟨nonempty, -, bare⟩ := bare
  refine ⟨.inr (.inl ⟨nonempty, fun member => ?_⟩), fun b member => (isBare_iff.mp (bare b member)).1⟩
  exact (isBare_iff.mp (bare 61 member)).2.2.2.1 rfl

theorem length_fieldOf_bare {word : CString} (bare : BareWord word) : (fieldOf word).length ≤ 2 * word.length := by
  obtain ⟨-, -, bare⟩ := bare
  have unspaced : 32 ∉ word := fun member => (isBare_iff.mp (bare 32 member)).2.1 rfl
  rw [fieldOf, if_neg unspaced]
  exact escapeAll_shorter word

theorem request_fits (asked : Asked upsname var) : (cmdText (cstr "GET") [cstr "VAR", upsname, var]).length ≤ 510 := by
  obtain ⟨⟨bareUps, bareVar⟩, -, short⟩ := asked
  have first := length_fieldOf_bare bareUps
  have second := length_fieldOf_bare bareVar
  have keyword : (fieldOf (cstr "VAR")).length = 3 := by decide
  have command : (cstr "GET").length = 3 := rfl
  simp only [cmdText, List.flatMap_cons, List.flatMap_nil, List.length_append, List.length_cons, List.length_nil]
  omega

theorem askable_query (asked : Asked upsname var) : ∀ word ∈ [cstr "VAR", upsname, var], Askable word := by
  have keyword : BareWord (cstr "VAR") := by decide
  simpa using ⟨askable_bare keyword, askable_bare asked.bare.1, askable_bare asked.bare.2⟩

theorem lineOf_value (asked : Asked upsname var) {written meaning : CString} (quoted : QuotedAs written meaning) :
    LineOf (cstr "VAR" ++ [32] ++ (upsname ++ [32] ++ (var ++ [32] ++ (34 :: written ++ [34]))))
      [cstr "VAR", upsname, var, meaning] := by
  have keyword : BareWord (cstr "VAR") := by decide
  exact .ofToken keyword.token (.ofToken asked.bare.1.token (.ofToken asked.bare.2.token (.last (token_quoted quoted))))

def shownValue (fsd : Bool) (var text : CString) : CString :=
  if isCommand var "ups.status" ∧ fsd then cstr "FSD " ++ text else text

def valueReply (fsd : Bool) (upsname var val : CString) : Reply :=
  if isCommand var "ups.status" ∧ fsd then .valueFsd upsname var val else .value "VAR" upsname var val

theorem valueReply_format (fsd : Bool) (val : CString) : (valueReply fsd upsname var val).format =
      cstr "VAR" ++ [32] ++ (upsname ++ [32] ++ (var ++ [32] ++ (34 :: shownValue fsd var val ++ [34]))) ++ [10] := by
  unfold valueReply shownValue
  split
  · simp [Reply.format, show cstr "VAR " = cstr "VAR" ++ [32] from rfl, show cstr " " = [32] from rfl,
      show cstr " \"FSD " = [32, 34] ++ cstr "FSD " from rfl, show cstr "\"\n" = [34, 10] from rfl]
  · simp [Reply.format, show cstr " " = [32] from rfl, show cstr " \"" = [32, 34] from rfl,
      show cstr "\"\n" = [34, 10] from rfl]

theorem quotedAs_append {a b c d : CString} (first : QuotedAs a b) (second : QuotedAs c d) : QuotedAs (a ++ c) (b ++ d) := by
  induction first with
  | nil => exact second
  | raw isText noQuote noEscape _ ih => exact .raw isText noQuote noEscape ih
  | escaped isText _ ih => exact .escaped isText ih

theorem quotedAs_shown (fsd : Bool) {written meaning : CString} (quoted : QuotedAs written meaning) :
    QuotedAs (shownValue fsd var written) (shownValue fsd var meaning) := by
  have mark : QuotedAs (cstr "FSD ") (cstr "FSD ") := quotedAs_plain (by unfold Plain; decide)
  unfold shownValue
  split
  · exact quotedAs_append mark quoted
  · exact quoted

theorem quotedAs_length {written meaning : CString} (quoted : QuotedAs written meaning) : meaning.length ≤ written.length := by
  induction quoted with
  | nil => simp
  | raw _ _ _ _ ih => simpa using ih
  | escaped _ _ ih => simp; omega

theorem shownValue_length (fsd : Bool) (var text : CString) : (shownValue fsd var text).length ≤ text.length + 4 := by
  have mark : (cstr "FSD ").length = 4 := rfl
  unfold shownValue
  split
  · rw [List.length_append]
    omega
  · omega

end Words

theorem val_quoted {node : StNode} (ok : NodeOk node) :
    QuotedAs node.val (fitPrefix (stMaxValueLen - 1) node.raw) ∧ node.val.length ≤ 255 := by
  have encoded : node.val = escapeAll (fitPrefix (stMaxValueLen - 1) node.raw) := by
    rw [node.escaped, valEscape_eq, pconfEncode_eq (by decide)]
  have short := escapeAll_fitPrefix_length (stMaxValueLen - 1) node.raw
  rw [encoded]
  exact ⟨quotedAs_escapeAll (isText_initial (fitPrefix_initial _ _) ok.raw), short⟩

section Read

variable {w : Upsd} {id : Nat} {client : Client} {conn : Upsconn} {ups : Upstype} {upsname var : CString}

structure Available (w : Upsd) (upsname : CString) (ups : Upstype) : Prop where
  found : getUpsPtr w upsname = some ups
  connected : ups.connected = true
  fresh : ups.stale = false

theorem netGet_var (available : Available w upsname ups) (asked : Asked upsname var) (client : Client) :
    netGet w client [cstr "VAR", upsname, var] =
      match stateGetinfo ups.inforoot var with
      | none => w.reply client.id (.err "VAR-NOT-SUPPORTED")
      | some val => w.reply client.id (valueReply ups.fsd upsname var val) := by
  have command : netGet w client [cstr "VAR", upsname, var] = getVar w client upsname var := rfl
  rw [command, getVar, asked.local_, if_neg Bool.false_ne_true, withUps, available.found]
  simp only [ifAvailable, available.connected, available.fresh]
  cases stateGetinfo ups.inforoot var with
  | none => rfl
  | some val =>
    simp only [valueReply, Bool.not_true, Bool.false_eq_true, if_false]
    split <;> rfl

theorem getInfo_text {d : Dstate} (ok : DstateOk d) {val : CString} (known : stateGetinfo d.dtreeRoot var = some val) :
    ∃ text, d.text var = some text ∧ QuotedAs val text ∧ val.length ≤ 255 := by
  obtain ⟨node, found, rfl⟩ := Option.map_eq_some_iff.mp known
  obtain ⟨quoted, short⟩ := val_quoted (ok.nodes node ((stateTreeFind_iff ok.ordered).mp found).1)
  exact ⟨_, by rw [Dstate.text, found]; rfl, quoted, short⟩

theorem exchange_var (cutting : Cutting) (now : Int) (bufsize : Nat) (linked : Linked w id client conn) (writes : w.writes = [])
    (available : Available w upsname ups) (asked : Asked upsname var) {d : Dstate} (ok : DstateOk d)
    (same : stateGetinfo ups.inforoot var = stateGetinfo d.dtreeRoot var) :
    let done := exchange cutting now id w conn [cstr "VAR", upsname, var] bufsize
    done.value = (d.text var).map (fun text => snprintf bufsize (shownValue ups.fsd var text)) ∧
      (∃ client', Linked done.upsd id client' done.ups) ∧
      done.upsd.firstups = w.firstups ∧ done.upsd.writes = [] := by
  intro done
  have written : w.nextWrite = true := by rw [Upsd.nextWrite, writes]; rfl
  have still {after : Upsd} {reply : Reply} (replied : RepliedTo w after id reply) : after.firstups = w.firstups ∧ after.writes = [] :=
    ⟨replied.others.1, by rw [replied.writes, writes]; rfl⟩
  have heard : Available (w.updateClient id (Client.hear now)) upsname ups :=
    { available with }
  have itself : (client.hear now).id = id := (findClient_spec linked.found).2
  have serves := netGet_var heard asked (client.hear now)
  rw [same, itself] at serves
  have request := request_fits asked
  have askable := askable_query asked
  cases known : stateGetinfo d.dtreeRoot var with
  | none =>
    rw [known] at serves
    have served := serves_request now linked written askable (by simp) request serves
    obtain ⟨value, linked'⟩ := @exchange_error w id client conn [cstr "VAR", upsname, var] (cstr "ERR VAR-NOT-SUPPORTED") _ cutting now
      bufsize linked (by simp) served rfl (by decide) (by decide) .varnotsupp (by decide)
    have absent : d.text var = none := by
      simpa [Dstate.text, stateGetinfo] using known
    exact ⟨by rw [absent]; exact value, linked', still served⟩
  | some val =>
    obtain ⟨text, holds, quoted, length⟩ := getInfo_text ok known
    rw [known] at serves
    have served := serves_request now linked written askable (by simp) request serves
    have line := lineOf_value asked (@quotedAs_shown var ups.fsd _ _ quoted)
    have format := @valueReply_format upsname var ups.fsd val
    have shorter := quotedAs_length quoted
    have written := shownValue_length ups.fsd var val
    have shown := shownValue_length ups.fsd var text
    have names := asked.short
    have keyword : (cstr "VAR").length = 3 := rfl
    obtain ⟨value, linked'⟩ := exchange_reply cutting now bufsize linked (by simp) served format line (by simp)
      (by simp only [List.forall_mem_cons, List.not_mem_nil, false_imp_iff, implies_true, and_true]; omega)
      (by simp only [List.length_append, List.length_cons, List.length_nil]; omega) rfl (by simp [Echoes]) rfl
    exact ⟨by rw [holds]; exact value, linked', still served⟩

end Read

end Nut
