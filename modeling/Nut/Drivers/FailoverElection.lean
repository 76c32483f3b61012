import Nut.Drivers.FailoverTime
import Nut.Library.RunningBest

set_option autoImplicit false

namespace Nut

def OrderHolds (seconds time now : Int) : Prop :=
  seconds < 0 ∨ seconds > 0 ∧ time ≠ 0 ∧ now - time ≤ seconds

instance (seconds time now : Int) : Decidable (OrderHolds seconds time now) := by
  unfold OrderHolds
  infer_instance

def HasToken (text token : CString) : Prop :=
  token ≠ [] ∧ ∃ before after, text = before ++ token ++ after ∧
    (before = [] ∨ before.getLast? = some 32) ∧ (after = [] ∨ after.head? = some 32)

namespace StatusFilters

-- The conditions of the four lists; a list that is not set makes none.
structure Meets (filters : StatusFilters) (status : CString) : Prop where
  haveAll : ∀ token ∈ filters.haveAll, HasToken status token
  haveAny : filters.haveAny ≠ [] -> ∃ token ∈ filters.haveAny, HasToken status token
  nothaveAny : ∀ token ∈ filters.nothaveAny, ¬ HasToken status token
  nothaveAll : filters.nothaveAll ≠ [] -> ∃ token ∈ filters.nothaveAll, ¬ HasToken status token

def isSet (filters : StatusFilters) : Prop :=
  filters.haveAll ≠ [] ∨ filters.haveAny ≠ [] ∨ filters.nothaveAny ≠ [] ∨ filters.nothaveAll ≠ []

def Accepts (filters : StatusFilters) (ups : UpsDevice) : Prop :=
  filters.isSet ∧ ∃ status, ups.status = some status ∧ status ≠ [] ∧ filters.Meets status

end StatusFilters

namespace UpsDevice

def Ignored (now : Int) (ups : UpsDevice) : Prop :=
  OrderHolds ups.forceIgnore ups.forceIgnoreTime now

def Forced (now : Int) (ups : UpsDevice) : Prop :=
  OrderHolds ups.forcePrimary ups.forcePrimaryTime now

instance (now : Int) (ups : UpsDevice) : Decidable (ups.Ignored now) :=
  inferInstanceAs (Decidable (OrderHolds ..))

instance (now : Int) (ups : UpsDevice) : Decidable (ups.Forced now) :=
  inferInstanceAs (Decidable (OrderHolds ..))

structure Qualifies (args : FailoverArgs) (now : Int) (ups : UpsDevice) : Prop where
  alive : ups.alive = true
  dumped : ups.dumped = true
  heeded : ¬ ups.Ignored now
  admitted : ups.Forced now ∨ args.statusFilters.Accepts ups ∨ args.strictFiltering = 0

inductive Ranked (args : FailoverArgs) (now : Int) (ups : UpsDevice) : UpsPriority -> Prop where
  | forced : ups.Qualifies args now -> ups.Forced now -> Ranked args now ups .forced
  | statusfilters : ups.Qualifies args now -> ¬ ups.Forced now -> args.statusFilters.Accepts ups ->
      Ranked args now ups .statusfilters
  | online : ups.Qualifies args now -> ¬ ups.Forced now -> ¬ args.statusFilters.Accepts ups ->
      ups.dataOk = true -> ups.online = true -> Ranked args now ups .online
  | battery : ups.Qualifies args now -> ¬ ups.Forced now -> ¬ args.statusFilters.Accepts ups ->
      ups.dataOk = true -> ups.online = false -> Ranked args now ups .battery
  | stale : ups.Qualifies args now -> ¬ ups.Forced now -> ¬ args.statusFilters.Accepts ups ->
      ups.dataOk = false -> Ranked args now ups .stale

end UpsDevice

namespace Failover

def comparesRuntime (args : FailoverArgs) (p : UpsPriority) : Prop :=
  args.checkRuntime ≠ 0 ∧ (p = .battery ∨ p = .stale)

-- What `get_primary_candidate` is to choose.
structure Optimal (w : Failover) (now : Int) (choice : Option Nat) : Prop where
  none_ : choice = none ↔ ∀ ups ∈ w.upsList, ¬ ups.Qualifies w.args now
  best : ∀ i, choice = some i -> ∃ ups p, w.upsList[i]? = some ups ∧ ups.Ranked w.args now p ∧
    (∀ other ∈ w.upsList, ∀ q, other.Ranked w.args now q -> p.toInt ≤ q.toInt) ∧
    (¬ comparesRuntime w.args p -> ∀ j other, j < i -> w.upsList[j]? = some other -> ¬ other.Ranked w.args now p) ∧
    (comparesRuntime w.args p -> ∀ other ∈ w.upsList, other.Ranked w.args now p ->
      hasBetterRuntime other.runtime other.runtimeLow ups.runtime ups.runtimeLow w.args.checkRuntime = false)

section Filtering

variable {text token status : CString} {filters : StatusFilters} {ups : UpsDevice}

theorem startsWithToken_split :
    startsWithToken token text = true ↔ ∃ after, text = token ++ after ∧ (after = [] ∨ after.head? = some 32) := by
  rw [startsWithToken, Bool.and_eq_true, List.isPrefixOf_iff_prefix]
  constructor
  · rintro ⟨⟨after, rfl⟩, behind⟩
    refine ⟨after, rfl, ?_⟩
    cases after with
    | nil => exact .inl rfl
    | cons b after => exact .inr (by simpa using behind)
  · rintro ⟨after, rfl, behind⟩
    refine ⟨⟨after, rfl⟩, ?_⟩
    rcases behind with rfl | space
    · simp
    · simp [space]

theorem findToken_split (some_ : token ≠ []) (atStart : Bool) (text : CString) :
    findToken token atStart text = true ↔ ∃ before after, text = before ++ token ++ after ∧
      (if before = [] then atStart = true else before.getLast? = some 32) ∧ (after = [] ∨ after.head? = some 32) := by
  induction text generalizing atStart with
  | nil => simp [findToken, some_]
  | cons b text ih =>
    rw [findToken, Bool.or_eq_true, Bool.and_eq_true, startsWithToken_split, ih]
    constructor
    · rintro (⟨front, after, split, behind⟩ | ⟨before, after, split, front, behind⟩)
      · exact ⟨[], after, split, front, behind⟩
      · refine ⟨b :: before, after, by rw [split]; rfl, ?_, behind⟩
        cases before with
        | nil => simpa using front
        | cons c before => simpa using front
    · rintro ⟨before, after, split, front, behind⟩
      cases before with
      | nil => exact .inl ⟨front, after, split, behind⟩
      | cons c before =>
        obtain ⟨rfl, rest⟩ := List.cons.inj split
        refine .inr ⟨before, after, rest, ?_, behind⟩
        cases before with
        | nil => simpa using front
        | cons d before => simpa using front

theorem strContainsToken_split : strContainsToken text token = true ↔ HasToken text token := by
  by_cases some_ : token = []
  · simp [strContainsToken, HasToken, some_]
  · have found := findToken_split some_ true text
    simp only [strContainsToken, HasToken, ne_eq, some_, not_false_eq_true, decide_true, Bool.true_and, true_and, found]
    refine exists_congr fun before => exists_congr fun after => and_congr_right fun _ => and_congr_left fun _ => ?_
    by_cases front : before = []
    · simp [front]
    · simp [front]

instance (text token : CString) : Decidable (HasToken text token) :=
  decidable_of_iff _ strContainsToken_split

theorem meets_iff : filters.Meets status ↔
    (¬ filters.nothaveAny.any (strContainsToken status ·) = true ∧ filters.haveAll.all (strContainsToken status ·) = true) ∧
      ¬ (filters.nothaveAll ≠ [] ∧ filters.nothaveAll.all (strContainsToken status ·) = true) ∧
        ¬ (filters.haveAny ≠ [] ∧ (!filters.haveAny.any (strContainsToken status ·)) = true) := by
  have found (token : CString) : strContainsToken status token = true ↔ HasToken status token := strContainsToken_split
  simp only [List.any_eq_true, List.all_eq_true, Bool.not_eq_true', <- Bool.not_eq_true, found, not_and, not_exists,
    not_forall, exists_prop]
  constructor
  · intro meets
    refine ⟨⟨meets.nothaveAny, meets.haveAll⟩, meets.nothaveAll, fun set => ?_⟩
    obtain ⟨token, member, present⟩ := meets.haveAny set
    exact ⟨token, member, not_not_intro present⟩
  · rintro ⟨⟨nothaveAny, haveAll⟩, nothaveAll, haveAny⟩
    refine ⟨haveAll, fun set => ?_, nothaveAny, nothaveAll⟩
    obtain ⟨token, member, present⟩ := haveAny set
    exact ⟨token, member, not_not.mp present⟩

theorem passesStatusFilters_iff : passesStatusFilters filters ups = true ↔ filters.Accepts ups := by
  rw [StatusFilters.Accepts, passesStatusFilters.eq_def]
  match status : ups.status with
  | none => simp
  | some [] => simp
  | some (b :: rest) =>
    simp only [Option.some.injEq, exists_eq_left', ne_eq, reduceCtorEq, not_false_eq_true, true_and, meets_iff]
    generalize b :: rest = text
    by_cases unset : filters.haveAny = [] ∧ filters.haveAll = [] ∧ filters.nothaveAny = [] ∧ filters.nothaveAll = []
    · obtain ⟨haveAny, haveAll, nothaveAny, nothaveAll⟩ := unset
      simp [StatusFilters.isSet, haveAny, haveAll, nothaveAny, nothaveAll]
    · have set : filters.isSet := by
        unfold StatusFilters.isSet
        tauto
      simp only [set, true_and]
      rw [if_neg unset]
      generalize filters.nothaveAny.any (strContainsToken text ·) = excluded
      generalize filters.haveAll.all (strContainsToken text ·) = all
      generalize filters.nothaveAll.all (strContainsToken text ·) = allExcluded
      generalize filters.haveAny.any (strContainsToken text ·) = any
      cases excluded <;> cases all <;> simp
      exact and_congr or_iff_not_imp_left or_iff_not_imp_left

end Filtering

section Ranking

variable {args : FailoverArgs} {now : Int} {ups : UpsDevice} {p : UpsPriority}

theorem expired_ignore : (expireIgnored now (expireForced now ups)).forceIgnore < 0 ∨
    (expireIgnored now (expireForced now ups)).forceIgnore > 0 ∧
      (if ups.forceIgnore > 0 then now - ups.forceIgnoreTime else 0) ≤
        (expireIgnored now (expireForced now ups)).forceIgnore ↔ ups.Ignored now := by
  have kept : (expireForced now ups).forceIgnore = ups.forceIgnore ∧
      (expireForced now ups).forceIgnoreTime = ups.forceIgnoreTime := by
    unfold expireForced
    split_ifs <;> exact ⟨rfl, rfl⟩
  have expiry : (expireIgnored now (expireForced now ups)).forceIgnore =
      if ups.forceIgnore > 0 ∧ (ups.forceIgnoreTime = 0 ∨ now - ups.forceIgnoreTime > ups.forceIgnore) then 0
      else ups.forceIgnore := by
    rw [expireIgnored, kept.1, kept.2]
    split_ifs <;> simp only [kept.1]
  rw [UpsDevice.Ignored, OrderHolds, expiry]
  split_ifs <;> omega

theorem expired_force : (expireIgnored now (expireForced now ups)).forcePrimary < 0 ∨
    (expireIgnored now (expireForced now ups)).forcePrimary > 0 ∧
      (if ups.forcePrimary > 0 then now - ups.forcePrimaryTime else 0) ≤
        (expireIgnored now (expireForced now ups)).forcePrimary ↔ ups.Forced now := by
  have kept : (expireIgnored now (expireForced now ups)).forcePrimary = (expireForced now ups).forcePrimary := by
    unfold expireIgnored
    split_ifs <;> rfl
  have expiry : (expireForced now ups).forcePrimary =
      if ups.forcePrimary > 0 ∧ (ups.forcePrimaryTime = 0 ∨ now - ups.forcePrimaryTime > ups.forcePrimary) then 0
      else ups.forcePrimary := by
    unfold expireForced
    split_ifs <;> rfl
  rw [UpsDevice.Forced, OrderHolds, kept, expiry]
  split_ifs <;> omega

theorem expired_kept : (rate args now ups).runtime = ups.runtime ∧ (rate args now ups).runtimeLow = ups.runtimeLow ∧
    (expireIgnored now (expireForced now ups)).alive = ups.alive ∧
    (expireIgnored now (expireForced now ups)).dumped = ups.dumped ∧
    (expireIgnored now (expireForced now ups)).dataOk = ups.dataOk ∧
    (expireIgnored now (expireForced now ups)).online = ups.online ∧
    (expireIgnored now (expireForced now ups)).status = ups.status := by
  unfold rate expireIgnored expireForced
  dsimp only
  split_ifs <;> exact ⟨rfl, rfl, rfl, rfl, rfl, rfl, rfl⟩

theorem rate_priority : (rate args now ups).priority =
    if (ups.alive && ups.dumped) = false ∨ ups.Ignored now then .skipped
    else if ups.Forced now then .forced
    else if passesStatusFilters args.statusFilters ups then .statusfilters
    else if args.strictFiltering ≠ 0 then .skipped
    else if ups.dataOk && ups.online then .online
    else if ups.dataOk then .battery
    else .stale := by
  obtain ⟨-, -, alive, dumped, dataOk, online, status⟩ := @expired_kept args now ups
  have ignored := @expired_ignore now ups
  have forced := @expired_force now ups
  unfold rate candidacy
  dsimp only
  generalize expireIgnored now (expireForced now ups) = expired at alive dumped dataOk online status ignored forced
  have filters : passesStatusFilters args.statusFilters expired = passesStatusFilters args.statusFilters ups := by
    rw [passesStatusFilters.eq_def, passesStatusFilters.eq_def _ ups, status]
  rw [alive, dumped, dataOk, online, filters]
  by_cases up : (ups.alive && ups.dumped) = true
  · rw [if_pos up]
    by_cases heeded : ups.Ignored now
    · have out : (ups.alive && ups.dumped) = false ∨ ups.Ignored now := .inr heeded
      rw [if_pos out]
      rcases ignored.mpr heeded with negative | timed
      · rw [if_pos negative]
      · rw [if_pos timed, ite_self]
    · have neither := not_or.mp (ignored.not.mpr heeded)
      have inside : ¬ ((ups.alive && ups.dumped) = false ∨ ups.Ignored now) := by simp [up, heeded]
      rw [if_neg neither.1, if_neg neither.2, if_neg inside]
      by_cases first : ups.Forced now
      · rw [if_pos first]
        rcases forced.mpr first with negative | timed
        · rw [if_pos negative]
        · rw [if_pos timed, ite_self]
      · have neither := not_or.mp (forced.not.mpr first)
        rw [if_neg neither.1, if_neg neither.2, if_neg first]
  · have out : (ups.alive && ups.dumped) = false ∨ ups.Ignored now := .inl (Bool.not_eq_true _ ▸ up)
    rw [if_neg up, if_pos out]

theorem ranked_rate (ranked : ups.Ranked args now p) : (rate args now ups).priority = p := by
  have admitted (qualifies : ups.Qualifies args now) : ¬ ((ups.alive && ups.dumped) = false ∨ ups.Ignored now) := by
    simp [qualifies.alive, qualifies.dumped, qualifies.heeded]
  have loose (qualifies : ups.Qualifies args now) (free : ¬ ups.Forced now)
      (others : ¬ args.statusFilters.Accepts ups) : ¬ args.strictFiltering ≠ 0 :=
    not_not_intro ((qualifies.admitted.resolve_left free).resolve_left others)
  rw [rate_priority]
  cases ranked with
  | forced qualifies forced => rw [if_neg (admitted qualifies), if_pos forced]
  | statusfilters qualifies free accepts =>
    rw [if_neg (admitted qualifies), if_neg free, if_pos (passesStatusFilters_iff.mpr accepts)]
  | online qualifies free others fresh online =>
    rw [if_neg (admitted qualifies), if_neg free, if_neg (passesStatusFilters_iff.not.mpr others),
      if_neg (loose qualifies free others), fresh, online]
    rfl
  | battery qualifies free others fresh online =>
    rw [if_neg (admitted qualifies), if_neg free, if_neg (passesStatusFilters_iff.not.mpr others),
      if_neg (loose qualifies free others), fresh, online]
    rfl
  | stale qualifies free others stale =>
    rw [if_neg (admitted qualifies), if_neg free, if_neg (passesStatusFilters_iff.not.mpr others),
      if_neg (loose qualifies free others), stale]
    rfl

theorem qualifies_ranked (qualifies : ups.Qualifies args now) : ∃ p, ups.Ranked args now p := by
  by_cases forced : ups.Forced now
  · exact ⟨_, .forced qualifies forced⟩
  by_cases accepts : args.statusFilters.Accepts ups
  · exact ⟨_, .statusfilters qualifies forced accepts⟩
  cases fresh : ups.dataOk with
  | false => exact ⟨_, .stale qualifies forced accepts fresh⟩
  | true =>
    cases online : ups.online with
    | false => exact ⟨_, .battery qualifies forced accepts fresh online⟩
    | true => exact ⟨_, .online qualifies forced accepts fresh online⟩

theorem ranked_qualifies (ranked : ups.Ranked args now p) : ups.Qualifies args now := by
  cases ranked <;> assumption

theorem rate_ranked (some_ : p ≠ .skipped) : (rate args now ups).priority = p ↔ ups.Ranked args now p := by
  refine ⟨fun rated => ?_, ranked_rate⟩
  by_cases qualifies : ups.Qualifies args now
  · obtain ⟨q, ranked⟩ := qualifies_ranked qualifies
    rw [ranked_rate ranked] at rated
    exact rated ▸ ranked
  · refine absurd rated fun rated => ?_
    rw [rate_priority] at rated
    by_cases out : (ups.alive && ups.dumped) = false ∨ ups.Ignored now
    · rw [if_pos out] at rated
      exact some_ rated.symm
    · rw [if_neg out] at rated
      rw [not_or, Bool.not_eq_false, Bool.and_eq_true] at out
      have unadmitted (admitted : ups.Forced now ∨ args.statusFilters.Accepts ups ∨ args.strictFiltering = 0) : False :=
        qualifies ⟨out.1.1, out.1.2, out.2, admitted⟩
      rw [if_neg fun forced => unadmitted (.inl forced),
        if_neg fun passes => unadmitted (.inr (.inl (passesStatusFilters_iff.mp passes))),
        if_pos fun loose => unadmitted (.inr (.inr loose))] at rated
      exact some_ rated.symm

end Ranking

section Electing

variable {args : FailoverArgs} {now : Int} {ups : UpsDevice} {p : UpsPriority}

-- What `consider` replaces its choice for.
def beats (args : FailoverArgs) (a b : UpsDevice × Nat) : Prop :=
  a.1.priority.toInt < b.1.priority.toInt ∨ a.1.priority = b.1.priority ∧ comparesRuntime args a.1.priority ∧
    hasBetterRuntime a.1.runtime a.1.runtimeLow b.1.runtime b.1.runtimeLow args.checkRuntime = true

theorem toInt_inj {p q : UpsPriority} : p.toInt = q.toInt ↔ p = q := by
  cases p <;> cases q <;> decide

theorem hasBetterRuntime_self (rt rtLow mode : Int) : hasBetterRuntime rt rtLow rt rtLow mode = false := by
  unfold hasBetterRuntime
  split <;> simp

theorem hasBetterRuntime_trans {aRt aLow bRt bLow cRt cLow mode : Int}
    (first : hasBetterRuntime aRt aLow bRt bLow mode = true) (second : hasBetterRuntime bRt bLow cRt cLow mode = true) :
    hasBetterRuntime aRt aLow cRt cLow mode = true := by
  unfold hasBetterRuntime at *
  split at first <;> simp_all <;> omega

instance : Std.Irrefl (beats args) where
  irrefl a beaten := by
    rcases beaten with lower | ⟨-, -, better⟩
    · omega
    · rw [hasBetterRuntime_self] at better
      cases better

instance : IsTrans (UpsDevice × Nat) (beats args) where
  trans a b c first second := by
    rcases first with lower | ⟨same, compared, better⟩
    · rcases second with lower' | ⟨same, -, -⟩
      · exact .inl (by omega)
      · exact .inl (by rwa [<- same])
    · rcases second with lower' | ⟨same', -, better'⟩
      · exact .inl (by rwa [same])
      · exact .inr ⟨same.trans same', compared, hasBetterRuntime_trans better better'⟩

def candidate (entry : UpsDevice × Nat) : Bool :=
  entry.1.priority ≠ .skipped

def Elected (args : FailoverArgs) (entries : List (UpsDevice × Nat)) (best : Election) : Prop :=
  (entries.filter candidate = [] ∧ best.choice = none ∧ best.priority = 100) ∨
    ∃ entry, RunningBest (beats args) (entries.filter candidate) entry ∧ best.choice = some entry.2 ∧
      best.priority = entry.1.priority.toInt ∧ best.runtime = entry.1.runtime ∧ best.runtimeLow = entry.1.runtimeLow

theorem comparesRuntime_iff : comparesRuntime args p ↔ args.checkRuntime ≠ 0 ∧ p.toInt ≥ UpsPriority.battery.toInt := by
  unfold comparesRuntime
  cases p <;> simp [UpsPriority.toInt]

theorem candidate_toInt (entry : UpsDevice × Nat) : candidate entry = true ↔ ¬ entry.1.priority.toInt < 0 := by
  unfold candidate
  cases entry.1.priority <;> decide

theorem consider_elected {entries : List (UpsDevice × Nat)} {best : Election} (elected : Elected args entries best)
    (entry : UpsDevice × Nat) : Elected args (entries ++ [entry]) (consider args best entry.2 entry.1) := by
  unfold consider
  dsimp only
  by_cases out : entry.1.priority.toInt < 0
  · have skipped : (entries ++ [entry]).filter candidate = entries.filter candidate := by
      have refused : ¬ candidate entry = true := fun taken => (candidate_toInt entry).mp taken out
      rw [List.filter_append, List.filter_cons_of_neg refused, List.filter_nil, List.append_nil]
    rw [if_pos out, Elected, skipped]
    exact elected
  · have listed : (entries ++ [entry]).filter candidate = entries.filter candidate ++ [entry] := by
      rw [List.filter_append, List.filter_cons_of_pos ((candidate_toInt entry).mpr out), List.filter_nil]
    rw [if_neg out, Elected, listed]
    rcases elected with ⟨none_, choice, priority⟩ | ⟨chosen, running, choice, priority, runtime, runtimeLow⟩
    · have small : entry.1.priority.toInt < best.priority := by
        rw [priority]
        cases entry.1.priority <;> decide
      rw [if_pos small, none_]
      exact .inr ⟨entry, .single, rfl, rfl, rfl, rfl⟩
    · by_cases lower : entry.1.priority.toInt < best.priority
      · rw [if_pos lower]
        rw [priority] at lower
        exact .inr ⟨entry, running.replace (.inl lower), rfl, rfl, rfl, rfl⟩
      · rw [if_neg lower]
        rw [priority, runtime, runtimeLow] at *
        split_ifs with better
        · obtain ⟨same, checked, late, better⟩ := better
          exact .inr ⟨entry, running.replace (.inr ⟨toInt_inj.mp same, comparesRuntime_iff.mpr ⟨checked, late⟩, better⟩),
            rfl, same.symm, rfl, rfl⟩
        · refine .inr ⟨chosen, running.keep ?_, choice, priority, runtime, runtimeLow⟩
          rintro (lower' | ⟨same, compared, better'⟩)
          · exact lower lower'
          · obtain ⟨checked, late⟩ := comparesRuntime_iff.mp compared
            exact better ⟨toInt_inj.mpr same, checked, late, better'⟩

theorem elected_all (args : FailoverArgs) (entries : List (UpsDevice × Nat)) :
    Elected args entries (entries.foldl (fun best entry => consider args best entry.2 entry.1)
      { choice := none, priority := 100, runtime := -1, runtimeLow := -1, primaries := 0 }) := by
  induction entries using List.reverseRecOn with
  | nil => exact .inl ⟨rfl, rfl, rfl⟩
  | append_singleton entries entry ih =>
    rw [List.foldl_append]
    exact consider_elected ih entry

end Electing

section Claims

variable {w : Failover} {now : Int}

theorem rate_qualifies (args : FailoverArgs) (ups : UpsDevice) :
    (rate args now ups).priority ≠ .skipped ↔ ups.Qualifies args now := by
  constructor
  · intro rated
    exact ranked_qualifies ((rate_ranked rated).mp rfl)
  · intro qualifies skipped
    obtain ⟨p, ranked⟩ := qualifies_ranked qualifies
    rw [ranked_rate ranked] at skipped
    subst skipped
    cases ranked

theorem mem_entries {entry : UpsDevice × Nat} : entry ∈ ((w.upsList.map (rate w.args now)).zipIdx.filter candidate) ↔
      ∃ ups, w.upsList[entry.2]? = some ups ∧ entry.1 = rate w.args now ups ∧ ups.Qualifies w.args now := by
  rw [List.mem_filter, List.mem_zipIdx_iff_getElem?, List.getElem?_map, Option.map_eq_some_iff, candidate,
    decide_eq_true_eq]
  constructor
  · rintro ⟨⟨ups, place, rated⟩, kept⟩
    rw [<- rated, rate_qualifies] at kept
    exact ⟨ups, place, rated.symm, kept⟩
  · rintro ⟨ups, place, rated, qualifies⟩
    refine ⟨⟨ups, place, rated.symm⟩, ?_⟩
    rw [rated, rate_qualifies]
    exact qualifies

theorem entry_of {other : UpsDevice} {q : UpsPriority} (member : other ∈ w.upsList) (ranked : other.Ranked w.args now q) :
    ∃ j, (rate w.args now other, j) ∈ (w.upsList.map (rate w.args now)).zipIdx.filter candidate := by
  obtain ⟨j, place⟩ := List.mem_iff_getElem?.mp member
  exact ⟨j, mem_entries.mpr ⟨other, place, rfl, ranked_qualifies ranked⟩⟩

theorem entries_ordered (l : List UpsDevice) : (l.zipIdx.filter candidate).Pairwise fun a b => a.2 < b.2 := by
  have places : (l.zipIdx.map Prod.snd).Pairwise (· < ·) := by
    rw [List.zipIdx_map_snd]
    exact List.pairwise_lt_range'
  exact (List.pairwise_map.mp places).filter _

theorem optimal_of_elected {best : Election}
    (elected : Elected w.args (w.upsList.map (rate w.args now)).zipIdx best) : w.Optimal now best.choice := by
  rcases elected with ⟨none_, choice, -⟩ | ⟨entry, running, choice, -⟩
  · refine ⟨⟨fun _ ups member qualifies => ?_, fun _ => choice⟩, fun i found => ?_⟩
    · obtain ⟨p, ranked⟩ := qualifies_ranked qualifies
      obtain ⟨j, listed⟩ := entry_of member ranked
      rw [none_] at listed
      cases listed
    · rw [choice] at found
      cases found
  · obtain ⟨ups, place, rated, qualifies⟩ := mem_entries.mp running.mem
    refine ⟨⟨fun none_ => ?_, fun none_ => absurd qualifies (none_ ups (List.mem_of_getElem? place))⟩, fun i found => ?_⟩
    · rw [choice] at none_
      cases none_
    · obtain rfl : entry.2 = i := Option.some.inj (choice.symm.trans found)
      obtain ⟨p, ranked⟩ := qualifies_ranked qualifies
      have priority : entry.1.priority = p := by rw [rated, ranked_rate ranked]
      refine ⟨ups, p, place, ranked, fun other member q ranked' => ?_, fun alone j other earlier there ranked' => ?_,
        fun compared other member ranked' => ?_⟩
      · obtain ⟨j, listed⟩ := entry_of member ranked'
        have unbeaten := running.unbeaten _ listed
        by_contra lower
        refine unbeaten (.inl ?_)
        rw [priority]
        simp only [ranked_rate ranked']
        omega
      · have listed : (rate w.args now other, j) ∈ (w.upsList.map (rate w.args now)).zipIdx.filter candidate :=
          mem_entries.mpr ⟨other, there, rfl, ranked_qualifies ranked'⟩
        obtain ⟨before, after, split, others⟩ := running.place
        have ordered := entries_ordered (w.upsList.map (rate w.args now))
        rw [split] at listed ordered
        rcases List.mem_append.mp listed with front | behind
        · obtain ⟨loser, beaten, unbeaten⟩ := others _ front
          rcases beaten with lower | ⟨-, compared, -⟩
          · refine unbeaten (.inl ?_)
            rw [priority] at lower
            simpa only [ranked_rate ranked'] using lower
          · exact alone (priority ▸ compared)
        · rcases List.mem_cons.mp behind with same | behind
          · rw [<- same] at earlier
            exact lt_irrefl _ earlier
          · have later := (List.pairwise_cons.mp (List.pairwise_append.mp ordered).2.1).1 _ behind
            exact lt_asymm earlier later
      · obtain ⟨j, listed⟩ := entry_of member ranked'
        have unbeaten := running.unbeaten _ listed
        obtain ⟨runtime, runtimeLow, -⟩ := @expired_kept w.args now ups
        obtain ⟨runtime', runtimeLow', -⟩ := @expired_kept w.args now other
        by_contra better
        refine unbeaten (.inr ⟨?_, ?_, ?_⟩)
        · rw [priority]
          exact ranked_rate ranked'
        · simpa only [ranked_rate ranked'] using compared
        · simpa [rated, runtime, runtimeLow, runtime', runtimeLow'] using better

theorem getPrimaryCandidate_optimal (w : Failover) (now : Int) : w.Optimal now (w.getPrimaryCandidate now).2 ∧
      ∀ ups, passesStatusFilters w.args.statusFilters ups = true ↔ w.args.statusFilters.Accepts ups :=
  ⟨optimal_of_elected (elected_all w.args _), fun _ => passesStatusFilters_iff⟩

-- A status that meets every condition, as there is none, is not accepted.
theorem unset_filters_refuse : ¬ ∀ (filters : StatusFilters) (ups : UpsDevice) (status : CString),
    ups.status = some status -> (passesStatusFilters filters ups = true ↔ filters.Meets status) := by
  intro all
  obtain ⟨ups, status⟩ : ∃ ups : UpsDevice, ups.status = some (cstr "OL") :=
    ⟨{ sampleStart.upsList.head (by decide) with status := some (cstr "OL") }, rfl⟩
  let filters := sampleStart.args.statusFilters
  have meets : filters.Meets (cstr "OL") := ⟨by decide, fun set => absurd rfl set, by decide, fun set => absurd rfl set⟩
  have passes := (all filters ups (cstr "OL") status).mpr meets
  rw [passesStatusFilters_iff] at passes
  exact absurd passes.1 (by unfold StatusFilters.isSet; decide)

end Claims

end Failover

end Nut
