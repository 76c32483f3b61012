import Nut.Clients.UpsmonTokens

set_option autoImplicit false

namespace Nut

open UpsPoll

-- A UPS with its `status_tokens`.
structure UpsStatus where
  poll : UpsPoll
  other : OtherTokens

def OtherNotice.announce (p : UpsPoll) : OtherNotice -> UpsPoll
  | .other words => p.doNotify .other (some words)
  | .notother => p.doNotify .notother none

-- The tokens do without the flags and the times, and these without the tokens. `monotonic` is the clock of
-- `state_get_timestamp`.
def UpsStatus.parseStatus (conf : UpsmonConf) (clock monotonic : Nat -> Int) (s : UpsStatus) (report : Report) : UpsStatus :=
  let parsed := s.other.parse monotonic report.status
  { poll := parsed.2.foldl OtherNotice.announce (s.poll.parseStatus conf clock report), other := parsed.1 }

-- The tree of the tokens can still be walked, and the flags are those of the words.
structure UpsStatus.Shows (status : CString) (s : UpsStatus) : Prop where
  tree : ∃ t, s.other.tokens = some t ∧ Ordered t
  flags : FlagsShow status s.poll

def UpsStatus.fresh (shared : UpsmonShared) (sys : CString) (pv : UInt32) (un pw : CString) (isPrimary : Bool) (ticks : Nat) :
    UpsStatus :=
  { poll := freshPoll shared sys pv un pw isPrimary, other := .fresh ticks }

section Parsing

variable (conf : UpsmonConf) (clock : Nat -> Int) {monotonic : Nat -> Int} {s : UpsStatus} {entry : Tracked}

theorem announce_ups (notices : List OtherNotice) (p : UpsPoll) : (notices.foldl OtherNotice.announce p).ups = p.ups := by
  induction notices generalizing p with
  | nil => rfl
  | cons notice rest ih =>
    rw [List.foldl_cons, ih]
    cases notice <;> rfl

theorem inTurns_announce (member : entry ∈ announcedBothWays) (notices : List OtherNotice) {p : UpsPoll} (turns : InTurns entry p) :
    InTurns entry (notices.foldl OtherNotice.announce p) := by
  have others : ∀ entry ∈ announcedBothWays, ∀ type ∈ [NotifyType.other, .notother], type ≠ entry.enter ∧ some type ≠ entry.leave := by
    decide
  induction notices generalizing p with
  | nil => exact turns
  | cons notice rest ih =>
    apply ih
    cases notice with
    | other words => exact inTurns_notice turns (others entry member .other (by simp))
    | notother => exact inTurns_notice turns (others entry member .notother (by simp))

theorem inTurns_status (member : entry ∈ announcedBothWays) {report : Report} (nonempty : report.status ≠ [])
    (turns : InTurns entry s.poll) : InTurns entry (s.parseStatus conf clock monotonic report).poll :=
  inTurns_announce member _ (inTurns_parseStatus member nonempty turns)

theorem inTurns_reports (member : entry ∈ announcedBothWays) {reports : List Report}
    (nonempty : ∀ report ∈ reports, report.status ≠ []) (turns : InTurns entry s.poll) :
    InTurns entry (reports.foldl (UpsStatus.parseStatus conf clock monotonic) s).poll := by
  induction reports generalizing s with
  | nil => exact turns
  | cons report rest ih =>
    exact ih (fun r isLater => nonempty r (List.mem_cons_of_mem _ isLater))
      (inTurns_status conf clock member (nonempty report List.mem_cons_self) turns)

theorem tree_kept (monotone : ∀ m n, m ≤ n -> monotonic m ≤ monotonic n) (tree : ∃ t, s.other.tokens = some t ∧ Ordered t)
    {report : Report} (nonempty : report.status ≠ []) (keeps : KeepsTree monotonic s.other report.status) :
    ∃ t, (s.parseStatus conf clock monotonic report).other.tokens = some t ∧ Ordered t := by
  obtain ⟨t, is, ordered⟩ := tree
  obtain ⟨rest, changed, orderedRest, _, _, parse⟩ := parse_keeps monotone is ordered nonempty keeps
  rw [UpsStatus.parseStatus, parse]
  dsimp only
  split_ifs
  · exact ⟨rest, rfl, orderedRest⟩
  · exact ⟨rest, rfl, orderedRest⟩
  · exact ⟨.nil, rfl, trivial⟩

theorem shows_iff (monotone : ∀ m n, m ≤ n -> monotonic m ≤ monotonic n) {last : CString} (shows : s.Shows last) {report : Report}
    (nonempty : report.status ≠ []) (keeps : KeepsTree monotonic s.other report.status) :
    (s.parseStatus conf clock monotonic report).Shows report.status ↔ Follows last report.status := by
  have flags : FlagsShow report.status (s.parseStatus conf clock monotonic report).poll ↔
      FlagsShow report.status (s.poll.parseStatus conf clock report) := by
    unfold FlagsShow isset
    rw [UpsStatus.parseStatus, announce_ups]
  rw [<- flagsShow_iff conf clock shows.flags nonempty, <- flags]
  exact ⟨UpsStatus.Shows.flags, fun shown => ⟨tree_kept conf clock monotone shows.tree nonempty keeps, shown⟩⟩

variable (monotonic) in
def AlwaysShows (s : UpsStatus) (reports : List Report) : Prop :=
  Always (UpsStatus.parseStatus conf clock monotonic)
    (EachAction fun s report => (s.parseStatus conf clock monotonic report).Shows report.status) s reports

variable (monotonic) in
def TreeKept (s : UpsStatus) (reports : List Report) : Prop :=
  Always (UpsStatus.parseStatus conf clock monotonic) (EachAction fun s report => KeepsTree monotonic s.other report.status) s reports

theorem alwaysShows_iff (monotone : ∀ m n, m ≤ n -> monotonic m ≤ monotonic n) {last : CString} (shows : s.Shows last)
    {reports : List Report} (nonempty : ∀ report ∈ reports, report.status ≠ []) (kept : TreeKept conf clock monotonic s reports) :
    AlwaysShows conf clock monotonic s reports ↔ (last :: reports.map Report.status).IsChain Follows := by
  induction reports generalizing s last with
  | nil => simp [AlwaysShows, Always, EachAction]
  | cons report rest ih =>
    have iff := shows_iff conf clock monotone shows (nonempty report List.mem_cons_self) kept.1
    have later (shown : (s.parseStatus conf clock monotonic report).Shows report.status) :=
      ih shown (fun r member => nonempty r (List.mem_cons_of_mem _ member)) kept.2
    rw [List.map_cons, List.isChain_cons_cons, <- iff]
    constructor
    · rintro ⟨shown, rest⟩
      exact ⟨shown, (later shown).mp rest⟩
    · rintro ⟨shown, rest⟩
      exact ⟨shown, (later shown).mpr rest⟩

end Parsing

-- As long as no link is left to a token that is freed, the flags show the words of the last status and the announcements take
-- turns exactly when no word that one status has stands in the next one as a part of other words only.
theorem flags_show_words (conf : UpsmonConf) (clock monotonic : Nat -> Int) (monotone : ∀ m n, m ≤ n -> monotonic m ≤ monotonic n)
    (shared : UpsmonShared) (sys : CString) (pv : UInt32) (un pw : CString) (isPrimary : Bool) (ticks : Nat) {reports : List Report}
    (nonempty : ∀ report ∈ reports, report.status ≠ [])
    (kept : TreeKept conf clock monotonic (.fresh shared sys pv un pw isPrimary ticks) reports) :
    (AlwaysShows conf clock monotonic (.fresh shared sys pv un pw isPrimary ticks) reports ∧
      ∀ entry ∈ announcedBothWays, Alternates entry (announced entry
        (reports.foldl (UpsStatus.parseStatus conf clock monotonic) (.fresh shared sys pv un pw isPrimary ticks)).poll)) ↔
      (reports.map Report.status).IsChain Follows := by
  have shows : (UpsStatus.fresh shared sys pv un pw isPrimary ticks).Shows [] :=
    ⟨⟨.nil, rfl, trivial⟩, added_shown shared sys pv un pw isPrimary⟩
  have iff := alwaysShows_iff conf clock monotone shows nonempty kept
  have start : ([] :: reports.map Report.status).IsChain Follows ↔ (reports.map Report.status).IsChain Follows := by
    simp [List.isChain_cons, follows_nothing]
  rw [<- start, <- iff, and_iff_left_iff_imp]
  intro _ entry member
  have turns : InTurns entry (freshPoll shared sys pv un pw isPrimary) := by
    have table : ∀ entry ∈ announcedBothWays, entry.flag ≠ .primary ∧ entry.leave ≠ none := by decide
    obtain ⟨other, both⟩ := table entry member
    refine ⟨⟨List.isChain_nil, both.symm⟩, ?_⟩
    simp [announced, freshPoll, Utype.added, other]
  exact (inTurns_reports (s := .fresh shared sys pv un pw isPrimary ticks) conf clock member nonempty turns).alternates

def vendorReports : List Report :=
  [Report.plain (cstr "OL OVER"), Report.plain (cstr "OL ECOMODE"), Report.plain (cstr "OL")]

theorem flags_show_words_sample :
    (AlwaysShows .defaults (fun _ => 1000) tenSeconds (.fresh .start (cstr "ups@host") 1 [] [] true 0) vendorReports ∧
      ∀ entry ∈ announcedBothWays, Alternates entry (announced entry
        (vendorReports.foldl (UpsStatus.parseStatus .defaults (fun _ => 1000) tenSeconds)
          (.fresh .start (cstr "ups@host") 1 [] [] true 0)).poll)) ↔
      (vendorReports.map Report.status).IsChain Follows := by
  refine flags_show_words _ _ _ (fun m n later => ?_) _ _ _ _ _ _ _ (by decide) (by unfold TreeKept; decide +kernel)
  unfold tenSeconds
  omega

-- A word of a vendor keeps the flag of the state whose name it begins with, and a token that goes is freed while it is linked.
theorem overheat_is_overload :
    ¬ AlwaysShows .defaults (fun _ => 1000) tenSeconds (.fresh .start (cstr "ups@host") 1 [] [] true 0)
        [Report.plain (cstr "OL OVER"), Report.plain (cstr "OL OVERHEAT")] ∧
      ¬ AlwaysShows .defaults (fun _ => 1000) tenSeconds (.fresh .start (cstr "ups@host") 1 [] [] true 0)
        [Report.plain (cstr "OL FOO BAR"), Report.plain (cstr "OL FOO"), Report.plain (cstr "OL FOO")] := by
  constructor
  · intro shows
    have overload := shows.2.1.flags ⟨.overload, "OVER", .overload, some .notoverload⟩ (by decide)
    revert overload
    decide +kernel
  · intro shows
    obtain ⟨t, is, -⟩ := shows.2.1.tree
    have freed : (((UpsStatus.fresh .start (cstr "ups@host") 1 [] [] true 0).parseStatus .defaults (fun _ => 1000) tenSeconds
        (Report.plain (cstr "OL FOO BAR"))).parseStatus .defaults (fun _ => 1000) tenSeconds
        (Report.plain (cstr "OL FOO"))).other.tokens = none := by decide +kernel
    exact Option.some_ne_none t (is.symm.trans freed)

end Nut
