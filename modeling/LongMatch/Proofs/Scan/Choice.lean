import LongMatch.Proofs.Index.Recent
import LongMatch.Proofs.Scan.Start
/-!
# LongMatch.Proofs.Scan.Choice: the probe picks the newest of the longest

A probe goes through the entries of a bucket once, counts, and keeps the longest run it has met.
What it comes to can be said without the loop. The entries that count are a part of the bucket,
`Probe.candidates`, and the run of each is a function of the bytes, `Probe.runOf`. What is kept is
the run of the first candidate whose run is longest, if any is long enough: `Survey.Tells`, which
every further candidate keeps. Entries are met newest first, so the first of the longest is the one
inserted last. The result is `probe_picks_newest_longest`.
-/

namespace LongMatch

/-! ## The first of the greatest -/

section FirstGreatest

variable {α : Type} {size : α → Nat} {list : List α} {x y : α}

/-- The element is one of the list, none is greater, and those before it are smaller. -/
def FirstGreatest (size : α → Nat) (list : List α) (x : α) : Prop :=
  ∃ before rest, list = before ++ x :: rest ∧ (∀ y ∈ before, size y < size x) ∧
    ∀ y ∈ rest, size y ≤ size x

theorem FirstGreatest.le (h : FirstGreatest size list x) (hmem : y ∈ list) : size y ≤ size x := by
  obtain ⟨before, rest, rfl, hbefore, hrest⟩ := h
  simp only [List.mem_append, List.mem_cons] at hmem
  rcases hmem with hmem | rfl | hmem
  · exact Nat.le_of_lt (hbefore y hmem)
  · exact Nat.le_refl _
  · exact hrest y hmem

/-- An element that is not greater does not take the place. -/
theorem FirstGreatest.snoc (h : FirstGreatest size list x) (hle : size y ≤ size x) :
    FirstGreatest size (list ++ [y]) x := by
  obtain ⟨before, rest, rfl, hbefore, hrest⟩ := h
  refine ⟨before, rest ++ [y], by simp, hbefore, ?_⟩
  simp only [List.mem_append, List.mem_singleton]
  rintro z (hmem | rfl)
  · exact hrest z hmem
  · exact hle

/-- An element that is greater than all before it takes the place. -/
theorem firstGreatest_last (h : ∀ y ∈ list, size y < size x) :
    FirstGreatest size (list ++ [x]) x :=
  ⟨list, [], rfl, h, by simp⟩

end FirstGreatest

/-! ## What is held after some candidates -/

namespace Survey

variable {minMatch : Nat} {run : Entry → Match} {met : List Entry} {survey : Survey} {entry : Entry}

/-- What a survey has come to when the candidates met so far are these, in order. -/
structure Tells (minMatch : Nat) (run : Entry → Match) (met : List Entry) (survey : Survey) :
    Prop where
  candidates_eq : survey.candidates = met.length
  rejected_eq : survey.rejected = met.countP fun entry => (run entry).length < minMatch
  none_iff : survey.best = none ↔ ∀ entry ∈ met, (run entry).length < minMatch
  first : ∀ m, survey.best = some m → minMatch ≤ m.length ∧
    ∃ entry, m = run entry ∧ FirstGreatest (fun entry => (run entry).length) met entry

theorem tells_empty : empty.Tells minMatch run [] :=
  ⟨rfl, rfl, by simp [empty], by simp [empty]⟩

/-- A candidate whose run is too short is counted and rejected, and what is held stays. -/
theorem Tells.consider_short (h : survey.Tells minMatch run met)
    (hshort : (run entry).length < minMatch) :
    (survey.consider minMatch (run entry)).Tells minMatch run (met ++ [entry]) := by
  rw [consider, if_pos hshort]
  refine ⟨?_, ?_, ?_, ?_⟩
  · simp [h.candidates_eq]
  · simp [h.rejected_eq, hshort]
  · simp only [h.none_iff, List.forall_mem_append, List.forall_mem_singleton, hshort, and_true]
  · intro m hm
    obtain ⟨hlong, first, rfl, hfirst⟩ := h.first m hm
    exact ⟨hlong, first, rfl, hfirst.snoc (Nat.le_of_lt (Nat.lt_of_lt_of_le hshort hlong))⟩

/-- Of what is held and a run that is long enough, the longer one is held, or else the first. -/
theorem Tells.exists_longer (h : survey.Tells minMatch run met)
    (hlong : minMatch ≤ (run entry).length) :
    ∃ first, longer survey.best (run entry) = some (run first) ∧
      minMatch ≤ (run first).length ∧
        FirstGreatest (fun entry => (run entry).length) (met ++ [entry]) first := by
  cases hbest : survey.best with
  | none =>
    have hshort := h.none_iff.mp hbest
    refine ⟨entry, rfl, hlong, firstGreatest_last ?_⟩
    intro other hmem
    exact Nat.lt_of_lt_of_le (hshort other hmem) hlong
  | some held =>
    obtain ⟨hheld, first, rfl, hfirst⟩ := h.first held hbest
    by_cases hlt : (run first).length < (run entry).length
    · refine ⟨entry, if_pos hlt, hlong, firstGreatest_last ?_⟩
      intro other hmem
      exact Nat.lt_of_le_of_lt (hfirst.le hmem) hlt
    · -- of two equally long runs the first stays
      exact ⟨first, if_neg hlt, hheld, hfirst.snoc (Nat.le_of_not_lt hlt)⟩

theorem Tells.consider (h : survey.Tells minMatch run met) (entry : Entry) :
    (survey.consider minMatch (run entry)).Tells minMatch run (met ++ [entry]) := by
  by_cases hshort : (run entry).length < minMatch
  · exact h.consider_short hshort
  · obtain ⟨first, hfirst, hlong, hgreatest⟩ := h.exists_longer (Nat.le_of_not_lt hshort)
    rw [Survey.consider, if_neg hshort]
    refine ⟨?_, ?_, ?_, ?_⟩
    · simp [h.candidates_eq]
    · simp [h.rejected_eq, hshort]
    · simp only [hfirst, reduceCtorEq, false_iff]
      intro hall
      exact hshort (hall entry (by simp))
    · intro m hm
      obtain rfl : run first = m := Option.some.inj (hfirst.symm.trans hm)
      exact ⟨hlong, first, rfl, hgreatest⟩

end Survey

/-! ## A probe goes over its candidates -/

namespace Probe

variable {probe : Probe} {data : Buffer}

/-- The entries that a probe compares, in their order: they have the checksum of the window, and
point before it and within reach. -/
def candidates (probe : Probe) (entries : List Entry) : List Entry :=
  entries.filter fun entry => entry.checksum = probe.window.key.checksum ∧
    entry.offset.toNat < probe.window.start ∧
      probe.window.start - entry.offset.toNat ≤ probe.maxDistance

/-- The greatest common run of the window and the bytes an entry points to: forward to the end of
the buffer, and backward to its start and to the anchor. -/
def runOf (probe : Probe) (data : Buffer) (entry : Entry) : Match :=
  let source := entry.offset.toNat
  let destination := probe.window.start
  let forward := data.commonFrom source destination
  let backward := data.commonBefore source destination 0 probe.anchor
  ⟨source - backward, destination - backward, forward + backward⟩

theorem candidates_eq (probe : Probe) (entries : List Entry) :
    probe.candidates entries = entries.filter probe.eligible := by
  apply List.filter_congr
  intro entry _
  rw [Bool.eq_iff_iff, decide_eq_true_eq, eligible_iff]

theorem extend_eq_runOf (hrange : probe.InRange data) {entry : Entry}
    (heligible : probe.eligible entry = true) :
    probe.extend data entry = .ok (probe.runOf data entry) := by
  obtain ⟨_, hlt, _⟩ := eligible_iff.mp heligible
  have hstart := hrange.start_le
  obtain ⟨forward, backward, hforward, hbackward, _, _, hextend⟩ := extend_eq hrange heligible
  rw [Buffer.forwardRun_eq_commonFrom hlt hstart] at hforward
  rw [Buffer.backwardRun_eq_commonBefore (by omega) hstart] at hbackward
  rw [hextend, ← Except.ok.inj hforward, ← Except.ok.inj hbackward]
  rfl

/-- Going on over more entries adds the candidates among them. -/
theorem exists_foldlM_tells (hrange : probe.InRange data) (entries : List Entry) {met : List Entry}
    {survey : Survey} (h : survey.Tells probe.minMatch (probe.runOf data) met) :
    ∃ after, entries.foldlM (probe.visit data) survey = .ok after ∧
      after.Tells probe.minMatch (probe.runOf data) (met ++ probe.candidates entries) := by
  rw [candidates_eq]
  induction entries generalizing met survey with
  | nil => exact ⟨survey, rfl, by simpa using h⟩
  | cons entry entries ih =>
    rw [List.foldlM_cons, visit]
    by_cases heligible : probe.eligible entry = true
    · obtain ⟨after, hrest, htells⟩ := ih (h.consider entry)
      rw [if_pos heligible, extend_eq_runOf hrange heligible, List.filter_cons_of_pos heligible]
      exact ⟨after, hrest, by simpa using htells⟩
    · obtain ⟨after, hrest, htells⟩ := ih h
      rw [if_neg heligible, List.filter_cons_of_neg heligible]
      exact ⟨after, hrest, htells⟩

theorem exists_survey_tells (hrange : probe.InRange data) (entries : List Entry) :
    ∃ survey, probe.survey data entries = .ok survey ∧
      survey.Tells probe.minMatch (probe.runOf data) (probe.candidates entries) :=
  exists_foldlM_tells hrange entries Survey.tells_empty

end Probe

/-! ## Anywhere in a scan -/

namespace Scan

variable {data : Buffer} {history : Nat} {scan : Scan data} {roll : Roll data}

/-- The entries that a probe at a split compares, newest first. -/
def candidatesAt (scan : Scan data) (split : Nat) : List Entry :=
  (scan.probeOf split).candidates (scan.table.entries (scan.windowAt split).key)

/-- The greatest common run of the window at a split and the bytes an entry points to. -/
def runAt (scan : Scan data) (split : Nat) (entry : Entry) : Match :=
  (scan.probeOf split).runOf data entry

/-- What a step that probes at a split comes to, and the call that makes it. -/
structure Picks (scan : Scan data) (split : Nat) (event : Event) (after : Scan data) : Prop where
  probed : event = .passed ∨ ∃ m, event = .found m
  passed_iff : event = .passed ↔ ∀ entry ∈ scan.candidatesAt split,
    (scan.runAt split entry).length < scan.params.minMatchLength
  /-- A match that is found is the run of the newest candidate whose run is longest. -/
  newest : ∀ m, event = .found m → ∃ entry, m = scan.runAt split entry ∧
    FirstGreatest (fun entry => (scan.runAt split entry).length) (scan.candidatesAt split) entry
  candidates_eq : after.stats.candidates =
    scan.stats.candidates + (scan.candidatesAt split).length
  rejected_eq : after.stats.rejected = scan.stats.rejected + (scan.candidatesAt split).countP
    fun entry => (scan.runAt split entry).length < scan.params.minMatchLength
  goes_on : event = .passed → scan.next = after.next
  concludes : ∀ m, event = .found m → ∃ answer later, scan.next = .ok (answer, later) ∧
    Concludes answer later (some m)

theorem Sound.exists_picks (h : scan.Sound history) (hs : scan.Searching)
    (hadvance : scan.roll.advance scan.detector.splits = (roll, true)) :
    ∃ event after, scan.step = .ok (event, after) ∧ scan.Picks roll.position event after := by
  have hroom := h.anchor_add_le hs hadvance
  obtain ⟨survey, hsurvey, htells⟩ := Probe.exists_survey_tells
    (h.inRange_probeOf hroom roll.position_le)
    (scan.table.entries (scan.windowAt roll.position).key)
  have hprobe := h.probeAt_of_surveyAt hroom roll.position_le hsurvey
  have hcandidates : scan.stats.candidates + survey.candidates = _ :=
    congrArg (scan.stats.candidates + ·) htells.candidates_eq
  have hrejected : scan.stats.rejected + survey.rejected = _ :=
    congrArg (scan.stats.rejected + ·) htells.rejected_eq
  cases hbest : survey.best with
  | none =>
    have hmove : scan.Move _ [] _ := .pass hs hadvance hprobe hbest
    refine ⟨_, _, step_of_passed hadvance hprobe hbest, Or.inl rfl, ?_, nofun, hcandidates,
      hrejected, fun _ => hmove.next_eq_next, nofun⟩
    exact iff_of_true rfl (htells.none_iff.mp hbest)
  | some m =>
    obtain ⟨hlong, entry, rfl, hfirst⟩ := htells.first m hbest
    obtain ⟨answer, later, hmove, hconcludes⟩ := h.exists_found_move hs hadvance hprobe hbest
    refine ⟨_, _, step_of_found hadvance hprobe hbest, Or.inr ⟨_, rfl⟩, ?_, ?_, hcandidates,
      hrejected, nofun, ?_⟩
    · simp only [reduceCtorEq, false_iff]
      intro hshort
      have hnone := htells.none_iff.mpr hshort
      cases hbest.symm.trans hnone
    · intro m' hm'
      cases hm'
      exact ⟨entry, rfl, hfirst⟩
    · intro m' hm'
      cases hm'
      exact ⟨answer, later, hmove.next_eq_ok, hconcludes⟩

/-- **The probe picks the longest run, of equals the newest.** In a scan that started, whatever its
table held, take any split that it probes, in any of its calls. The probe lists its bucket newest
first, the windows filed in the scan before those of the table given; of the entries there that have
the checksum and are within reach it finds none if the runs of all are too short, and else the
newest of those whose run is longest. It counts all of them, and as rejected those whose run is too
short. The call under way goes on, or concludes with the match found. -/
theorem probe_picks_newest_longest (params : Params) (data : Buffer) (history : Nat)
    (table : Table) (scan : Scan data)
    (hstart : start params data history table = .ok (.running scan)) :
    scan.Traced ∧ ∃ base, tableFor params table = .ok base ∧
      ∀ windows answers mid roll, scan.Run windows answers mid → mid.Searching →
        mid.roll.advance mid.detector.splits = (roll, true) →
        (∀ key, (mid.table.bucket key).newest =
          (((base.shelved key (historyWindows params data history ++ windows)).map
            Window.entry).reverse ++ (base.bucket key).newest).take (2 ^ params.bucketSizeLog)) ∧
        ∃ event after, mid.step = .ok (event, after) ∧ mid.Picks roll.position event after := by
  obtain ⟨_, base, valid, hbase, hsized, rfl, sound⟩ := of_start_eq_running hstart
  refine ⟨sound.traced, base, hbase, ?_⟩
  intro windows answers mid roll hrun hs hadvance
  refine ⟨?_, (sound.run hrun).exists_picks hs hadvance⟩
  intro key
  rw [← hsized.bucketSizeLog_of_valid valid, ← Table.newest_recordAll (hsized.bucketSize_le valid)]
  exact congrArg (fun table : Table => (table.bucket key).newest) (sound.table_of_run hrun)

/-! ### Two equal runs behind a shorter one

The history holds the window at the split three times. The newest gives a run of four bytes, the two
before it runs of six. -/

def tiedParams : Params := ⟨10, 6, 4, 0, 3⟩

def tiedData : Buffer :=
  #[1, 2, 3, 4, 5, 6, 7, 8, 1, 2, 3, 4, 5, 6, 7, 8, 1, 2, 3, 4, 9, 9, 9, 9, 1, 2, 3, 4, 5, 6]

def tiedRoll : Roll tiedData := .start ⟨24, by decide⟩

theorem tiedRoll_advance :
    ∃ roll, tiedRoll.advance tiedParams.detector.splits = (roll, true) ∧ roll.position = 28 := by
  have hsplit : (tiedRoll.advance tiedParams.detector.splits).2 = true := by decide +kernel
  exact ⟨_, Prod.ext rfl hsplit, by decide +kernel⟩

/-- Where the entries compared at a split point to, and what the first step of a scan comes to, if
one starts. -/
def firstStep (params : Params) (data : Buffer) (history : Nat) (table : Table) (split : Nat) :
    Option (List UInt32 × Event × Stats) :=
  match start params data history table with
  | .ok (.running scan) => scan.step.toOption.map fun (event, after) =>
    ((scan.candidatesAt split).map Entry.offset, event, after.stats)
  | _ => none

theorem tied_firstStep : firstStep tiedParams tiedData 24 (.empty 3 3) 28 =
    some ([16, 8, 0], .found ⟨8, 24, 6⟩, ⟨1, 3, 0, 0, 0⟩) := by
  decide +kernel

theorem newest_of_equal_runs_is_picked :
    ∃ scan roll after, start tiedParams tiedData 24 (.empty 3 3) = .ok (.running scan) ∧
      scan.roll.advance scan.detector.splits = (roll, true) ∧ roll.position = 28 ∧
      scan.step = .ok (.found ⟨8, 24, 6⟩, after) ∧ scan.Picks 28 (.found ⟨8, 24, 6⟩) after ∧
      (scan.candidatesAt 28).map Entry.offset = [16, 8, 0] ∧ after.stats.candidates = 3 := by
  have valid : tiedParams.Valid := Params.validate_eq_ok_iff.mp (by decide)
  obtain ⟨scan, hstart, hroll, hdetector, hs⟩ :=
    @exists_searching tiedData tiedParams 24 (.empty 3 3) valid (by decide) (by decide)
  obtain ⟨roll, hadvance, hposition⟩ := tiedRoll_advance
  rw [tiedRoll, ← hroll, ← hdetector] at hadvance
  obtain ⟨_, _, _, hprobes⟩ := probe_picks_newest_longest tiedParams tiedData 24 (.empty 3 3) scan
    hstart
  obtain ⟨_, event, after, hstep, hpicks⟩ := hprobes [] [] scan roll .refl hs hadvance
  have hfirst := tied_firstStep
  simp only [firstStep, hstart, hstep] at hfirst
  obtain ⟨hoffsets, hrest⟩ := Prod.mk.inj (Option.some.inj hfirst)
  obtain ⟨rfl, hstats⟩ := Prod.mk.inj hrest
  rw [hposition] at hpicks
  exact ⟨scan, roll, after, hstart, hadvance, hposition, hstep, hpicks, hoffsets,
    congrArg Stats.candidates hstats⟩

end Scan

end LongMatch
