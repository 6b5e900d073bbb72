import LongMatch.Proofs.Sequence.Maximal
import LongMatch.Scan.Probe
/-!
# LongMatch.Proofs.Scan.Survey: what a probe finds

A probe trusts no entry: an eligible one only names a pair of positions, and the bytes decide. So
whatever the entries are, a probe in range meets no fault, and the match it settles on is a maximal
repeat within reach that touches the probed window: `exists_survey`. Nor does it lose an entry: the
match is no shorter than the run of any eligible entry that is long enough, `reaches_of_mem`. The
candidates are the eligible entries, and the match is the run of one of them:
`candidates_foldlM_visit`, `best_foldlM_visit`.
-/

namespace LongMatch

/-- Of two matches one is kept, and neither is longer. -/
theorem Survey.exists_longer (best : Option Match) (m : Match) :
    ∃ kept, Survey.longer best m = some kept ∧ (kept = m ∨ best = some kept) ∧
      m.length ≤ kept.length ∧ ∀ held, best = some held → held.length ≤ kept.length := by
  cases best with
  | none => exact ⟨m, rfl, Or.inl rfl, Nat.le_refl _, nofun⟩
  | some held =>
    by_cases hlt : held.length < m.length
    · refine ⟨m, if_pos hlt, Or.inl rfl, Nat.le_refl _, ?_⟩
      intro other hother
      cases hother
      exact Nat.le_of_lt hlt
    · refine ⟨held, if_neg hlt, Or.inr rfl, Nat.le_of_not_lt hlt, ?_⟩
      intro other hother
      cases hother
      exact Nat.le_refl _

namespace Probe

variable {probe : Probe} {data : Buffer} {entry : Entry}

/-- The window lies in the buffer and does not start before the anchor. -/
structure InRange (probe : Probe) (data : Buffer) : Prop where
  anchor_le : probe.anchor ≤ probe.window.start
  start_le : probe.window.start ≤ data.size
  size_lt : data.size < Checked.sizeBound

/-- A maximal repeat within reach whose destination touches the start of the window. -/
structure Finds (probe : Probe) (data : Buffer) (m : Match) : Prop extends
    m.Maximal data probe.anchor where
  near : m.destination - m.source ≤ probe.maxDistance
  destination_le : m.destination ≤ probe.window.start
  start_le_stop : probe.window.start ≤ m.destination + m.length

theorem eligible_iff :
    probe.eligible entry = true ↔
      entry.checksum = probe.window.key.checksum ∧ entry.offset.toNat < probe.window.start ∧
        probe.window.start - entry.offset.toNat ≤ probe.maxDistance := by
  rw [eligible, Bool.and_eq_true, Bool.and_eq_true, beq_iff_eq, decide_eq_true_eq,
    decide_eq_true_eq, and_assoc]

/-- An eligible entry extends by the two common runs of its position and the window's. -/
theorem extend_eq (hrange : probe.InRange data) (heligible : probe.eligible entry = true) :
    ∃ forward backward,
      data.forwardRun entry.offset.toNat probe.window.start = .ok forward ∧
      data.backwardRun entry.offset.toNat probe.window.start 0 probe.anchor = .ok backward ∧
      backward ≤ entry.offset.toNat ∧ backward ≤ probe.window.start ∧
      probe.extend data entry = .ok ⟨entry.offset.toNat - backward,
        probe.window.start - backward, forward + backward⟩ := by
  obtain ⟨_, hlt, _⟩ := eligible_iff.mp heligible
  obtain ⟨_, hstart, hsize⟩ := hrange
  obtain ⟨forward, hforward⟩ := Buffer.exists_forwardRun hlt hstart
  obtain ⟨backward, hbackward⟩ : ∃ n, data.backwardRun entry.offset.toNat probe.window.start 0
      probe.anchor = .ok n := Buffer.exists_backwardRun (by omega) hstart
  -- the bounds of the two runs keep their sum and the differences in range
  obtain ⟨hend, _, _⟩ := (Buffer.forwardRun_eq_ok_iff hlt hstart).mp hforward
  obtain ⟨hroom, _, _⟩ := (Buffer.backwardRun_eq_ok_iff (by omega) hstart).mp hbackward
  have hsum : Checked.add forward backward = .ok (forward + backward) :=
    Checked.add_eq_ok_iff.mpr ⟨by omega, rfl⟩
  refine ⟨forward, backward, hforward, hbackward, by omega, by omega, ?_⟩
  rw [extend, hforward, Checked.ok_bind, hbackward, Checked.ok_bind, hsum, Checked.ok_bind,
    Checked.sub_of_le (by omega), Checked.ok_bind, Checked.sub_of_le (by omega)]
  rfl

/-- An eligible entry extends to a maximal repeat. -/
theorem exists_extend (hrange : probe.InRange data) (heligible : probe.eligible entry = true) :
    ∃ m, probe.extend data entry = .ok m ∧ probe.Finds data m := by
  obtain ⟨_, hlt, hnear⟩ := eligible_iff.mp heligible
  obtain ⟨forward, backward, hforward, hbackward, _, _, hextend⟩ := extend_eq hrange heligible
  have hmaximal :=
    Match.maximal_of_runs hlt hrange.start_le hrange.anchor_le hforward hbackward
  refine ⟨_, hextend, hmaximal, ?_, ?_, ?_⟩
  · show probe.window.start - backward - (entry.offset.toNat - backward) ≤ probe.maxDistance
    omega
  · show probe.window.start - backward ≤ probe.window.start
    omega
  · show probe.window.start ≤ probe.window.start - backward + (forward + backward)
    omega

/-- What a survey has come to after some entries. -/
structure Surveyed (probe : Probe) (data : Buffer) (visited : Nat) (survey : Survey) : Prop where
  finds : ∀ m, survey.best = some m → probe.Finds data m
  long : ∀ m, survey.best = some m → probe.minMatch ≤ m.length
  rejected_le : survey.rejected + survey.best.toList.length ≤ survey.candidates
  candidates_le : survey.candidates ≤ visited

theorem surveyed_empty : probe.Surveyed data 0 .empty :=
  ⟨nofun, nofun, Nat.le_refl 0, Nat.le_refl 0⟩

/-- Considering one more match that the probe finds keeps a survey what it is. -/
theorem Surveyed.consider {survey : Survey} {visited : Nat} {m : Match}
    (h : probe.Surveyed data visited survey) (hm : probe.Finds data m) :
    probe.Surveyed data (visited + 1) (survey.consider probe.minMatch m) := by
  obtain ⟨hfinds, hlong, hrejected, hcandidates⟩ := h
  unfold Survey.consider
  by_cases hshort : m.length < probe.minMatch
  · rw [if_pos hshort]
    refine ⟨hfinds, hlong, ?_, ?_⟩
    · show survey.rejected + 1 + survey.best.toList.length ≤ survey.candidates + 1
      omega
    · show survey.candidates + 1 ≤ visited + 1
      omega
  · rw [if_neg hshort]
    obtain ⟨kept, hkept, hcases, _⟩ := Survey.exists_longer survey.best m
    -- the match kept is the new one or was kept before
    have hgood : probe.Finds data kept ∧ probe.minMatch ≤ kept.length := by
      rcases hcases with rfl | hold
      · exact ⟨hm, Nat.le_of_not_lt hshort⟩
      · exact ⟨hfinds kept hold, hlong kept hold⟩
    refine ⟨?_, ?_, ?_, ?_⟩
    · intro m' hm'
      obtain rfl : kept = m' := Option.some.inj (hkept.symm.trans hm')
      exact hgood.1
    · intro m' hm'
      obtain rfl : kept = m' := Option.some.inj (hkept.symm.trans hm')
      exact hgood.2
    · show survey.rejected + (Survey.longer survey.best m).toList.length ≤ survey.candidates + 1
      rw [hkept, Option.toList_some, List.length_singleton]
      omega
    · show survey.candidates + 1 ≤ visited + 1
      omega

theorem exists_visit {survey : Survey} {visited : Nat} (hrange : probe.InRange data)
    (h : probe.Surveyed data visited survey) (entry : Entry) :
    ∃ after, probe.visit data survey entry = .ok after ∧
      probe.Surveyed data (visited + 1) after := by
  unfold visit
  by_cases heligible : probe.eligible entry = true
  · obtain ⟨m, hextend, hm⟩ := exists_extend hrange heligible
    rw [if_pos heligible, hextend]
    exact ⟨_, rfl, h.consider hm⟩
  · rw [if_neg heligible]
    exact ⟨survey, rfl, h.finds, h.long, h.rejected_le, Nat.le_succ_of_le h.candidates_le⟩

theorem exists_foldlM_visit (hrange : probe.InRange data) (entries : List Entry) :
    ∀ {visited : Nat} {survey : Survey}, probe.Surveyed data visited survey →
      ∃ after, entries.foldlM (probe.visit data) survey = .ok after ∧
        probe.Surveyed data (visited + entries.length) after := by
  induction entries with
  | nil => exact fun {visited survey} h => ⟨survey, rfl, h⟩
  | cons entry entries ih =>
    intro visited survey h
    obtain ⟨next, hvisit, hnext⟩ := exists_visit hrange h entry
    obtain ⟨after, hrest, hafter⟩ := ih hnext
    refine ⟨after, ?_, ?_⟩
    · rw [List.foldlM_cons, hvisit, Checked.ok_bind, hrest]
    · rwa [List.length_cons, Nat.add_comm entries.length 1, ← Nat.add_assoc]

/-- A probe in range surveys any entries without a fault. -/
theorem exists_survey (hrange : probe.InRange data) (entries : List Entry) :
    ∃ survey, probe.survey data entries = .ok survey ∧
      probe.Surveyed data entries.length survey := by
  have hall := exists_foldlM_visit hrange entries surveyed_empty
  rwa [Nat.zero_add] at hall

end Probe

/-! ## The longest run is kept -/

namespace Survey

/-- A match of this length at least is held. -/
def Reaches (survey : Survey) (length : Nat) : Prop :=
  ∃ m, survey.best = some m ∧ length ≤ m.length

variable {survey : Survey} {minMatch length : Nat}

/-- What is held never gets shorter. -/
theorem Reaches.consider (h : survey.Reaches length) (m : Match) :
    (survey.consider minMatch m).Reaches length := by
  obtain ⟨held, hheld, hle⟩ := h
  unfold Survey.consider
  by_cases hshort : m.length < minMatch
  · rw [if_pos hshort]
    exact ⟨held, hheld, hle⟩
  · rw [if_neg hshort]
    obtain ⟨kept, hkept, _, _, hold⟩ := exists_longer survey.best m
    exact ⟨kept, hkept, Nat.le_trans hle (hold held hheld)⟩

/-- A match that is long enough is held, or one that is no shorter. -/
theorem reaches_consider {m : Match} (hlong : minMatch ≤ m.length) :
    (survey.consider minMatch m).Reaches m.length := by
  obtain ⟨kept, hkept, _, hle, _⟩ := exists_longer survey.best m
  rw [Survey.consider, if_neg (Nat.not_lt.mpr hlong)]
  exact ⟨kept, hkept, hle⟩

end Survey

namespace Probe

variable {probe : Probe} {data : Buffer} {entry : Entry}

theorem reaches_visit {survey after : Survey} {length : Nat} (h : survey.Reaches length)
    (hvisit : probe.visit data survey entry = .ok after) : after.Reaches length := by
  unfold visit at hvisit
  split at hvisit
  · obtain ⟨m, _, hafter⟩ := Checked.bind_eq_ok_iff.mp hvisit
    cases hafter
    exact h.consider m
  · cases hvisit
    exact h

theorem reaches_foldlM_visit {entries : List Entry} {survey after : Survey} {length : Nat}
    (h : survey.Reaches length)
    (hfold : entries.foldlM (probe.visit data) survey = .ok after) : after.Reaches length := by
  induction entries generalizing survey with
  | nil =>
    cases hfold
    exact h
  | cons entry entries ih =>
    rw [List.foldlM_cons] at hfold
    obtain ⟨next, hvisit, hrest⟩ := Checked.bind_eq_ok_iff.mp hfold
    exact ih (reaches_visit h hvisit) hrest

/-- No eligible entry whose run is long enough is lost among the others. -/
theorem reaches_of_mem {entries : List Entry} {survey after : Survey} {m : Match}
    (hfold : entries.foldlM (probe.visit data) survey = .ok after) (hmem : entry ∈ entries)
    (heligible : probe.eligible entry = true) (hextend : probe.extend data entry = .ok m)
    (hlong : probe.minMatch ≤ m.length) : after.Reaches m.length := by
  induction entries generalizing survey with
  | nil => cases hmem
  | cons first entries ih =>
    rw [List.foldlM_cons] at hfold
    obtain ⟨next, hvisit, hrest⟩ := Checked.bind_eq_ok_iff.mp hfold
    rcases List.mem_cons.mp hmem with rfl | hmem
    · -- met here, and kept by whatever comes after
      rw [visit, if_pos heligible, hextend, Checked.ok_bind] at hvisit
      cases hvisit
      exact reaches_foldlM_visit (Survey.reaches_consider hlong) hrest
    · exact ih hrest hmem

/-! ## What a survey counts -/

/-- An entry that is not eligible changes nothing, and an eligible one is considered. -/
theorem visit_cases {survey after : Survey} (hvisit : probe.visit data survey entry = .ok after) :
    (probe.eligible entry = false ∧ after = survey) ∨
      ∃ m, probe.eligible entry = true ∧ probe.extend data entry = .ok m ∧
        after = survey.consider probe.minMatch m := by
  unfold visit at hvisit
  split at hvisit
  · next heligible =>
    obtain ⟨m, hextend, hafter⟩ := Checked.bind_eq_ok_iff.mp hvisit
    cases hafter
    exact Or.inr ⟨m, heligible, hextend, rfl⟩
  · next heligible =>
    cases hvisit
    exact Or.inl ⟨by simpa using heligible, rfl⟩

theorem candidates_consider (survey : Survey) (minMatch : Nat) (m : Match) :
    (survey.consider minMatch m).candidates = survey.candidates + 1 := by
  unfold Survey.consider
  split <;> rfl

/-- The candidates are the eligible entries. -/
theorem candidates_foldlM_visit {entries : List Entry} {survey after : Survey}
    (hfold : entries.foldlM (probe.visit data) survey = .ok after) :
    after.candidates = survey.candidates + entries.countP probe.eligible := by
  induction entries generalizing survey with
  | nil =>
    cases hfold
    rfl
  | cons entry entries ih =>
    rw [List.foldlM_cons] at hfold
    obtain ⟨next, hvisit, hrest⟩ := Checked.bind_eq_ok_iff.mp hfold
    have hcount := ih hrest
    rcases visit_cases hvisit with ⟨heligible, rfl⟩ | ⟨m, heligible, _, rfl⟩
    · rw [List.countP_cons_of_neg (by simp [heligible])]
      exact hcount
    · rw [List.countP_cons_of_pos heligible, hcount, candidates_consider]
      omega

/-- Where the run of every eligible entry is long enough, none is rejected. -/
theorem rejected_foldlM_visit {entries : List Entry} {survey after : Survey}
    (hfold : entries.foldlM (probe.visit data) survey = .ok after)
    (hlong : ∀ entry, entry ∈ entries → probe.eligible entry = true →
      ∀ m, probe.extend data entry = .ok m → probe.minMatch ≤ m.length) :
    after.rejected = survey.rejected := by
  induction entries generalizing survey with
  | nil =>
    cases hfold
    rfl
  | cons entry entries ih =>
    rw [List.foldlM_cons] at hfold
    obtain ⟨next, hvisit, hrest⟩ := Checked.bind_eq_ok_iff.mp hfold
    have hsame := ih hrest fun entry hmem => hlong entry (List.mem_cons_of_mem _ hmem)
    rcases visit_cases hvisit with ⟨_, rfl⟩ | ⟨m, heligible, hextend, rfl⟩
    · exact hsame
    · have hle := hlong entry List.mem_cons_self heligible m hextend
      rw [hsame, Survey.consider, if_neg (Nat.not_lt.mpr hle)]

/-- The match that a survey settles on is the run of one of the eligible entries. -/
theorem best_foldlM_visit {entries : List Entry} {survey after : Survey} {m : Match}
    (hfold : entries.foldlM (probe.visit data) survey = .ok after) (hbest : after.best = some m) :
    survey.best = some m ∨
      ∃ entry, entry ∈ entries ∧ probe.eligible entry = true ∧ probe.extend data entry = .ok m := by
  induction entries generalizing survey with
  | nil =>
    cases hfold
    exact Or.inl hbest
  | cons entry entries ih =>
    rw [List.foldlM_cons] at hfold
    obtain ⟨next, hvisit, hrest⟩ := Checked.bind_eq_ok_iff.mp hfold
    rcases ih hrest with hnext | ⟨other, hmem, hother⟩
    · rcases visit_cases hvisit with ⟨_, rfl⟩ | ⟨met, heligible, hextend, rfl⟩
      · exact Or.inl hnext
      · unfold Survey.consider at hnext
        split at hnext
        · exact Or.inl hnext
        · -- of the match held and the one met, one is kept
          obtain ⟨kept, hkept, hcases, _⟩ := Survey.exists_longer survey.best met
          obtain rfl : kept = m := Option.some.inj (hkept.symm.trans hnext)
          rcases hcases with rfl | hheld
          · exact Or.inr ⟨entry, List.mem_cons_self, heligible, hextend⟩
          · exact Or.inl hheld
    · exact Or.inr ⟨other, List.mem_cons_of_mem _ hmem, hother⟩

end Probe

end LongMatch
