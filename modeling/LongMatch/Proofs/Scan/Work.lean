import LongMatch.Proofs.Scan.Description
/-!
# LongMatch.Proofs.Scan.Work: a scan ends, and its work is linear

A match that a wrong hint leads to may end before the split that was probed, and the scan goes back
to hash the bytes between again. They are no more than the match is long, since it reaches the
probed window and the window is as long as the shortest match. So the bytes hashed stay within
the distance covered plus the bytes matched: `Scan.Accounts`, which every move keeps. A match
accounts for two answers at most and the end for one, `Scan.Counted`, so the calls that give an item
are few. `work_is_linear` puts the two together.
-/

namespace LongMatch.Scan

variable {data : Buffer} {history : Nat} {scan after : Scan data} {roll : Roll data}
  {survey : Survey} {table : Table} {m : Match} {windows : List Window}
  {answers newAnswers : List (Option Sequence)}

/-- How the counts of a scan and the bytes it has hashed add up. -/
structure Accounts (history : Nat) (scan : Scan data) : Prop where
  hashed_le : scan.roll.hashed + history ≤ scan.position + scan.stats.matchedBytes
  /-- Every probe is paid for by a chunk, and the chunk in hand is not yet spent. -/
  boundaries_le :
    scan.stats.boundaries * scan.params.minMatchLength + scan.roll.length ≤ scan.roll.hashed
  matched_le : scan.stats.matchedBytes + history ≤ scan.anchor
  matches_le : scan.stats.matchCount * scan.params.minMatchLength ≤ scan.stats.matchedBytes
  candidates_le : scan.stats.candidates ≤ scan.stats.boundaries * 2 ^ scan.table.bucketSizeLog
  rejected_le : scan.stats.rejected + scan.stats.matchCount ≤ scan.stats.candidates

theorem accounts_initial (params : Params) (hhistory : history ≤ data.size) (table : Table) :
    (initial params hhistory table).Accounts history := by
  refine ⟨?_, ?_, ?_, ?_, Nat.zero_le _, Nat.le_refl _⟩
  · show 0 + history ≤ history + 0
    omega
  · show 0 * params.minMatchLength + 0 ≤ 0
    omega
  · show 0 + history ≤ history
    omega
  · show 0 * params.minMatchLength ≤ 0
    omega

/-! ## Every move keeps the accounts -/

/-- Going ahead hashes as many bytes as it covers. -/
theorem Accounts.ahead (h : scan.Accounts history) {count : Nat}
    (hahead : scan.roll.Ahead roll count) : ({ scan with roll } : Scan data).Accounts history := by
  obtain ⟨hposition, hlength, hhashed⟩ := hahead
  have hle := h.hashed_le
  have hboundaries := h.boundaries_le
  unfold position at hle
  refine ⟨?_, ?_, h.matched_le, h.matches_le, h.candidates_le, h.rejected_le⟩
  · show roll.hashed + history ≤ roll.position + scan.stats.matchedBytes
    omega
  · show scan.stats.boundaries * scan.params.minMatchLength + roll.length ≤ roll.hashed
    omega

/-- A probe is paid for by the chunk before it; a match it finds is one candidate not rejected. -/
theorem Accounts.probed (h : scan.Accounts history) (sound : scan.Sound history)
    (hs : scan.Searching) (hadvance : scan.roll.advance scan.detector.splits = (roll, true))
    (hprobe : scan.probeAt roll.position = .ok (survey, table)) :
    (scan.probed roll survey table).Accounts history ∧
      scan.stats.rejected + survey.rejected + scan.stats.matchCount + survey.best.toList.length ≤
        scan.stats.candidates + survey.candidates := by
  obtain ⟨rfl, hsurveyed⟩ := sound.probe_spec hs hadvance hprobe
  obtain ⟨count, _, hahead, hsplit⟩ := Roll.advance_eq_true hadvance
  have hchunk : scan.params.minMatchLength ≤ roll.length := by
    have hmin := Detector.minChunk_le_of_splits hsplit
    rwa [sound.detector_eq] at hmin
  obtain ⟨hhashed, hboundaries, hmatched, hmatches, hcandidates, hrejected⟩ := h.ahead hahead
  have hvisited := hsurveyed.candidates_le
  have hfell := hsurveyed.rejected_le
  refine ⟨⟨hhashed, ?_, hmatched, hmatches, ?_, ?_⟩, ?_⟩
  · -- the chunk is spent on this probe
    show (scan.stats.boundaries + 1) * scan.params.minMatchLength + 0 ≤ roll.hashed
    simp only [Nat.add_mul, Nat.one_mul] at hboundaries ⊢
    omega
  · show scan.stats.candidates + survey.candidates ≤
      (scan.stats.boundaries + 1) * 2 ^ scan.table.bucketSizeLog
    simp only [Nat.add_mul, Nat.one_mul] at hcandidates ⊢
    omega
  · show scan.stats.rejected + survey.rejected + scan.stats.matchCount ≤
      scan.stats.candidates + survey.candidates
    simp only at hrejected
    omega
  · simp only at hrejected
    omega

/-- Going on from the end of a match goes back by no more than the match is long. -/
theorem Accounts.jump (h : scan.Accounts history)
    (hcount : scan.stats.rejected + scan.stats.matchCount + 1 ≤ scan.stats.candidates)
    (hlength : scan.roll.length = 0) (hfloor : scan.anchor ≤ m.destination)
    (hback : scan.position ≤ m.destination + m.length + scan.params.minMatchLength)
    (hlong : scan.params.minMatchLength ≤ m.length)
    (hstop : m.destination + m.length ≤ data.size) : (scan.jump m hstop).Accounts history := by
  obtain ⟨hhashed, hboundaries, hmatched, hmatches, hcandidates, _⟩ := h
  refine ⟨?_, ?_, ?_, ?_, hcandidates, ?_⟩
  · -- what is given up in position is no more than the match is long
    show scan.roll.hashed + history ≤
      m.destination + m.length + (scan.stats.matchedBytes + m.length)
    omega
  · show scan.stats.boundaries * scan.params.minMatchLength + 0 ≤ scan.roll.hashed
    omega
  · show scan.stats.matchedBytes + m.length + history ≤ m.destination + m.length
    omega
  · show (scan.stats.matchCount + 1) * scan.params.minMatchLength ≤
      scan.stats.matchedBytes + m.length
    rw [Nat.add_mul, Nat.one_mul]
    omega
  · show scan.stats.rejected + (scan.stats.matchCount + 1) ≤ scan.stats.candidates
    omega

theorem Accounts.finish (h : scan.Accounts history) :
    scan.finish.2.Accounts history := by
  obtain ⟨hhashed, hboundaries, hmatched, hmatches, hcandidates, hrejected⟩ := h
  have hle := scan.position_le
  rcases finish_cases scan with ⟨_, hfinish⟩ | ⟨_, hfinish⟩
  · rw [hfinish]
    refine ⟨hhashed, hboundaries, ?_, hmatches, hcandidates, hrejected⟩
    show scan.stats.matchedBytes + history ≤ data.size
    omega
  · rw [hfinish]
    exact ⟨hhashed, hboundaries, hmatched, hmatches, hcandidates, hrejected⟩

theorem Accounts.move (h : scan.Accounts history) (sound : scan.Sound history)
    (hmove : scan.Move windows newAnswers after) : after.Accounts history := by
  cases hmove with
  | byte _ hnext _ => exact h.ahead (Roll.ahead_of_next? hnext)
  | pass hs hadvance hprobe _ => exact (h.probed sound hs hadvance hprobe).1
  | @found roll survey table m item _ hs hadvance hprobe hbest hemit =>
    obtain ⟨hprobed, hcount⟩ := h.probed sound hs hadvance hprobe
    obtain ⟨hfinds, hlong, hstop, hcases⟩ := sound.found_cases hs hadvance hprobe hbest hemit
    have hone : (scan.probed roll survey table).stats.rejected +
        (scan.probed roll survey table).stats.matchCount + 1 ≤
          (scan.probed roll survey table).stats.candidates := by
      rwa [hbest] at hcount
    -- the match reaches the window, which starts one shortest match before the split
    have hback : roll.position ≤ m.destination + m.length + scan.params.minMatchLength := by
      have hreach : roll.position - scan.params.minMatchLength ≤ m.destination + m.length :=
        hfinds.start_le_stop
      omega
    have hjump := hprobed.jump hone rfl hfinds.floor_le hback hlong hstop
    rcases hcases with ⟨_, _, rfl⟩ | ⟨_, _, rfl⟩
    · exact hjump
    · exact ⟨hjump.hashed_le, hjump.boundaries_le, hjump.matched_le, hjump.matches_le,
        hjump.candidates_le, hjump.rejected_le⟩
  | @ended roll hs hadvance =>
    obtain ⟨⟨count, hahead⟩, _⟩ := Roll.advance_eq_false hadvance
    exact (h.ahead hahead).finish
  | hand _ =>
    exact ⟨h.hashed_le, h.boundaries_le, h.matched_le, h.matches_le, h.candidates_le,
      h.rejected_le⟩
  | rest _ _ => exact h

theorem Accounts.run (h : scan.Accounts history) (sound : scan.Sound history)
    (hrun : scan.Run windows answers after) : after.Accounts history :=
  sound.run_invariant (fun hsound hmid hmove => hmid.move hsound hmove) h hrun

/-- The accounts hold at every moment, between two moves as well as inside one. -/
theorem Accounts.moment (h : scan.Accounts history) (sound : scan.Sound history)
    (hmoment : scan.Moment after) :
    after.Accounts history ∧ after.Sound history ∧ after.params = scan.params := by
  cases hmoment with
  | reached hrun => exact ⟨h.run sound hrun, sound.run hrun, (sound.frame_of_run hrun).1⟩
  | taken hrun hs hnext =>
    exact ⟨(h.run sound hrun).ahead (Roll.ahead_of_next? hnext), (sound.run hrun).byte hs hnext,
      (sound.frame_of_run hrun).1⟩
  | probed hrun hs hadvance hprobe =>
    have hmid := sound.run hrun
    exact ⟨((h.run sound hrun).probed hmid hs hadvance hprobe).1, hmid.probed hs hadvance hprobe,
      (sound.frame_of_run hrun).1⟩

/-! ## What the accounts come to -/

/-- The work at a moment of a scan, measured by the bytes that the scan describes. -/
structure Linear (params : Params) (history : Nat) (scan : Scan data) : Prop where
  /-- No byte is hashed again but on account of a matched one. -/
  hashed_le : scan.roll.hashed ≤ scan.position - history + scan.stats.matchedBytes
  boundaries_le : scan.stats.boundaries * params.minMatchLength ≤
    scan.position - history + scan.stats.matchedBytes
  total_le : scan.position - history + scan.stats.matchedBytes ≤ 2 * (data.size - history)
  matches_le : scan.stats.matchCount ≤ params.maxSequences (data.size - history)

theorem Accounts.linear (h : scan.Accounts history) (sound : scan.Sound history) :
    scan.Linear scan.params history := by
  obtain ⟨hhashed, hboundaries, hmatched, hmatches, _, _⟩ := h
  have hhistory := sound.history_le
  have hanchor := sound.anchor_le
  have hposition := scan.position_le
  have hpos := sound.valid.minMatchLength_pos
  refine ⟨by omega, by omega, by omega, ?_⟩
  have hmax : max 1 scan.params.minMatchLength = scan.params.minMatchLength := by omega
  rw [Params.maxSequences, hmax, Nat.le_div_iff_mul_le hpos]
  omega

/-! ## Answers -/

/-- Until the end is told, a match accounts for two answers at most, and the end for one. -/
def Counted (answers : List (Option Sequence)) (scan : Scan data) : Prop :=
  none ∉ answers →
    answers.length + scan.pending.isSome.toNat ≤ 2 * scan.stats.matchCount + scan.done.toNat

theorem Counted.move (h : scan.Counted answers) (sound : scan.Sound history)
    (hmove : scan.Move windows newAnswers after) : after.Counted (answers ++ newAnswers) := by
  intro hnone
  have hcount := h fun hmem => hnone (List.mem_append_left _ hmem)
  rw [List.length_append]
  cases hmove with
  | byte _ _ _ => exact hcount
  | pass _ _ _ _ => exact hcount
  | found hs hadvance hprobe hbest hemit =>
    rw [hs.pending_eq, hs.done_eq] at hcount
    obtain ⟨_, _, hstop, ⟨_, rfl, rfl⟩ | ⟨_, rfl, rfl⟩⟩ :=
      sound.found_cases hs hadvance hprobe hbest hemit
    · show answers.length + 1 + scan.pending.isSome.toNat ≤
        2 * (scan.stats.matchCount + 1) + scan.done.toNat
      rw [hs.pending_eq, hs.done_eq]
      omega
    · -- the match waits, and its answer is counted already
      show answers.length + 1 + 1 ≤ 2 * (scan.stats.matchCount + 1) + scan.done.toNat
      rw [hs.done_eq]
      change answers.length + 0 ≤ 2 * scan.stats.matchCount + false.toNat at hcount
      omega
  | @ended roll hs _ =>
    rw [hs.done_eq] at hcount
    rcases finish_cases ({ scan with roll } : Scan data) with ⟨_, hfinish⟩ | ⟨_, hfinish⟩
    · rw [hfinish]
      show answers.length + 1 + scan.pending.isSome.toNat ≤ 2 * scan.stats.matchCount + 1
      change _ ≤ 2 * scan.stats.matchCount + 0 at hcount
      omega
    · rw [hfinish] at hnone
      exact absurd (List.mem_append_right _ (List.mem_singleton.mpr rfl)) hnone
  | @hand m hpending =>
    rw [hpending] at hcount
    exact hcount
  | rest _ _ => exact absurd (List.mem_append_right _ (List.mem_singleton.mpr rfl)) hnone

theorem Counted.run (sound : scan.Sound history) (h : scan.Counted [])
    (hrun : scan.Run windows answers after) : after.Counted answers :=
  sound.run_invariant (fun hsound hmid hmove => hmid.move hsound hmove) h hrun

/-- **The work of a scan is linear.** At every moment the bytes hashed, and the splits probed times
the shortest match, are within the distance covered and the bytes matched, so within twice what is
described; matches are no more than fit; and after two calls a match and two more the end is
told. -/
theorem work_is_linear (params : Params) (data : Buffer) (history : Nat) (table : Table)
    (hvalid : params.validate = .ok ()) (hsize : data.size < sizeBound)
    (hhistory : history ≤ data.size) :
    ∃ scan, start params data history table = .ok (.running scan) ∧
      (∀ moment, scan.Moment moment → moment.Linear params history) ∧
      (∀ count, ∃ windows answers after, scan.calls count = .ok (answers, after) ∧
        scan.Run windows answers after) ∧
      ∃ answers after,
        scan.calls (2 * params.maxSequences (data.size - history) + 2) = .ok (answers, after) ∧
          none ∈ answers := by
  have valid := Params.validate_eq_ok_iff.mp hvalid
  obtain ⟨base, _, hstart, sound⟩ := start_eq_running table valid hhistory hsize
  have haccounts := accounts_initial params hhistory
    (base.recordAll (historyWindows params data history))
  refine ⟨_, hstart, ?_, ?_, ?_⟩
  · intro moment hmoment
    obtain ⟨hmoment, hsound, hparams⟩ := haccounts.moment sound hmoment
    have hlinear := hmoment.linear hsound
    rwa [hparams] at hlinear
  · intro count
    obtain ⟨windows, answers, after, hcalls, hrun, _⟩ := sound.exists_calls count
    exact ⟨windows, answers, after, hcalls, hrun⟩
  · obtain ⟨windows, answers, after, hcalls, hrun, hlength⟩ :=
      sound.exists_calls (2 * params.maxSequences (data.size - history) + 2)
    refine ⟨answers, after, hcalls, ?_⟩
    have hmatches := ((haccounts.run sound hrun).linear (sound.run hrun)).matches_le
    rw [(sound.frame_of_run hrun).1] at hmatches
    have hcounted : after.Counted answers := Counted.run sound (fun _ => Nat.le_refl 0) hrun
    change _ ≤ params.maxSequences (data.size - history) at hmatches
    have hdone := Bool.toNat_le after.done
    -- were all these answers items, there would be more of them than the matches allow
    by_cases hnone : none ∈ answers
    · exact hnone
    · have hcount := hcounted hnone
      omega

/-- The four bytes hashed twice are those of the one match. -/
theorem wrong_hint_work_is_linear :
    hintedParams.validate = .ok () ∧ hintedData.size < sizeBound ∧ 0 ≤ hintedData.size ∧
      ∃ scan after, start hintedParams hintedData 0 hintedTable = .ok (.running scan) ∧
        scan.calls 4 = .ok (hintedAnswers, after) ∧ after.roll.hashed = 20 ∧
          after.Linear hintedParams 0 := by
  have hvalid : hintedParams.validate = .ok () := by decide
  have hsize : hintedData.size < sizeBound := by decide
  refine ⟨hvalid, hsize, Nat.zero_le _, ?_⟩
  obtain ⟨scan, hstart, hlinear, hcalls, _⟩ :=
    work_is_linear hintedParams hintedData 0 hintedTable hvalid hsize (Nat.zero_le _)
  obtain ⟨windows, answers, after, hcount, hrun⟩ := hcalls 4
  obtain ⟨rfl, hhashed⟩ := hinted_calls hstart hcount
  exact ⟨scan, after, hstart, hcount, hhashed, hlinear after (.reached hrun)⟩

end LongMatch.Scan
