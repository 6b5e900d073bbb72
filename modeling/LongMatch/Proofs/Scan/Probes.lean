import LongMatch.Proofs.Chunk.Ends
import LongMatch.Proofs.Scan.Description
/-!
# LongMatch.Proofs.Scan.Probes: a scan probes where chunks end

A scan rolls on its own and stops where the detector splits. From a place where it has just begun,
with nothing hashed yet, these are the ends of the chunks of the rest of the buffer, but for a last
chunk that is too short: `chunkSplits`. `probeEach` says what probing them in order comes to, and
`Sound.exists_probes` that the next call does just that. Between calls a scan that goes on is always
at such a place (`Rested`), where the match before ended. The result is `probes_follow_chunk_ends`.
-/

namespace LongMatch

/-- Where the chunks of the rest of the buffer from `start` on end that are long enough. -/
def chunkSplits (detector : Detector) (data : Buffer) (start : Nat) : List Nat :=
  (longEnds detector.minChunk 0
    (detector.chunkEnds (data.extract start data.size)).toList).map (start + ·)

variable {data : Buffer} {detector : Detector} {split : Nat}

/-- Of the ends of chunks at most the last is missing. -/
theorem chunkSplits_eq_or (detector : Detector) (data : Buffer) (start : Nat) :
    chunkSplits detector data start =
        (detector.chunkEnds (data.extract start data.size)).toList.map (start + ·) ∨
      chunkSplits detector data start =
        (detector.chunkEnds (data.extract start data.size)).toList.dropLast.map (start + ·) :=
  (Chunker.longEnds_ends (.start detector (data.extract start data.size)) rfl).imp
    (congrArg (List.map (start + ·))) (congrArg (List.map (start + ·)))

/-- The window before such an end lies at or after `start`. -/
theorem of_mem_chunkSplits {start : Nat} (hstart : start ≤ data.size)
    (h : split ∈ chunkSplits detector data start) :
    start + detector.minChunk ≤ split ∧ split ≤ data.size := by
  obtain ⟨stop, hmem, rfl⟩ := List.mem_map.mp h
  obtain ⟨hlong, hend⟩ := of_mem_longEnds hmem
  have hle := Detector.le_size_of_mem_chunkEnds (Array.mem_toList_iff.mp hend)
  rw [Roll.size_extract_rest] at hle
  omega

namespace Scan

open Sequence (matchedTo)

variable {history : Nat} {scan after : Scan data} {roll : Roll data}

/-! ## Probing a list of splits -/

/-- The scan after the window at a split is filed. -/
def filedAt (scan : Scan data) (split : Nat) : Scan data :=
  { scan with table := scan.table.insertAll [(scan.windowAt split).insertion] }

/-- Probes at the splits, in order, up to the first probe that finds a match. At each the table is
looked up and then the window is filed. Gives the splits probed, and the match. -/
def probeEach (scan : Scan data) : List Nat → Except Fault (List Nat × Option Match)
  | [] => .ok ([], none)
  | split :: splits => do
    let survey ← scan.surveyAt split
    match survey.best with
    | some m => return ([split], some m)
    | none =>
      let (probed, found) ← (scan.filedAt split).probeEach splits
      return (split :: probed, found)

theorem probeEach_of_some {splits : List Nat} {survey : Survey} {m : Match}
    (hsurvey : scan.surveyAt split = .ok survey) (hbest : survey.best = some m) :
    scan.probeEach (split :: splits) = .ok ([split], some m) := by
  rw [probeEach, hsurvey, Checked.ok_bind, hbest]
  rfl

theorem probeEach_of_none {splits probed : List Nat} {survey : Survey} {found : Option Match}
    (hsurvey : scan.surveyAt split = .ok survey) (hbest : survey.best = none)
    (hrest : (scan.filedAt split).probeEach splits = .ok (probed, found)) :
    scan.probeEach (split :: splits) = .ok (split :: probed, found) := by
  rw [probeEach, hsurvey, Checked.ok_bind, hbest]
  simp only [hrest, Checked.ok_bind]
  rfl

/-- Probing depends on the settings, the table and the anchor only. -/
theorem probeEach_congr {other : Scan data} (hparams : other.params = scan.params)
    (htable : other.table = scan.table) (hanchor : other.anchor = scan.anchor)
    (splits : List Nat) : other.probeEach splits = scan.probeEach splits := by
  induction splits generalizing scan other with
  | nil => rfl
  | cons split splits ih =>
    have hwindow : other.windowAt split = scan.windowAt split := by
      rw [windowAt, windowAt, hparams]
    have hsurvey : other.surveyAt split = scan.surveyAt split := by
      rw [surveyAt, surveyAt, probeOf, probeOf, hwindow, hparams, htable, hanchor]
    have htable' : (other.filedAt split).table = (scan.filedAt split).table := by
      rw [filedAt, filedAt, hwindow, htable]
    have hrest : (other.filedAt split).probeEach splits = (scan.filedAt split).probeEach splits :=
      ih hparams htable' hanchor
    rw [probeEach, probeEach, hsurvey, hrest]

/-- A list that is probed is probed up to some place, and to its end if nothing is found. -/
theorem probed_of_probeEach {splits probed : List Nat} {found : Option Match}
    (h : scan.probeEach splits = .ok (probed, found)) :
    probed <+: splits ∧ (found = none → probed = splits) := by
  induction splits generalizing scan probed with
  | nil =>
    cases h
    exact ⟨List.prefix_rfl, fun _ => rfl⟩
  | cons split splits ih =>
    obtain ⟨survey, hsurvey, h⟩ := Checked.bind_eq_ok_iff.mp h
    cases hbest : survey.best with
    | some m =>
      rw [hbest] at h
      cases h
      exact ⟨List.prefix_append [split] splits, nofun⟩
    | none =>
      rw [hbest] at h
      obtain ⟨⟨probed, found⟩, hrest, hpair⟩ := Checked.bind_eq_ok_iff.mp h
      cases hpair
      obtain ⟨hfront, hall⟩ := ih hrest
      exact ⟨List.cons_prefix_cons.mpr ⟨rfl, hfront⟩, fun h => congrArg (split :: ·) (hall h)⟩

/-! ## A call probes the splits -/

theorem done_finish (scan : Scan data) : scan.finish.2.done = true := by
  rcases finish_cases scan with ⟨_, hfinish⟩ | ⟨_, hfinish⟩
  · rw [hfinish]
  · rw [hfinish]

/-- A split is probed by a move, which goes on or concludes with the match that the probe finds. -/
theorem Sound.exists_probe_move (h : scan.Sound history) (hs : scan.Searching)
    (hadvance : scan.roll.advance scan.detector.splits = (roll, true)) :
    ∃ survey, scan.surveyAt roll.position = .ok survey ∧
      ((survey.best = none ∧ scan.Move [scan.windowAt roll.position] []
          (scan.probed roll survey (scan.table.record (scan.windowAt roll.position)))) ∨
        ∃ m answer after, survey.best = some m ∧
          scan.Move [scan.windowAt roll.position] [answer] after ∧
            Concludes answer after (some m)) := by
  have hroom := h.anchor_add_le hs hadvance
  obtain ⟨survey, hsurvey, _⟩ := h.exists_surveyAt hroom roll.position_le
  have hprobe := h.probeAt_of_surveyAt hroom roll.position_le hsurvey
  refine ⟨survey, hsurvey, ?_⟩
  cases hbest : survey.best with
  | none => exact Or.inl ⟨rfl, .pass hs hadvance hprobe hbest⟩
  | some m =>
    obtain ⟨answer, after, hmove, hconcludes⟩ := h.exists_found_move hs hadvance hprobe hbest
    exact Or.inr ⟨m, answer, after, rfl, hmove, hconcludes⟩

/-- From the start of a chunk on, a call probes at the ends of the chunks that are long enough. -/
theorem Sound.exists_probes {scan : Scan data} {start : Nat}
    {inner : Roll (data.extract start data.size)} (h : scan.Sound history) (hs : scan.Searching)
    (hshift : scan.roll.Shifted start inner) (hlength : inner.length = 0) :
    ∃ probed found answer after,
      scan.probeEach ((longEnds scan.detector.minChunk inner.position
        (Chunker.mk scan.detector inner).ends).map (start + ·)) = .ok (probed, found) ∧
      scan.next = .ok (answer, after) ∧ scan.Run (probed.map scan.windowAt) [answer] after ∧
        Concludes answer after found := by
  rcases hinner : inner.advance scan.detector.closes with ⟨next, closed⟩
  obtain ⟨roll, hadvance, hnext⟩ := hshift.exists_advance hinner
  have hlong := @Chunker.longEnds_of_advance _ ⟨scan.detector, inner⟩ next closed hlength hinner
  cases hsplits : closed && scan.detector.splits next with
  | false =>
    -- no chunk is left that is long enough
    rw [hsplits] at hadvance hlong
    have hlist : (longEnds scan.detector.minChunk inner.position
        (Chunker.mk scan.detector inner).ends).map (start + ·) = [] :=
      congrArg (List.map (start + ·)) hlong
    have hmove := Move.ended hs hadvance
    rw [hlist]
    exact ⟨[], none, _, _, rfl, hmove.next_eq_ok, Run.refl.tail hmove, done_finish _⟩
  | true =>
    rw [hsplits] at hadvance hlong
    have hlist : (longEnds scan.detector.minChunk inner.position
        (Chunker.mk scan.detector inner).ends).map (start + ·) = roll.position ::
          (longEnds scan.detector.minChunk next.position
            (Chunker.mk scan.detector next.cut).ends).map (start + ·) := by
      rw [hnext.position_eq]
      exact congrArg (List.map (start + ·)) hlong
    rw [hlist]
    obtain ⟨survey, hsurvey, ⟨hbest, hmove⟩ | ⟨m, answer, after, hbest, hmove, hconcludes⟩⟩ :=
      h.exists_probe_move hs hadvance
    · -- the same call goes on from the start of the next chunk
      have hfewer : (scan.probed roll survey
          (scan.table.record (scan.windowAt roll.position))).roll.remaining <
            scan.roll.remaining := roll.remaining_cut.symm ▸ Roll.remaining_advance hadvance
      obtain ⟨probed, found, answer, after, hprobes, hcall, hrun, hconcludes⟩ :=
        (h.move hmove).exists_probes ⟨hs.1, hs.2⟩ hnext.cut rfl
      have hsame := @probeEach_congr _
        (scan.probed roll survey (scan.table.record (scan.windowAt roll.position)))
        (scan.filedAt roll.position) rfl rfl rfl
      exact ⟨roll.position :: probed, found, answer, after,
        probeEach_of_none hsurvey hbest ((hsame _).trans hprobes), hmove.next_eq_next.trans hcall,
        (Run.refl.tail hmove).trans hrun, hconcludes⟩
    · exact ⟨[roll.position], some m, answer, after, probeEach_of_some hsurvey hbest,
        hmove.next_eq_ok, Run.refl.tail hmove, hconcludes⟩
termination_by scan.roll.remaining

/-! ## Between calls -/

/-- The scan is over, or it has nothing hashed and goes on from the anchor. -/
def Rested (scan : Scan data) : Prop :=
  scan.done = false →
    scan.roll.hash = .zero ∧ scan.roll.length = 0 ∧ scan.position = scan.anchor

/-- A match puts the scan at its end with nothing hashed. -/
theorem rested_of_emit {m : Match} {item : Sequence} (h : scan.emit m = .ok (item, after)) :
    after.Rested := by
  obtain ⟨stop, hstop, h⟩ := Checked.bind_eq_ok_iff.mp h
  intro hdone
  cases hseek : scan.roll.cursor.seek stop with
  | error error =>
    -- a match that ends beyond the buffer would end the scan
    simp only [hseek] at h
    split at h <;> cases h <;> cases hdone
  | ok cursor =>
    have hcursor := Cursor.seek_eq_ok_iff.mp hseek
    simp only [hseek] at h
    split at h <;> cases h <;> exact ⟨rfl, rfl, hcursor⟩

theorem Rested.next {answer : Option Sequence} (h : scan.Rested)
    (hnext : scan.next = .ok (answer, after)) : after.Rested := by
  unfold Scan.next at hnext
  split at hnext
  · cases hnext
    exact h
  · split at hnext
    · cases hnext
      exact h
    · split at hnext
      · cases hnext
      · next ended _ =>
        have hfinish : ended.finish = (answer, after) := Except.ok.inj hnext
        have hover := done_finish ended
        rw [hfinish] at hover
        intro hdone
        cases hover.symm.trans hdone
      · obtain ⟨⟨item, mid⟩, hemit, hpair⟩ := Checked.bind_eq_ok_iff.mp hnext
        cases hpair
        exact rested_of_emit hemit

theorem Rested.calls {count : Nat} {answers : List (Option Sequence)} (h : scan.Rested)
    (hcalls : scan.calls count = .ok (answers, after)) : after.Rested := by
  induction count generalizing answers after with
  | zero =>
    cases hcalls
    exact h
  | succ count ih =>
    obtain ⟨⟨front, mid⟩, hfront, hcalls⟩ := Checked.bind_eq_ok_iff.mp hcalls
    obtain ⟨⟨answer, last⟩, hnext, hpair⟩ := Checked.bind_eq_ok_iff.mp hcalls
    cases hpair
    exact (ih hfront).next hnext

/-- A scan that rests is where the chunker of the rest of the buffer begins. -/
theorem Rested.shifted (h : scan.Rested) (hs : scan.Searching) :
    scan.roll.Shifted scan.anchor (.start ⟨0, Nat.zero_le _⟩) := by
  obtain ⟨hhash, hlength, hposition⟩ := h hs.done_eq
  exact ⟨hposition, hhash, hlength⟩

/-- The next call of a scan that goes on from `start` probes at the ends of the long chunks of the
rest of the buffer, in order, up to the first probe that finds a match. -/
structure ProbesChunks (detector : Detector) (start : Nat) (scan : Scan data) (probed : List Nat)
    (found : Option Match) (answer : Option Sequence) (after : Scan data) : Prop where
  position_eq : scan.position = start
  /-- Of the ends of chunks at most the last is passed over. -/
  splits : let ends := (detector.chunkEnds (data.extract start data.size)).toList
    chunkSplits detector data start = ends.map (start + ·) ∨
      chunkSplits detector data start = ends.dropLast.map (start + ·)
  probes : scan.probeEach (chunkSplits detector data start) = .ok (probed, found)
  front : probed <+: chunkSplits detector data start
  all : found = none → probed = chunkSplits detector data start
  next_eq : scan.next = .ok (answer, after)
  /-- The moves of the call file the windows before the probed splits and no other. -/
  run : scan.Run (probed.map (.before data detector.minChunk)) [answer] after
  table_eq : after.table = scan.table.insertAll
    ((probed.map (.before data detector.minChunk)).map Window.insertion)
  /-- No probed window begins before `start`. -/
  inside : ∀ split, split ∈ probed → start + detector.minChunk ≤ split ∧ split ≤ data.size
  concludes : Concludes answer after found

theorem Rested.exists_probesChunks (h : scan.Rested) (sound : scan.Sound history)
    (hs : scan.Searching) :
    ∃ probed found answer after,
      ProbesChunks scan.detector scan.anchor scan probed found answer after := by
  obtain ⟨probed, found, answer, after, hprobes, hnext, hrun, hconcludes⟩ :=
    sound.exists_probes hs (h.shifted hs) rfl
  obtain ⟨hfront, hall⟩ := probed_of_probeEach hprobes
  have hwindow : scan.windowAt = .before data scan.detector.minChunk := by
    rw [sound.detector_eq]
    rfl
  rw [hwindow] at hrun
  have htable := (sound.frame_of_run hrun).2
  rw [Table.recordAll_eq_insertAll] at htable
  refine ⟨probed, found, answer, after, (h hs.done_eq).2.2, chunkSplits_eq_or _ _ _, hprobes,
    hfront, hall, hnext, hrun, htable, ?_, hconcludes⟩
  intro split hmem
  exact of_mem_chunkSplits (Nat.le_trans sound.anchor_le scan.position_le) (hfront.subset hmem)

/-- A call of a scan that does not search probes nothing. -/
theorem exists_idle_move (hidle : ¬scan.Searching) :
    ∃ answer after, scan.Move [] [answer] after := by
  rcases hpending : scan.pending with _ | m
  · cases hdone : scan.done with
    | true => exact ⟨_, _, .rest hpending hdone⟩
    | false => exact absurd ⟨hpending, hdone⟩ hidle
  · exact ⟨_, _, .hand hpending⟩

/-- **Probes follow the ends of chunks.** After any number of calls a scan that goes on stands at
`history` or at the end of the last match. From there its next call probes where the chunker of the
rest of the buffer would end its chunks, but for a last one that is too short, up to the first probe
that finds a match; it files the window of each probe once and no other. Any other call probes
nothing. -/
theorem probes_follow_chunk_ends (params : Params) (data : Buffer) (history : Nat) (table : Table)
    (hvalid : params.validate = .ok ()) (hsize : data.size < sizeBound)
    (hhistory : history ≤ data.size) :
    ∃ detector scan, Detector.ofParams params = .ok detector ∧
      detector.minChunk = params.minMatchLength ∧
      start params data history table = .ok (.running scan) ∧
        ∀ count, ∃ answers mid, scan.calls count = .ok (answers, mid) ∧
          (mid.Searching → ∃ probed found answer after,
            ProbesChunks detector (matchedTo history (itemsOf answers)) mid probed found answer
              after) ∧
          (¬mid.Searching → ∃ answer after, mid.next = .ok (answer, after) ∧
            mid.Run [] [answer] after) := by
  have valid := Params.validate_eq_ok_iff.mp hvalid
  obtain ⟨base, _, hstart, sound⟩ := start_eq_running table valid hhistory hsize
  refine ⟨params.detector, _, valid.detector_eq, rfl, hstart, ?_⟩
  intro count
  obtain ⟨windows, answers, mid, hcalls, hrun, _⟩ := sound.exists_calls count
  have hmid := sound.run hrun
  have hrested : mid.Rested := Rested.calls (fun _ => ⟨rfl, rfl, rfl⟩) hcalls
  refine ⟨answers, mid, hcalls, ?_, ?_⟩
  · intro hs
    have hdetector : mid.detector = params.detector := by
      rw [hmid.detector_eq, (sound.frame_of_run hrun).1]
      rfl
    rw [((described_initial hhistory).run sound hrun).matched hs, ← hdetector]
    exact hrested.exists_probesChunks hmid hs
  · intro hidle
    obtain ⟨answer, after, hmove⟩ := exists_idle_move hidle
    exact ⟨answer, after, hmove.next_eq_ok, Run.refl.tail hmove⟩

/-! ### Three chunks, of which one is probed

After the history every fourth byte ends a chunk, and a last chunk of two bytes is too short. The
window before the first end repeats the history, so the scan goes on from there. -/

def chunkedData : Buffer := #[7, 7, 7, 7, 7, 7, 7, 7, 1, 2, 3, 4, 5, 6]

/-- What probing at the ends of the long chunks comes to, if a scan starts. -/
def probing (params : Params) (data : Buffer) (history : Nat) (table : Table) :
    Option (List Nat × Option Match) :=
  match Detector.ofParams params, start params data history table with
  | .ok detector, .ok (.running scan) =>
    (scan.probeEach (chunkSplits detector data history)).toOption
  | _, _ => none

theorem chunked_probing :
    probing hintedParams chunkedData 4 (.empty 6 0) = some ([8], some ⟨0, 4, 4⟩) := by
  decide +kernel

theorem first_chunk_end_is_found :
    hintedParams.validate = .ok () ∧ chunkedData.size < sizeBound ∧ 4 ≤ chunkedData.size ∧
      hintedParams.detector.chunkEnds (chunkedData.extract 4 chunkedData.size) = #[4, 8, 10] ∧
      chunkSplits hintedParams.detector chunkedData 4 = [8, 12] ∧
        ∃ scan answer after, start hintedParams chunkedData 4 (.empty 6 0) = .ok (.running scan) ∧
          ProbesChunks hintedParams.detector 4 scan [8] (some ⟨0, 4, 4⟩) answer after := by
  have hvalid : hintedParams.validate = .ok () := by decide
  have hsize : chunkedData.size < sizeBound := by decide
  have hhistory : 4 ≤ chunkedData.size := by decide
  have hends : hintedParams.detector.chunkEnds (chunkedData.extract 4 chunkedData.size) =
      #[4, 8, 10] := by decide +kernel
  have hsplits : chunkSplits hintedParams.detector chunkedData 4 = [8, 12] := by decide +kernel
  refine ⟨hvalid, hsize, hhistory, hends, hsplits, ?_⟩
  obtain ⟨detector, scan, hdetector, _, hstart, hcalls⟩ := probes_follow_chunk_ends hintedParams
    chunkedData 4 (.empty 6 0) hvalid hsize hhistory
  have hsame := (Params.validate_eq_ok_iff.mp hvalid).detector_eq
  obtain rfl : hintedParams.detector = detector := Except.ok.inj (hsame.symm.trans hdetector)
  obtain ⟨answers, mid, hnone, hprobes, _⟩ := hcalls 0
  cases hnone
  have hs : scan.Searching := by
    obtain ⟨_, _, _, _, _, hscan, _⟩ := of_start_eq_running hstart
    rw [hscan]
    exact ⟨rfl, rfl⟩
  obtain ⟨probed, found, answer, after, hchunks⟩ := hprobes hs
  change ProbesChunks hintedParams.detector 4 scan probed found answer after at hchunks
  have hprobing := chunked_probing
  simp only [probing, hdetector, hstart, hchunks.probes] at hprobing
  cases hprobing
  exact ⟨scan, answer, after, hstart, hchunks⟩

end Scan

end LongMatch
