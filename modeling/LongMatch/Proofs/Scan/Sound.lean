import LongMatch.Proofs.Scan.Moves
import LongMatch.Proofs.Scan.Survey
/-!
# LongMatch.Proofs.Scan.Sound: the state of a scan between moves

`Scan.Sound` ties the anchor to the position of the roll and the length of its chunk: the chunk in
hand lies between the two. From it follows what each part of a move does (`probe_spec`,
`found_spec`, `finish_cases`), that every move keeps it (`Sound.move`), and that a move is always
possible (`Sound.exists_move`), so that calls never fault: `Sound.exists_calls`. Whatever else the
moves of a sound scan keep holds after every run: `Sound.run_invariant`. Its runs are its calls,
with every probe in its place: `Sound.traced`.

Nothing here is said of the entries of the table but that there are not too many of them.
-/

namespace LongMatch.Scan

variable {data : Buffer} {history : Nat}

/-- The state of a scan between moves. `history` is where the description begins. -/
structure Sound (history : Nat) (scan : Scan data) : Prop where
  valid : scan.params.Valid
  size_lt : data.size < sizeBound
  detector_eq : scan.detector = scan.params.detector
  sized : scan.table.Sized scan.params
  history_le : history ≤ scan.anchor
  anchor_le : scan.anchor ≤ scan.position
  /-- The chunk in hand does not reach back over the anchor. -/
  chunk_le : scan.done = false → scan.anchor + scan.roll.length ≤ scan.position
  pending_eq : scan.done = true → scan.pending = none
  anchor_eq : scan.done = true → scan.anchor = data.size

theorem sizeBound_lt : sizeBound < Checked.sizeBound := by decide

variable {scan after : Scan data} {roll : Roll data} {survey : Survey} {table : Table} {m : Match}
  {item : Sequence}

theorem position_le (scan : Scan data) : scan.position ≤ data.size := scan.roll.position_le

/-! ## A probe -/

/-- The probe that a scan makes at a split. -/
def probeOf (scan : Scan data) (split : Nat) : Probe where
  window := scan.windowAt split
  minMatch := scan.params.minChunk
  maxDistance := 2 ^ scan.params.windowLog
  anchor := scan.anchor

/-- A split leaves room for a window past the anchor. -/
theorem Sound.anchor_add_le (h : scan.Sound history) (hs : scan.Searching)
    (hadvance : scan.roll.advance scan.detector.splits = (roll, true)) :
    scan.anchor + scan.params.minChunk ≤ roll.position := by
  obtain ⟨count, _, hahead, hsplit⟩ := Roll.advance_eq_true hadvance
  have hmin : scan.params.minChunk ≤ roll.length := by
    have hchunk := Detector.minChunk_le_of_splits hsplit
    rwa [h.detector_eq] at hchunk
  -- the chunk in hand started at the anchor or later and is not too short at the split
  have hlength := hahead.length_eq
  have hposition := hahead.position_eq
  have hchunk := h.chunk_le hs.done_eq
  unfold position at hchunk
  omega

/-- What the entries of the bucket probed at a split come to. -/
def surveyAt (scan : Scan data) (split : Nat) : Except Fault Survey :=
  (scan.probeOf split).survey data (scan.table.entries (scan.windowAt split).key)

theorem Sound.inRange_probeOf (h : scan.Sound history) {split : Nat}
    (hroom : scan.anchor + scan.params.minChunk ≤ split) (hsplit : split ≤ data.size) :
    (scan.probeOf split).InRange data := by
  have hsize := h.size_lt
  have hbound := sizeBound_lt
  refine ⟨?_, ?_, by omega⟩
  · show scan.anchor ≤ split - scan.params.minChunk
    omega
  · show split - scan.params.minChunk ≤ data.size
    omega

/-- At a split a probe looks at the bucket of the window there, and then files the window. -/
theorem Sound.probeAt_eq (h : scan.Sound history) {split : Nat}
    (hroom : scan.anchor + scan.params.minChunk ≤ split) (hsplit : split ≤ data.size) :
    scan.probeAt split = do
      return (← scan.surveyAt split, scan.table.record (scan.windowAt split)) := by
  have hwindow : Window.endingAt data scan.params.minChunk split = .ok (scan.windowAt split) :=
    Window.endingAt_of_le (by omega) hsplit
  simp only [probeAt, hwindow, Checked.ok_bind, h.valid.maxDistance_eq]
  rfl

/-- A probe at a split has an answer, whatever the bucket holds. -/
theorem Sound.exists_surveyAt (h : scan.Sound history) {split : Nat}
    (hroom : scan.anchor + scan.params.minChunk ≤ split) (hsplit : split ≤ data.size) :
    ∃ survey, scan.surveyAt split = .ok survey ∧
      (scan.probeOf split).Surveyed data (2 ^ scan.table.bucketSizeLog) survey := by
  obtain ⟨survey, hsurvey, hsurveyed⟩ := Probe.exists_survey (h.inRange_probeOf hroom hsplit)
    (scan.table.entries (scan.windowAt split).key)
  refine ⟨survey, hsurvey, hsurveyed.finds, hsurveyed.long, hsurveyed.rejected_le, ?_⟩
  exact Nat.le_trans hsurveyed.candidates_le (Table.length_entries_le _ _)

theorem Sound.probeAt_of_surveyAt (h : scan.Sound history) {split : Nat}
    (hroom : scan.anchor + scan.params.minChunk ≤ split) (hsplit : split ≤ data.size)
    (hsurvey : scan.surveyAt split = .ok survey) :
    scan.probeAt split = .ok (survey, scan.table.record (scan.windowAt split)) := by
  rw [h.probeAt_eq hroom hsplit, hsurvey]
  rfl

theorem Sound.exists_probeAt (h : scan.Sound history) {split : Nat}
    (hroom : scan.anchor + scan.params.minChunk ≤ split) (hsplit : split ≤ data.size) :
    ∃ survey, scan.probeAt split = .ok (survey, scan.table.record (scan.windowAt split)) ∧
      (scan.probeOf split).Surveyed data (2 ^ scan.table.bucketSizeLog) survey := by
  obtain ⟨survey, hsurvey, hsurveyed⟩ := h.exists_surveyAt hroom hsplit
  exact ⟨survey, h.probeAt_of_surveyAt hroom hsplit hsurvey, hsurveyed⟩

theorem Sound.probe_spec (h : scan.Sound history) (hs : scan.Searching)
    (hadvance : scan.roll.advance scan.detector.splits = (roll, true))
    (hprobe : scan.probeAt roll.position = .ok (survey, table)) :
    table = scan.table.record (scan.windowAt roll.position) ∧
      (scan.probeOf roll.position).Surveyed data (2 ^ scan.table.bucketSizeLog) survey := by
  obtain ⟨survey', hprobe', hsurveyed⟩ :=
    h.exists_probeAt (h.anchor_add_le hs hadvance) roll.position_le
  rw [hprobe] at hprobe'
  cases hprobe'
  exact ⟨rfl, hsurveyed⟩

/-! ## Taking a match -/

/-- The scan that goes on from the end of a match. -/
def jump (scan : Scan data) (m : Match) (hstop : m.destination + m.length ≤ data.size) :
    Scan data :=
  { scan with
    anchor := m.destination + m.length
    roll := scan.roll.restart ⟨m.destination + m.length, hstop⟩
    stats := scan.stats.addMatch m }

/-- A match past the anchor is handed out after the literals before it, if there are any. -/
theorem emit_cases (scan : Scan data) (hsize : data.size < sizeBound)
    (hfloor : scan.anchor ≤ m.destination) (hstop : m.destination + m.length ≤ data.size) :
    (m.destination = scan.anchor ∧ scan.emit m = .ok (.copy m, scan.jump m hstop)) ∨
      (scan.anchor < m.destination ∧
        scan.emit m = .ok (.literals ⟨scan.anchor, m.destination⟩,
          { scan.jump m hstop with pending := some m })) := by
  have hend := Match.destinationEnd_of_le hstop (Nat.lt_trans hsize sizeBound_lt)
  have hseek : scan.roll.cursor.seek (m.destination + m.length) =
      .ok ⟨m.destination + m.length, hstop⟩ := Cursor.seek_eq_ok_iff.mpr rfl
  simp only [emit, hend, Checked.ok_bind, hseek, Span.length]
  by_cases heq : m.destination = scan.anchor
  · rw [if_pos (by omega)]
    exact Or.inl ⟨heq, rfl⟩
  · rw [if_neg (by omega)]
    exact Or.inr ⟨by omega, rfl⟩

/-- A match that a probe settles on is long enough and what the probe finds, and it is handed out
from where the scan was. -/
theorem Sound.found_spec (h : scan.Sound history) (hs : scan.Searching)
    (hadvance : scan.roll.advance scan.detector.splits = (roll, true))
    (hprobe : scan.probeAt roll.position = .ok (survey, table)) (hbest : survey.best = some m) :
    (scan.probeOf roll.position).Finds data m ∧ scan.params.minMatchLength ≤ m.length ∧
      ∃ hstop : m.destination + m.length ≤ data.size,
        (m.destination = scan.anchor ∧
            (scan.probed roll survey table).emit m =
              .ok (.copy m, (scan.probed roll survey table).jump m hstop)) ∨
          (scan.anchor < m.destination ∧
            (scan.probed roll survey table).emit m =
              .ok (.literals ⟨scan.anchor, m.destination⟩,
                { (scan.probed roll survey table).jump m hstop with pending := some m })) := by
  obtain ⟨_, hsurveyed⟩ := h.probe_spec hs hadvance hprobe
  have hfinds := hsurveyed.finds m hbest
  exact ⟨hfinds, hsurveyed.long m hbest, hfinds.stop_le,
    emit_cases (scan.probed roll survey table) h.size_lt hfinds.floor_le hfinds.stop_le⟩

/-- What is handed out when a match is found, and where the scan goes on. -/
theorem Sound.found_cases (h : scan.Sound history) (hs : scan.Searching)
    (hadvance : scan.roll.advance scan.detector.splits = (roll, true))
    (hprobe : scan.probeAt roll.position = .ok (survey, table)) (hbest : survey.best = some m)
    (hemit : (scan.probed roll survey table).emit m = .ok (item, after)) :
    (scan.probeOf roll.position).Finds data m ∧ scan.params.minMatchLength ≤ m.length ∧
      ∃ hstop : m.destination + m.length ≤ data.size,
        (m.destination = scan.anchor ∧ item = .copy m ∧
            after = (scan.probed roll survey table).jump m hstop) ∨
          (scan.anchor < m.destination ∧ item = .literals ⟨scan.anchor, m.destination⟩ ∧
            after = { (scan.probed roll survey table).jump m hstop with pending := some m }) := by
  obtain ⟨hfinds, hlong, hstop, hcases⟩ := h.found_spec hs hadvance hprobe hbest
  refine ⟨hfinds, hlong, hstop, ?_⟩
  rcases hcases with ⟨hstart, hcopy⟩ | ⟨hlt, hliterals⟩
  · rw [hcopy] at hemit
    cases hemit
    exact Or.inl ⟨hstart, rfl, rfl⟩
  · rw [hliterals] at hemit
    cases hemit
    exact Or.inr ⟨hlt, rfl, rfl⟩

/-! ## The end -/

/-- At the end the bytes from the anchor on are handed out, if there are any. -/
theorem finish_cases (scan : Scan data) :
    (scan.anchor < data.size ∧
        scan.finish = (some (.literals ⟨scan.anchor, data.size⟩),
          { scan with done := true, anchor := data.size })) ∨
      (data.size ≤ scan.anchor ∧ scan.finish = (none, { scan with done := true })) := by
  unfold finish
  by_cases hlt : scan.anchor < data.size
  · exact Or.inl ⟨hlt, if_pos hlt⟩
  · exact Or.inr ⟨by omega, if_neg hlt⟩

/-! ## Every move keeps a scan sound -/

theorem Sound.byte (h : scan.Sound history) (hs : scan.Searching)
    (hnext : scan.roll.next? = some roll) : ({ scan with roll } : Scan data).Sound history := by
  obtain ⟨hposition, hlength, _⟩ := Roll.ahead_of_next? hnext
  have hchunk := h.chunk_le hs.done_eq
  unfold position at hchunk
  refine ⟨h.valid, h.size_lt, h.detector_eq, h.sized, h.history_le, ?_, ?_, h.pending_eq,
    h.anchor_eq⟩
  · show scan.anchor ≤ roll.position
    omega
  · intro _
    show scan.anchor + roll.length ≤ roll.position
    omega

theorem Sound.probed (h : scan.Sound history) (hs : scan.Searching)
    (hadvance : scan.roll.advance scan.detector.splits = (roll, true))
    (hprobe : scan.probeAt roll.position = .ok (survey, table)) :
    (scan.probed roll survey table).Sound history := by
  obtain ⟨rfl, _⟩ := h.probe_spec hs hadvance hprobe
  have hroom := h.anchor_add_le hs hadvance
  refine ⟨h.valid, h.size_lt, h.detector_eq, h.sized.record _, h.history_le, ?_, ?_,
    h.pending_eq, h.anchor_eq⟩
  · show scan.anchor ≤ roll.position
    omega
  · -- the cut empties the chunk in hand
    intro _
    show scan.anchor + 0 ≤ roll.position
    omega

theorem Sound.jump (h : scan.Sound history) (hs : scan.Searching)
    (hfloor : scan.anchor ≤ m.destination) (hstop : m.destination + m.length ≤ data.size) :
    (scan.jump m hstop).Sound history := by
  have hhistory := h.history_le
  refine ⟨h.valid, h.size_lt, h.detector_eq, h.sized, ?_, Nat.le_refl _, fun _ => Nat.le_refl _,
    h.pending_eq, ?_⟩
  · show history ≤ m.destination + m.length
    omega
  · intro hdone
    cases hs.done_eq.symm.trans hdone

theorem Sound.withPending {pending : Option Match} (h : scan.Sound history)
    (hdone : scan.done = true → pending = none) :
    ({ scan with pending } : Scan data).Sound history :=
  ⟨h.valid, h.size_lt, h.detector_eq, h.sized, h.history_le, h.anchor_le, h.chunk_le, hdone,
    h.anchor_eq⟩

theorem Sound.finish (h : scan.Sound history) (hpending : scan.pending = none)
    (hend : scan.position = data.size) : scan.finish.2.Sound history := by
  have hanchor := h.anchor_le
  have hhistory := h.history_le
  rcases finish_cases scan with ⟨hlt, hfinish⟩ | ⟨hle, hfinish⟩
  · rw [hfinish]
    refine ⟨h.valid, h.size_lt, h.detector_eq, h.sized, ?_, ?_, nofun, fun _ => hpending,
      fun _ => rfl⟩
    · show history ≤ data.size
      omega
    · show data.size ≤ scan.position
      omega
  · rw [hfinish]
    refine ⟨h.valid, h.size_lt, h.detector_eq, h.sized, h.history_le, h.anchor_le, nofun,
      fun _ => hpending, ?_⟩
    intro _
    show scan.anchor = data.size
    omega

/-- The roll at the end of the buffer keeps a scan sound. -/
theorem Sound.rolled (h : scan.Sound history) (hs : scan.Searching)
    (hadvance : scan.roll.advance scan.detector.splits = (roll, false)) :
    ({ scan with roll } : Scan data).Sound history := by
  obtain ⟨⟨count, hposition, hlength, _⟩, _⟩ := Roll.advance_eq_false hadvance
  have hchunk := h.chunk_le hs.done_eq
  unfold position at hchunk
  refine ⟨h.valid, h.size_lt, h.detector_eq, h.sized, h.history_le, ?_, ?_, h.pending_eq,
    h.anchor_eq⟩
  · show scan.anchor ≤ roll.position
    omega
  · intro _
    show scan.anchor + roll.length ≤ roll.position
    omega

theorem Sound.move {windows : List Window} {answers : List (Option Sequence)}
    (h : scan.Sound history) (hmove : scan.Move windows answers after) : after.Sound history := by
  cases hmove with
  | byte hs hnext _ => exact h.byte hs hnext
  | pass hs hadvance hprobe _ => exact h.probed hs hadvance hprobe
  | found hs hadvance hprobe hbest hemit =>
    obtain ⟨hfinds, _, hstop, hcases⟩ := h.found_cases hs hadvance hprobe hbest hemit
    have hjump := (h.probed hs hadvance hprobe).jump ⟨hs.1, hs.2⟩ hfinds.floor_le hstop
    rcases hcases with ⟨_, _, rfl⟩ | ⟨_, _, rfl⟩
    · exact hjump
    · exact hjump.withPending fun hdone => by cases hs.done_eq.symm.trans hdone
  | ended hs hadvance =>
    exact (h.rolled hs hadvance).finish hs.pending_eq (Roll.advance_eq_false hadvance).2
  | hand _ => exact h.withPending fun _ => rfl
  | rest _ _ => exact h

theorem Sound.run {windows : List Window} {answers : List (Option Sequence)}
    (h : scan.Sound history) (hrun : scan.Run windows answers after) : after.Sound history := by
  induction hrun with
  | refl => exact h
  | tail _ hmove ih => exact ih.move hmove

/-- What holds at the start of a sound scan and is kept by every move holds after every run. -/
@[elab_as_elim]
theorem Sound.run_invariant
    {motive : List Window → List (Option Sequence) → Scan data → Prop}
    {windows : List Window} {answers : List (Option Sequence)} (h : scan.Sound history)
    (keep : ∀ {windows newWindows : List Window} {answers newAnswers : List (Option Sequence)}
      {mid after : Scan data}, mid.Sound history → motive windows answers mid →
        mid.Move newWindows newAnswers after →
          motive (windows ++ newWindows) (answers ++ newAnswers) after)
    (hstart : motive [] [] scan) (hrun : scan.Run windows answers after) :
    motive windows answers after := by
  induction hrun with
  | refl => exact hstart
  | tail hrun hmove ih => exact keep (h.run hrun) ih hmove

/-- A move does not change the settings, and the table only by what it files. -/
theorem Sound.frame_of_move {windows : List Window} {answers : List (Option Sequence)}
    (h : scan.Sound history) (hmove : scan.Move windows answers after) :
    after.params = scan.params ∧ after.table = scan.table.recordAll windows := by
  cases hmove with
  | byte _ _ _ => exact ⟨rfl, rfl⟩
  | pass hs hadvance hprobe _ => exact ⟨rfl, (h.probe_spec hs hadvance hprobe).1⟩
  | found hs hadvance hprobe hbest hemit =>
    obtain ⟨htable, _⟩ := h.probe_spec hs hadvance hprobe
    obtain ⟨_, _, hstop, ⟨_, _, rfl⟩ | ⟨_, _, rfl⟩⟩ :=
      h.found_cases hs hadvance hprobe hbest hemit
    · exact ⟨rfl, htable⟩
    · exact ⟨rfl, htable⟩
  | @ended roll _ _ =>
    rcases finish_cases ({ scan with roll } : Scan data) with ⟨_, hfinish⟩ | ⟨_, hfinish⟩
    · rw [hfinish]
      exact ⟨rfl, rfl⟩
    · rw [hfinish]
      exact ⟨rfl, rfl⟩
  | hand _ => exact ⟨rfl, rfl⟩
  | rest _ _ => exact ⟨rfl, rfl⟩

theorem Sound.frame_of_run {windows : List Window} {answers : List (Option Sequence)}
    (h : scan.Sound history) (hrun : scan.Run windows answers after) :
    after.params = scan.params ∧ after.table = scan.table.recordAll windows := by
  refine h.run_invariant (fun hmid hframe hmove => ?_) ?_ hrun
  · obtain ⟨hparams, htable⟩ := hmid.frame_of_move hmove
    rw [Table.recordAll_append, ← hframe.2]
    exact ⟨hparams.trans hframe.1, htable⟩
  · exact ⟨rfl, rfl⟩

/-- What a move files are windows of the buffer. -/
theorem Sound.taken_of_move {windows : List Window} {answers : List (Option Sequence)}
    (h : scan.Sound history) (hmove : scan.Move windows answers after) :
    ∀ window, window ∈ windows → window.Taken data scan.params.minChunk := by
  intro window hmem
  -- only a probe files a window, and it probes a split
  have htaken : ∀ {roll : Roll data}, scan.Searching →
      scan.roll.advance scan.detector.splits = (roll, true) →
      window ∈ [scan.windowAt roll.position] → window.Taken data scan.params.minChunk := by
    intro roll hs hadvance hmem
    have hroom := h.anchor_add_le hs hadvance
    exact ⟨roll.position, by omega, roll.position_le, List.mem_singleton.mp hmem⟩
  cases hmove with
  | pass hs hadvance _ _ => exact htaken hs hadvance hmem
  | found hs hadvance _ _ _ => exact htaken hs hadvance hmem
  | byte _ _ _ => cases hmem
  | ended _ _ => cases hmem
  | hand _ => cases hmem
  | rest _ _ => cases hmem

theorem Sound.taken_of_run {windows : List Window} {answers : List (Option Sequence)}
    (h : scan.Sound history) (hrun : scan.Run windows answers after) :
    ∀ window, window ∈ windows → window.Taken data scan.params.minChunk := by
  induction hrun with
  | refl => exact nofun
  | tail hrun hmove ih =>
    intro window hmem
    rcases List.mem_append.mp hmem with hold | hnew
    · exact ih window hold
    · have htaken := (h.run hrun).taken_of_move hmove window hnew
      rwa [(h.frame_of_run hrun).1] at htaken

/-! ## A move is always possible -/

/-- What a call answers after its probes: with a match, that match is handed out, now or after the
literals before it, and the scan goes on from its end; without one, the scan is over. -/
def Concludes (answer : Option Sequence) (after : Scan data) : Option Match → Prop
  | none => after.done = true
  | some m => (answer = some (.copy m) ∨ after.pending = some m) ∧
      after.position = m.destination + m.length

/-- A probe that finds a match has a move, and the move concludes with the match. -/
theorem Sound.exists_found_move (h : scan.Sound history) (hs : scan.Searching)
    (hadvance : scan.roll.advance scan.detector.splits = (roll, true))
    (hprobe : scan.probeAt roll.position = .ok (survey, table)) (hbest : survey.best = some m) :
    ∃ answer after, scan.Move [scan.windowAt roll.position] [answer] after ∧
      Concludes answer after (some m) := by
  obtain ⟨_, _, hstop, ⟨_, hemit⟩ | ⟨_, hemit⟩⟩ := h.found_spec hs hadvance hprobe hbest
  · exact ⟨_, _, .found hs hadvance hprobe hbest hemit, Or.inl rfl, rfl⟩
  · exact ⟨_, _, .found hs hadvance hprobe hbest hemit, Or.inr rfl, rfl⟩

/-- A sound scan has a move that answers, or one that passes a split and leaves fewer bytes. -/
theorem Sound.exists_move (h : scan.Sound history) :
    (∃ windows answer after, scan.Move windows [answer] after) ∨
      ∃ windows after, scan.Move windows [] after ∧
        after.roll.remaining < scan.roll.remaining := by
  rcases hpending : scan.pending with _ | m
  case some => exact Or.inl ⟨_, _, _, .hand hpending⟩
  cases hdone : scan.done with
  | true => exact Or.inl ⟨_, _, _, .rest hpending hdone⟩
  | false =>
    have hs : scan.Searching := ⟨hpending, hdone⟩
    rcases hadvance : scan.roll.advance scan.detector.splits with ⟨roll, flag⟩
    cases flag with
    | false => exact Or.inl ⟨_, _, _, .ended hs hadvance⟩
    | true =>
      obtain ⟨survey, hprobe, _⟩ :=
        h.exists_probeAt (h.anchor_add_le hs hadvance) roll.position_le
      rcases hbest : survey.best with _ | m
      · refine Or.inr ⟨_, _, .pass hs hadvance hprobe hbest, ?_⟩
        show roll.cut.remaining < scan.roll.remaining
        rw [Roll.remaining_cut]
        exact Roll.remaining_advance hadvance
      · obtain ⟨_, _, hmove, _⟩ := h.exists_found_move hs hadvance hprobe hbest
        exact Or.inl ⟨_, _, _, hmove⟩

/-- A call of a sound scan gives an answer, by a run of moves. -/
theorem Sound.exists_next {scan : Scan data} (h : scan.Sound history) :
    ∃ windows answer after, scan.next = .ok (answer, after) ∧
      scan.Run windows [answer] after := by
  rcases h.exists_move with ⟨windows, answer, after, hmove⟩ | ⟨windows, mid, hmove, hless⟩
  · exact ⟨_, answer, after, hmove.next_eq_ok, Run.refl.tail hmove⟩
  · -- the same call goes on where fewer bytes are left
    obtain ⟨rest, answer, after, hnext, hrun⟩ := (h.move hmove).exists_next
    exact ⟨_, answer, after, hmove.next_eq_next.trans hnext, (Run.refl.tail hmove).trans hrun⟩
termination_by scan.roll.remaining
decreasing_by exact hless

/-- Any number of calls of a sound scan give as many answers, by a run of moves. -/
theorem Sound.exists_calls (h : scan.Sound history) (count : Nat) :
    ∃ windows answers after, scan.calls count = .ok (answers, after) ∧
      scan.Run windows answers after ∧ answers.length = count := by
  induction count with
  | zero => exact ⟨[], [], scan, rfl, Run.refl, rfl⟩
  | succ count ih =>
    obtain ⟨windows, answers, mid, hcalls, hrun, hlength⟩ := ih
    obtain ⟨rest, answer, after, hnext, hcall⟩ := (h.run hrun).exists_next
    refine ⟨_, answers ++ [answer], after, calls_succ hcalls hnext, hrun.trans hcall, ?_⟩
    rw [List.length_append, hlength]
    rfl

/-! ## Runs are calls -/

/-- The runs of a scan are its calls, taken apart. -/
structure Traced (scan : Scan data) : Prop where
  /-- Any number of calls is a run. -/
  calls : ∀ count, ∃ windows answers after, scan.calls count = .ok (answers, after) ∧
    scan.Run windows answers after
  /-- Where a search goes on after a split, the run goes on with it. -/
  passes : ∀ windows answers mid after, scan.Run windows answers mid → mid.Searching →
    mid.step = .ok (.passed, after) → ∃ roll,
      mid.roll.advance mid.detector.splits = (roll, true) ∧
        scan.Run (windows ++ [mid.windowAt roll.position]) answers after
  /-- A run is as many calls as it has answers, and it ends where the next call gets to. -/
  under_way : ∀ windows answers after, scan.Run windows answers after →
    ∃ begun, scan.calls answers.length = .ok (answers, begun) ∧ begun.next = after.next

theorem Sound.traced (h : scan.Sound history) : scan.Traced := by
  refine ⟨?_, ?_, fun _ _ _ hrun => hrun.calls_eq⟩
  · intro count
    obtain ⟨windows, answers, after, hcalls, hrun, _⟩ := h.exists_calls count
    exact ⟨windows, answers, after, hcalls, hrun⟩
  · intro windows answers mid after hrun hs hstep
    rcases step_cases hstep with ⟨hended, _⟩ |
      ⟨roll, survey, table, hadvance, hprobe, rfl, ⟨_, hbest⟩ | ⟨m, hfound, _⟩⟩
    · cases hended
    · have hlonger := hrun.tail (.pass hs hadvance hprobe hbest)
      rw [List.append_nil] at hlonger
      exact ⟨roll, hadvance, hlonger⟩
    · cases hfound

end LongMatch.Scan
