import LongMatch.Proofs.Scan.Start
import LongMatch.Proofs.Sequence.Tiling
/-!
# LongMatch.Proofs.Scan.Description: what the items of a scan say

`Scan.Described` ties the items given so far to the state: they tile the buffer up to the anchor, or
up to the match that waits, and every match among them is a repeat that could not be longer. Each
move keeps it. The two results hold after any number of calls and whatever the table holds:
`items_tile_and_replay` and `matches_are_maximal_repeats`.
-/

namespace LongMatch

/-- A maximal repeat that is long enough and within reach. -/
structure Match.Found (params : Params) (data : Buffer) (floor : Nat) (m : Match) : Prop extends
    m.Maximal data floor where
  long : params.minMatchLength ≤ m.length
  near : m.destination - m.source ≤ 2 ^ params.windowLog

namespace Scan

open Sequence (Tiles Apart EachCopy matchedTo)

variable {data : Buffer} {history : Nat} {scan after : Scan data} {m : Match}
  {answers newAnswers : List (Option Sequence)} {windows : List Window}

@[simp] theorem itemsOf_snoc_some (answers : List (Option Sequence)) (item : Sequence) :
    itemsOf (answers ++ [some item]) = itemsOf answers ++ [item] := by
  simp [itemsOf]

@[simp] theorem itemsOf_snoc_none (answers : List (Option Sequence)) :
    itemsOf (answers ++ [none]) = itemsOf answers := by
  simp [itemsOf]

/-- How far the items given so far reach. -/
def describedTo (scan : Scan data) : Nat :=
  match scan.pending with
  | none => scan.anchor
  | some m => m.destination

theorem describedTo_of_none (h : scan.pending = none) : scan.describedTo = scan.anchor := by
  rw [describedTo, h]

theorem describedTo_of_some (h : scan.pending = some m) : scan.describedTo = m.destination := by
  rw [describedTo, h]

/-- What the answers so far say, in a state of the scan. -/
structure Described (history : Nat) (answers : List (Option Sequence)) (scan : Scan data) :
    Prop where
  tiles : Tiles history (itemsOf answers) scan.describedTo
  apart : (itemsOf answers).IsChain Apart
  found : EachCopy (Match.Found scan.params data) history (itemsOf answers)
  waiting : ∀ m, scan.pending = some m →
    m.Found scan.params data (matchedTo history (itemsOf answers)) ∧
      m.destination + m.length = scan.anchor
  matched : scan.Searching → matchedTo history (itemsOf answers) = scan.anchor
  last : scan.Searching → ∀ span, (itemsOf answers).getLast? ≠ some (.literals span)
  ended : none ∈ answers → scan.done = true

theorem described_initial {params : Params} {table : Table} (hhistory : history ≤ data.size) :
    (initial params hhistory table).Described history [] :=
  ⟨.nil history, .nil, Sequence.eachCopy_nil, nofun, fun _ => rfl, fun _ _ => nofun, nofun⟩

/-- What the answers say depends on the settings, the anchor, the match that waits and whether the
end is reached only. -/
theorem Described.congr (h : scan.Described history answers) (hparams : after.params = scan.params)
    (hanchor : after.anchor = scan.anchor) (hpending : after.pending = scan.pending)
    (hdone : after.done = scan.done) : after.Described history answers := by
  have hto : after.describedTo = scan.describedTo := by
    rw [describedTo, describedTo, hpending, hanchor]
  have hsearching : after.Searching → scan.Searching := fun hs =>
    ⟨hpending ▸ hs.1, hdone ▸ hs.2⟩
  refine ⟨hto ▸ h.tiles, h.apart, hparams ▸ h.found, ?_, ?_,
    fun hs => h.last (hsearching hs), fun hmem => hdone ▸ h.ended hmem⟩
  · intro m hm
    rw [hparams, hanchor]
    exact h.waiting m (hpending ▸ hm)
  · intro hs
    rw [hanchor]
    exact h.matched (hsearching hs)

/-- A search has not ended. -/
theorem Described.none_not_mem (h : scan.Described history answers) (hs : scan.Searching) :
    none ∉ answers := by
  intro hmem
  cases hs.done_eq.symm.trans (h.ended hmem)

/-! ## Every move keeps it -/

/-- A match found at a split is one above the end of the match before it. -/
theorem Described.found_of_finds (h : scan.Described history answers) (hs : scan.Searching)
    {split : Nat} (hfinds : (scan.probeOf split).Finds data m)
    (hlong : scan.params.minMatchLength ≤ m.length) :
    m.Found scan.params data (matchedTo history (itemsOf answers)) := by
  rw [h.matched hs]
  exact ⟨hfinds.toMaximal, hlong, hfinds.near⟩

theorem covered_copy (hstop : m.destination + m.length ≤ data.size)
    (hsize : data.size < sizeBound) :
    (Sequence.copy m).covered = .ok ⟨m.destination, m.destination + m.length⟩ := by
  have hend := Match.destinationEnd_of_le hstop (Nat.lt_trans hsize sizeBound_lt)
  rw [Sequence.covered, Match.destinationSpan, hend]
  rfl

/-- The match that starts where the items reach is handed out next. -/
theorem Described.snoc_copy (h : scan.Described history answers) (sound : scan.Sound history)
    (hm : m.Found scan.params data (matchedTo history (itemsOf answers)))
    (hto : scan.describedTo = m.destination) (hparams : after.params = scan.params)
    (hanchor : after.anchor = m.destination + m.length) (hpending : after.pending = none)
    (hnone : none ∉ answers) : after.Described history (answers ++ [some (.copy m)]) := by
  have hpos := sound.valid.minMatchLength_pos
  have hlong := hm.long
  have hcovered := covered_copy hm.stop_le sound.size_lt
  have htiles : Tiles history (itemsOf answers) m.destination := hto ▸ h.tiles
  refine ⟨?_, ?_, ?_, ?_, ?_, ?_, ?_⟩
  · rw [itemsOf_snoc_some, describedTo_of_none hpending, hanchor]
    exact htiles.snoc hcovered (by omega)
  · rw [itemsOf_snoc_some]
    exact Sequence.apart_snoc_copy h.apart m
  · rw [itemsOf_snoc_some, hparams]
    exact h.found.snoc_copy hm
  · intro m' hm'
    cases hpending.symm.trans hm'
  · intro _
    rw [itemsOf_snoc_some, Sequence.matchedTo_snoc_copy, hanchor]
  · intro _ span hlast
    rw [itemsOf_snoc_some, List.getLast?_concat] at hlast
    cases hlast
  · intro hmem
    rcases List.mem_append.mp hmem with hold | hnew
    · exact absurd hold hnone
    · cases List.mem_singleton.mp hnew

/-- Literals that start where the items reach are handed out before a match or at the end. -/
theorem Described.snoc_literals (h : scan.Described history answers) (hs : scan.Searching)
    {stop : Nat} (hlt : scan.anchor < stop) (hparams : after.params = scan.params)
    (hto : after.describedTo = stop) (hover : ¬after.Searching)
    (hwaiting : ∀ m, after.pending = some m →
      m.Found scan.params data (matchedTo history (itemsOf answers)) ∧
        m.destination + m.length = after.anchor) :
    after.Described history (answers ++ [some (.literals ⟨scan.anchor, stop⟩)]) := by
  have htiles : Tiles history (itemsOf answers) scan.anchor :=
    describedTo_of_none hs.pending_eq ▸ h.tiles
  refine ⟨?_, ?_, ?_, ?_, fun hs' => absurd hs' hover, fun hs' => absurd hs' hover, ?_⟩
  · rw [itemsOf_snoc_some, hto]
    exact htiles.snoc rfl hlt
  · rw [itemsOf_snoc_some]
    exact Sequence.apart_snoc_literals h.apart (h.last hs) _
  · rw [itemsOf_snoc_some, hparams]
    exact h.found.snoc_literals _
  · intro m hm
    rw [itemsOf_snoc_some, Sequence.matchedTo_snoc_literals, hparams]
    exact hwaiting m hm
  · intro hmem
    rcases List.mem_append.mp hmem with hold | hnew
    · exact absurd hold (h.none_not_mem hs)
    · cases List.mem_singleton.mp hnew

/-- Once the end is reached, the answer is that nothing is left. -/
theorem Described.snoc_none (h : scan.Described history answers)
    (hparams : after.params = scan.params) (hanchor : after.anchor = scan.anchor)
    (hpending : scan.pending = none) (hpending' : after.pending = none)
    (hdone : after.done = true) :
    after.Described history (answers ++ [none]) := by
  have hover : ¬after.Searching := fun hs => by cases hs.done_eq.symm.trans hdone
  refine ⟨?_, ?_, ?_, ?_, fun hs => absurd hs hover, fun hs => absurd hs hover, fun _ => hdone⟩
  · rw [itemsOf_snoc_none, describedTo_of_none hpending', hanchor, ← describedTo_of_none hpending]
    exact h.tiles
  · rw [itemsOf_snoc_none]
    exact h.apart
  · rw [itemsOf_snoc_none, hparams]
    exact h.found
  · intro m hm
    cases hpending'.symm.trans hm

theorem Described.move (h : scan.Described history answers) (sound : scan.Sound history)
    (hmove : scan.Move windows newAnswers after) :
    after.Described history (answers ++ newAnswers) := by
  cases hmove with
  | byte hs _ _ =>
    rw [List.append_nil]
    exact h.congr rfl rfl rfl rfl
  | pass hs _ _ _ =>
    rw [List.append_nil]
    exact h.congr rfl rfl rfl rfl
  | @found _ _ _ m _ _ hs hadvance hprobe hbest hemit =>
    obtain ⟨hfinds, hlong, hstop, hcases⟩ := sound.found_cases hs hadvance hprobe hbest hemit
    have hfound := h.found_of_finds hs hfinds hlong
    rcases hcases with ⟨hstart, rfl, rfl⟩ | ⟨hlt, rfl, rfl⟩
    · have hto : scan.describedTo = m.destination :=
        (describedTo_of_none hs.pending_eq).trans hstart.symm
      exact h.snoc_copy sound hfound hto rfl rfl hs.pending_eq (h.none_not_mem hs)
    · -- the literals up to the match come first, and the match waits
      refine h.snoc_literals hs hlt rfl rfl ?_ ?_
      · intro hs'
        cases hs'.pending_eq
      · intro m' hm'
        cases hm'
        exact ⟨hfound, rfl⟩
  | @ended roll hs hadvance =>
    rcases finish_cases ({ scan with roll } : Scan data) with ⟨hlt, hfinish⟩ | ⟨_, hfinish⟩
    · rw [hfinish]
      refine h.snoc_literals hs hlt rfl (describedTo_of_none hs.pending_eq) ?_ ?_
      · intro hs'
        cases hs'.done_eq
      · intro m hm
        cases hs.pending_eq.symm.trans hm
    · rw [hfinish]
      exact h.snoc_none rfl rfl hs.pending_eq hs.pending_eq rfl
  | @hand m hpending =>
    obtain ⟨hfound, hanchor⟩ := h.waiting m hpending
    -- no match waits once the end is told
    have hnone : none ∉ answers := by
      intro hmem
      cases (sound.pending_eq (h.ended hmem)).symm.trans hpending
    exact h.snoc_copy sound hfound (describedTo_of_some hpending) rfl hanchor.symm rfl hnone
  | rest hpending hdone => exact h.snoc_none rfl rfl hpending hpending hdone

theorem Described.run (sound : scan.Sound history) (h : scan.Described history [])
    (hrun : scan.Run windows answers after) : after.Described history answers :=
  sound.run_invariant (fun hsound hmid hmove => hmid.move hsound hmove) h hrun

/-! ## After any number of calls -/

theorem Described.describedTo_le (h : scan.Described history answers)
    (sound : scan.Sound history) : scan.describedTo ≤ data.size := by
  rcases hpending : scan.pending with _ | m
  · rw [describedTo_of_none hpending]
    exact Nat.le_trans sound.anchor_le scan.position_le
  · obtain ⟨hfound, _⟩ := h.waiting m hpending
    rw [describedTo_of_some hpending]
    exact Nat.le_trans (Nat.le_add_right _ _) hfound.stop_le

/-- Any number of calls of a scan that starts have answers, and the answers describe the buffer. -/
theorem exists_described {params : Params} (table : Table) (hvalid : params.validate = .ok ())
    (hsize : data.size < sizeBound) (hhistory : history ≤ data.size) :
    ∃ scan, start params data history table = .ok (.running scan) ∧
      ∀ count, ∃ answers after, scan.calls count = .ok (answers, after) ∧
        after.Sound history ∧ after.params = params ∧ after.Described history answers := by
  have valid := Params.validate_eq_ok_iff.mp hvalid
  obtain ⟨base, _, hstart, sound⟩ := start_eq_running table valid hhistory hsize
  refine ⟨_, hstart, ?_⟩
  intro count
  obtain ⟨windows, answers, after, hcalls, hrun, _⟩ := sound.exists_calls count
  exact ⟨answers, after, hcalls, sound.run hrun, (sound.frame_of_run hrun).1,
    (described_initial hhistory).run sound hrun⟩

/-- The answers describe the front of the buffer, from `history` up to `stop`. -/
structure Describes (data : Buffer) (history : Nat) (answers : List (Option Sequence))
    (stop : Nat) : Prop where
  stop_le : stop ≤ data.size
  /-- The items are not empty and cover the positions in order, without gap or overlap. -/
  tiles : Tiles history (itemsOf answers) stop
  /-- No two spans of literals are neighbours. -/
  apart : (itemsOf answers).IsChain Apart
  /-- When no item is left, the whole buffer is described. -/
  complete : none ∈ answers → stop = data.size
  /-- A decoder that has the history turns the items into the front of the buffer. -/
  replays : Sequence.replayAll data (data.extract 0 history) (itemsOf answers) =
    some (data.extract 0 stop)

/-- **Items tile the buffer and replay to it.** After any number of calls, and whatever the table
held at the start, the items given cover a front of the buffer and rebuild exactly that front. -/
theorem items_tile_and_replay (params : Params) (data : Buffer) (history : Nat) (table : Table)
    (hvalid : params.validate = .ok ()) (hsize : data.size < sizeBound)
    (hhistory : history ≤ data.size) :
    ∃ scan, start params data history table = .ok (.running scan) ∧
      ∀ count, ∃ answers after stop, scan.calls count = .ok (answers, after) ∧
        Describes data history answers stop := by
  obtain ⟨scan, hstart, hcalls⟩ := exists_described table hvalid hsize hhistory
  refine ⟨scan, hstart, ?_⟩
  intro count
  obtain ⟨answers, after, hcount, sound, _, h⟩ := hcalls count
  -- whatever comes before a match, it repeats the buffer
  have hreal : ∀ m, .copy m ∈ itemsOf answers → m.Repeats data := by
    intro m hmem
    obtain ⟨before, rest, hitems⟩ := List.append_of_mem hmem
    exact (h.found before m rest hitems).toRepeats
  refine ⟨answers, after, after.describedTo, hcount, h.describedTo_le sound, h.tiles, h.apart, ?_,
    h.tiles.replayAll_eq (h.describedTo_le sound) hreal⟩
  intro hmem
  have hdone := h.ended hmem
  rw [describedTo_of_none (sound.pending_eq hdone), sound.anchor_eq hdone]

/-! ### A wrong hint

The window at the end of the buffer is unlike the one its entry points to, but the bytes before the
two agree. The match is made of those alone, and the scan goes back to its end. -/

def hintedParams : Params := ⟨10, 6, 4, 0, 0⟩

def hintedData : Buffer := #[1, 2, 3, 4, 5, 6, 7, 8, 2, 3, 4, 5, 9, 9, 9, 9]

def hintedTable : Table := (Table.empty 6 0).insert (.ofWindow #[9, 9, 9, 9]) 5

def hintedAnswers : List (Option Sequence) :=
  [some (.literals ⟨0, 8⟩), some (.copy ⟨1, 8, 4⟩), some (.literals ⟨12, 16⟩), none]

/-- The answers of the first calls and the bytes hashed for them, if a scan starts. -/
def outcome (params : Params) (data : Buffer) (history : Nat) (table : Table) (count : Nat) :
    Option (List (Option Sequence) × Nat) :=
  match start params data history table with
  | .ok (.running scan) =>
    (scan.calls count).toOption.map fun (answers, after) => (answers, after.roll.hashed)
  | _ => none

/-- Sixteen bytes are described, and twenty hashed. -/
theorem hinted_outcome :
    outcome hintedParams hintedData 0 hintedTable 4 = some (hintedAnswers, 20) := by
  decide +kernel

theorem hinted_calls {scan after : Scan hintedData}
    (hstart : start hintedParams hintedData 0 hintedTable = .ok (.running scan))
    (hcalls : scan.calls 4 = .ok (answers, after)) :
    answers = hintedAnswers ∧ after.roll.hashed = 20 := by
  have houtcome := hinted_outcome
  simp only [outcome, hstart, hcalls] at houtcome
  exact Prod.mk.inj (Option.some.inj houtcome)

theorem wrong_hint_tiles_and_replays :
    hintedParams.validate = .ok () ∧ hintedData.size < sizeBound ∧ 0 ≤ hintedData.size ∧
      Describes hintedData 0 hintedAnswers hintedData.size := by
  have hvalid : hintedParams.validate = .ok () := by decide
  have hsize : hintedData.size < sizeBound := by decide
  refine ⟨hvalid, hsize, Nat.zero_le _, ?_⟩
  obtain ⟨scan, hstart, hcalls⟩ :=
    items_tile_and_replay hintedParams hintedData 0 hintedTable hvalid hsize (Nat.zero_le _)
  obtain ⟨answers, after, stop, hcount, hdescribes⟩ := hcalls 4
  obtain ⟨rfl, _⟩ := hinted_calls hstart hcount
  have hstop : stop = hintedData.size := hdescribes.complete (by decide)
  rwa [hstop] at hdescribes

/-- **Matches are maximal repeats.** Whatever the table held at the start, every match that a scan
gives is long enough, within reach, really a repeat, past the match before it, and could not have
been extended at either end. -/
theorem matches_are_maximal_repeats (params : Params) (data : Buffer) (history : Nat)
    (table : Table) (hvalid : params.validate = .ok ()) (hsize : data.size < sizeBound)
    (hhistory : history ≤ data.size) :
    ∃ scan, start params data history table = .ok (.running scan) ∧
      ∀ count, ∃ answers after, scan.calls count = .ok (answers, after) ∧
        ∀ before m rest, itemsOf answers = before ++ .copy m :: rest →
          m.Found params data (matchedTo history before) := by
  obtain ⟨scan, hstart, hcalls⟩ := exists_described table hvalid hsize hhistory
  refine ⟨scan, hstart, ?_⟩
  intro count
  obtain ⟨answers, after, hcount, _, hparams, h⟩ := hcalls count
  exact ⟨answers, after, hcount, hparams ▸ h.found⟩

theorem wrong_hint_match_is_maximal_repeat :
    hintedParams.validate = .ok () ∧ hintedData.size < sizeBound ∧ 0 ≤ hintedData.size ∧
      Match.Found hintedParams hintedData 0 ⟨1, 8, 4⟩ := by
  have hvalid : hintedParams.validate = .ok () := by decide
  have hsize : hintedData.size < sizeBound := by decide
  refine ⟨hvalid, hsize, Nat.zero_le _, ?_⟩
  obtain ⟨scan, hstart, hcalls⟩ :=
    matches_are_maximal_repeats hintedParams hintedData 0 hintedTable hvalid hsize (Nat.zero_le _)
  obtain ⟨answers, after, hcount, hfound⟩ := hcalls 4
  obtain ⟨rfl, _⟩ := hinted_calls hstart hcount
  exact hfound [.literals ⟨0, 8⟩] ⟨1, 8, 4⟩ [.literals ⟨12, 16⟩] rfl

end Scan

end LongMatch
