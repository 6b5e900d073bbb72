import LongMatch.Proofs.Scan.Collect
import LongMatch.Proofs.Sequence.Folding
/-!
# LongMatch.Proofs.Scan.HandOff: the folded form of a complete scan

A block compressor is handed the folded form of all items of a scan and the literal bytes. The items
tile the bytes from `history` to the end of the buffer and their matches are repeats, so the lemmas
on folding apply: a decoder gets the buffer back and uses up the literals, and the items can be
recovered. The result is `hand_off_is_lossless`.
-/

namespace LongMatch.Scan

open Sequence (supply)

variable {data : Buffer} {history : Nat} {scan : Scan data} {params : Params}
  {answers : List (Option Sequence)}

/-- Every match given is long enough, within reach, and a maximal repeat above some position. -/
theorem Described.exists_found (h : scan.Described history answers) {m : Match}
    (hmem : .copy m ∈ itemsOf answers) : ∃ floor, m.Found scan.params data floor := by
  obtain ⟨before, rest, hitems⟩ := List.append_of_mem hmem
  exact ⟨_, h.found before m rest hitems⟩

/-- Once the end is told, the items reach the end of the buffer. -/
theorem Described.describedTo_eq (h : scan.Described history answers)
    (sound : scan.Sound history) (hend : none ∈ answers) : scan.describedTo = data.size := by
  have hdone := h.ended hend
  rw [describedTo_of_none (sound.pending_eq hdone), sound.anchor_eq hdone]

/-- The answers of a scan that has ended are a tiling that can be folded. -/
theorem Described.rest (h : scan.Described history answers) (sound : scan.Sound history)
    (hend : none ∈ answers) : Folded.Rest data history data.size 0 (itemsOf answers) := by
  refine ⟨Nat.zero_le _, ?_, Nat.le_refl _, ?_⟩
  · rw [← h.describedTo_eq sound hend]
    exact h.tiles
  · intro m hmem
    obtain ⟨_, hfound⟩ := h.exists_found hmem
    exact hfound.toRepeats

/-- The items of a scan that has ended can be folded. -/
theorem Described.ofSequences_eq (h : scan.Described history answers) (sound : scan.Sound history)
    (hend : none ∈ answers) :
    Folded.ofSequences (itemsOf answers).toArray =
      .ok ⟨(Folded.rawFrom 0 (itemsOf answers)).toArray,
        Folded.trailingFrom 0 (itemsOf answers)⟩ := by
  have hbound : data.size < Checked.sizeBound := Nat.lt_trans sound.size_lt sizeBound_lt
  rw [Folded.ofSequences, ← Array.foldlM_toList]
  have hfold := Folded.foldlM_push_eq (h.rest sound hend) hbound #[]
  simpa [Folded.empty] using hfold

/-- What a block compressor is handed describes the bytes after `history`. -/
structure HandsOff (params : Params) (data : Buffer) (history : Nat) (items : Array Sequence)
    (folded : Folded) : Prop where
  folds : Folded.ofSequences items = .ok folded
  /-- A decoder that has the history and the literal bytes rebuilds the buffer, never reaches back
  beyond what it has, and uses up the literals. -/
  replays : folded.replay (data.extract 0 history) (supply data items.toList) = some data
  near : ∀ raw, raw ∈ folded.raw → 1 ≤ raw.distance ∧ raw.distance ≤ 2 ^ params.windowLog
  /-- The positions that folding drops can be found again. -/
  unfolds : folded.unfold history = items.toList

theorem Described.exists_handsOff (h : scan.Described history answers)
    (sound : scan.Sound history) (hend : none ∈ answers) :
    ∃ folded, HandsOff scan.params data history (itemsOf answers).toArray folded := by
  have hrest := h.rest sound hend
  refine ⟨⟨(Folded.rawFrom 0 (itemsOf answers)).toArray, Folded.trailingFrom 0 (itemsOf answers)⟩,
    h.ofSequences_eq sound hend, ?_, ?_, ?_⟩
  · have hreplay := Folded.replay_eq hrest
    rwa [Array.extract_size] at hreplay
  · intro raw hraw
    obtain ⟨m, hmem, hdistance⟩ := Folded.distance_of_mem_rawFrom (List.mem_toArray.mp hraw)
    obtain ⟨_, hfound⟩ := h.exists_found hmem
    have hsource := hfound.source_lt
    have hnear := hfound.near
    rw [hdistance]
    exact ⟨by omega, hnear⟩
  · have hunfold := Folded.unfoldFrom_rawFrom hrest h.apart nofun
    rwa [Nat.sub_zero, Folded.literalsAt_zero, List.nil_append] at hunfold

/-- **The hand-off is lossless.** Whatever the table held at the start, the collected items are all
items of the scan, they can be folded, and their folded form and the literal bytes are enough to
rebuild the buffer after the history; and the folded form alone is enough to find the items. -/
theorem hand_off_is_lossless (params : Params) (data : Buffer) (history : Nat) (table : Table)
    (hvalid : params.validate = .ok ()) (hsize : data.size < sizeBound)
    (hhistory : history ≤ data.size) :
    ∃ scan, start params data history table = .ok (.running scan) ∧
      ∃ items after last folded, scan.collect = .ok (items, after) ∧
        scan.calls (items.size + 1) = .ok (items.toList.map some ++ [none], last) ∧
          HandsOff params data history items folded := by
  have valid := Params.validate_eq_ok_iff.mp hvalid
  obtain ⟨base, _, hstart, sound⟩ := start_eq_running table valid hhistory hsize
  refine ⟨_, hstart, ?_⟩
  obtain ⟨windows, items, after, hcollect, hrun⟩ :=
    sound.exists_collect (described_initial hhistory)
  obtain ⟨last, hcalls, _⟩ := hrun.calls_eq
  have hend : none ∈ items.map some ++ [none] := List.mem_append_right _ (List.mem_singleton_self _)
  obtain ⟨folded, hhandsOff⟩ :=
    ((described_initial hhistory).run sound hrun).exists_handsOff (sound.run hrun) hend
  rw [itemsOf_snoc_none, itemsOf_map_some, (sound.frame_of_run hrun).1] at hhandsOff
  refine ⟨items.toArray, after, last, folded, hcollect, ?_, hhandsOff⟩
  rw [List.length_append, List.length_map] at hcalls
  exact hcalls

/-! ### A match that runs into itself

The bytes four apart are equal, so the window at the second split is found four bytes back, and the
match is longer than that. -/

def runData : Buffer := #[7, 7, 7, 7, 7, 7, 7, 7, 7, 7, 1, 2]

def runItems : Array Sequence := #[.literals ⟨0, 4⟩, .copy ⟨0, 4, 6⟩, .literals ⟨10, 12⟩]

theorem run_collected : collected hintedParams runData 0 (.empty 6 0) = some runItems := by
  decide +kernel

theorem overlapping_match_is_handed_off :
    hintedParams.validate = .ok () ∧ runData.size < sizeBound ∧ 0 ≤ runData.size ∧
      HandsOff hintedParams runData 0 runItems ⟨#[⟨4, 6, 4⟩], 2⟩ := by
  have hvalid : hintedParams.validate = .ok () := by decide
  have hsize : runData.size < sizeBound := by decide
  refine ⟨hvalid, hsize, Nat.zero_le _, ?_⟩
  obtain ⟨scan, hstart, items, after, last, folded, hcollect, _, hhandsOff⟩ :=
    hand_off_is_lossless hintedParams runData 0 (.empty 6 0) hvalid hsize (Nat.zero_le _)
  have hitems : items = runItems := by
    have hcollected := run_collected
    simp only [collected, hstart, hcollect] at hcollected
    exact Option.some.inj hcollected
  rw [hitems] at hhandsOff
  have hfolded : Folded.ofSequences runItems = .ok ⟨#[⟨4, 6, 4⟩], 2⟩ := by decide
  cases hhandsOff.folds.symm.trans hfolded
  exact hhandsOff

end LongMatch.Scan
