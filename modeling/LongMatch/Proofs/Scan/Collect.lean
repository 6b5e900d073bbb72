import LongMatch.Proofs.Scan.Description
/-!
# LongMatch.Proofs.Scan.Collect: all items of a scan

Collecting asks for one item more than the buffer has bytes. Since items are not empty and tile the
buffer, there are never that many, so the last answer that a collection asks for is that nothing is
left: `exists_collect`. A collection is thus the complete output of the scan.
-/

namespace LongMatch.Scan

variable {data : Buffer} {history : Nat} {scan : Scan data}

/-- The items that are collected, if a scan starts. -/
def collected (params : Params) (data : Buffer) (history : Nat) (table : Table) :
    Option (Array Sequence) :=
  match start params data history table with
  | .ok (.running scan) => scan.collect.toOption.map (·.1)
  | _ => none

@[simp] theorem itemsOf_map_some (items : List Sequence) : itemsOf (items.map some) = items := by
  induction items with
  | nil => rfl
  | cons item items ih => exact congrArg (item :: ·) ih

/-- Collecting from a sound scan gives as many items as are asked for, or all that are left. -/
theorem Sound.exists_runInto (h : scan.Sound history) (found : Array Sequence) (count : Nat) :
    ∃ (windows : List Window) (items : List Sequence) (after : Scan data),
      scan.runInto found count = .ok (found ++ items.toArray, after) ∧
        ((items.length = count ∧ scan.Run windows (items.map some) after) ∨
          scan.Run windows (items.map some ++ [none]) after) := by
  induction count generalizing scan found with
  | zero =>
    refine ⟨[], [], scan, ?_, Or.inl ⟨rfl, .refl⟩⟩
    rw [runInto, Array.append_empty]
  | succ count ih =>
    obtain ⟨windows, answer, mid, hnext, hrun⟩ := h.exists_next
    cases answer with
    | none =>
      refine ⟨windows, [], mid, ?_, Or.inr hrun⟩
      simp only [runInto, hnext, Array.append_empty]
    | some item =>
      obtain ⟨rest, items, after, hmore, hcases⟩ := ih (h.run hrun) (found.push item)
      have hjoin : found.push item ++ items.toArray = found ++ (item :: items).toArray := by simp
      refine ⟨windows ++ rest, item :: items, after, ?_, ?_⟩
      · simp only [runInto, hnext, hmore, hjoin]
      · rcases hcases with ⟨hlength, hrest⟩ | hrest
        · exact Or.inl ⟨congrArg (· + 1) hlength, hrun.trans hrest⟩
        · exact Or.inr (hrun.trans hrest)

/-- Collecting from a scan that starts gives all its items: after them, nothing is left. -/
theorem Sound.exists_collect (sound : scan.Sound history) (h : scan.Described history []) :
    ∃ (windows : List Window) (items : List Sequence) (after : Scan data),
      scan.collect = .ok (items.toArray, after) ∧
        scan.Run windows (items.map some ++ [none]) after := by
  obtain ⟨windows, items, after, hcollect, ⟨hlength, hrun⟩ | hrun⟩ :=
    sound.exists_runInto #[] (data.size + 1)
  · -- there is no room for more items than bytes
    exfalso
    have hdescribed := h.run sound hrun
    have hroom := hdescribed.tiles.length_le
    have hsize := hdescribed.describedTo_le (sound.run hrun)
    rw [itemsOf_map_some] at hroom
    omega
  · rw [Array.empty_append] at hcollect
    exact ⟨windows, items, after, hcollect, hrun⟩

end LongMatch.Scan
