import LongMatch.Proofs.Index.Recent
/-!
# LongMatch.Proofs.Index.Alike: tables that look the same below an offset

Two tables of one size are alike below a limit if every bucket has, slot by slot from the newest on,
the same entries, where a vacant slot and an entry at the limit or beyond count as the same. The
places of the next writes may differ. Filing the same windows keeps two tables alike
(`Alike.recordAll`), and their buckets yield the same entries below the limit
(`Alike.entries_below`). Tables without entries below the limit are alike, however they came to be
so: `alike_of_entries`.
-/

namespace LongMatch

/-- The entry, if it points below the limit. -/
def Entry.below (limit : Nat) (entry : Entry) : Option Entry :=
  if entry.offset.toNat < limit then some entry else none

theorem Entry.below_of_le {limit : Nat} {entry : Entry} (h : limit ≤ entry.offset.toNat) :
    entry.below limit = none := if_neg (Nat.not_lt.mpr h)

namespace Table

variable {table other : Table} {params : Params} {limit : Nat}

/-- The tables have one size and the same entries below the limit, in the same order. -/
structure Alike (limit : Nat) (table other : Table) : Prop where
  bucketLog_eq : other.bucketLog = table.bucketLog
  bucketSizeLog_eq : other.bucketSizeLog = table.bucketSizeLog
  newest_eq : ∀ key,
    (other.bucket key).newest.map (Entry.below limit) =
      (table.bucket key).newest.map (Entry.below limit)

theorem Alike.indexOf_eq (h : table.Alike limit other) (key : Key) :
    other.indexOf key = table.indexOf key := by
  rw [indexOf, indexOf, h.bucketLog_eq]

theorem Alike.sized (h : table.Alike limit other) (hsized : table.Sized params) :
    other.Sized params :=
  ⟨h.bucketSizeLog_eq.trans hsized.bucketSizeLog_eq, by
    rw [h.bucketLog_eq, h.bucketSizeLog_eq, hsized.sum_eq]⟩

/-- Filing a window puts the same entry in front of the same bucket and pushes one slot out. -/
theorem Alike.record (h : table.Alike limit other) (hsmall : 2 ^ table.bucketSizeLog ≤ 256)
    (window : Window) : (table.record window).Alike limit (other.record window) := by
  refine ⟨h.bucketLog_eq, h.bucketSizeLog_eq, ?_⟩
  intro key
  by_cases hindex : table.indexOf window.key = table.indexOf key
  · have hindex' : other.indexOf window.key = other.indexOf key := by
      rw [h.indexOf_eq, h.indexOf_eq, hindex]
    have hsmall' : 2 ^ other.bucketSizeLog ≤ 256 := h.bucketSizeLog_eq ▸ hsmall
    rw [newest_record_of_eq hsmall hindex, newest_record_of_eq hsmall' hindex', List.map_cons,
      List.map_cons, List.map_dropLast, List.map_dropLast, h.newest_eq]
  · have hindex' : other.indexOf window.key ≠ other.indexOf key := by
      rwa [h.indexOf_eq, h.indexOf_eq]
    rw [newest_record_of_ne hindex, newest_record_of_ne hindex', h.newest_eq]

theorem Alike.recordAll (h : table.Alike limit other) (hsmall : 2 ^ table.bucketSizeLog ≤ 256)
    (windows : List Window) : (table.recordAll windows).Alike limit (other.recordAll windows) := by
  induction windows generalizing table other with
  | nil => exact h
  | cons window windows ih => exact ih (h.record hsmall window) hsmall

/-- The entries below the limit are those of the slots; no vacant slot is among them. -/
theorem filterMap_below_entries (hlimit : limit ≤ Entry.vacantOffset.toNat) (table : Table)
    (key : Key) :
    (table.entries key).filterMap (Entry.below limit) =
      (table.bucket key).newest.filterMap (Entry.below limit) := by
  rw [entries, Bucket.live, List.filterMap_filter]
  congr 1
  funext entry
  by_cases hvacant : entry.isVacant = true
  · have hoffset : entry.offset = Entry.vacantOffset := eq_of_beq hvacant
    rw [Entry.below_of_le (by rw [hoffset]; exact hlimit)]
    exact ite_self _
  · exact if_pos (by simpa using hvacant)

/-- Buckets of tables that are alike yield the same entries below the limit, in the same order. -/
theorem Alike.entries_below (h : table.Alike limit other)
    (hlimit : limit ≤ Entry.vacantOffset.toNat) (key : Key) :
    (other.entries key).filterMap (Entry.below limit) =
      (table.entries key).filterMap (Entry.below limit) := by
  have hslots := congrArg (List.filterMap id) (h.newest_eq key)
  rw [List.filterMap_map, List.filterMap_map] at hslots
  rw [filterMap_below_entries hlimit, filterMap_below_entries hlimit]
  exact hslots

/-! ## A table like an empty one -/

/-- No slot points below the limit if no entry does. -/
theorem map_below_newest {key : Key} (hlimit : limit ≤ Entry.vacantOffset.toNat)
    (h : ∀ entry, entry ∈ table.entries key → limit ≤ entry.offset.toNat) :
    (table.bucket key).newest.map (Entry.below limit) =
      List.replicate (2 ^ table.bucketSizeLog) none := by
  apply List.eq_replicate_iff.mpr
  refine ⟨by rw [List.length_map, Bucket.length_newest], ?_⟩
  intro slot hslot
  obtain ⟨entry, hmem, rfl⟩ := List.mem_map.mp hslot
  apply Entry.below_of_le
  by_cases hvacant : entry.isVacant = true
  · rw [show entry.offset = Entry.vacantOffset from eq_of_beq hvacant]
    exact hlimit
  · exact h entry (List.mem_filter.mpr ⟨hmem, by simpa using hvacant⟩)

/-- Two tables of one size without entries below the limit are alike. -/
theorem alike_of_entries (hsized : table.Sized params) (hsized' : other.Sized params)
    (hlimit : limit ≤ Entry.vacantOffset.toNat)
    (h : ∀ key entry, entry ∈ table.entries key → limit ≤ entry.offset.toNat)
    (h' : ∀ key entry, entry ∈ other.entries key → limit ≤ entry.offset.toNat) :
    table.Alike limit other := by
  have hsize : other.bucketSizeLog = table.bucketSizeLog :=
    hsized'.bucketSizeLog_eq.trans hsized.bucketSizeLog_eq.symm
  have hsum := hsized.sum_eq
  have hsum' := hsized'.sum_eq
  refine ⟨by omega, hsize, ?_⟩
  intro key
  rw [map_below_newest hlimit (h key), map_below_newest hlimit (h' key), hsize]

end Table

end LongMatch
