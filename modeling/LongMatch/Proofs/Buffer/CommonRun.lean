import Mathlib.Data.Nat.Find
import Mathlib.Order.Bounds.Basic
import LongMatch.Buffer.Run
/-!
# LongMatch.Proofs.Buffer.CommonRun: the common runs of two positions are exact

A run stops at the first pair of bytes that differ, or where its room ends, and at no other place.
`forwardRun_eq_ok_iff` and `backwardRun_eq_ok_iff` state this about the bytes of the buffer alone;
`exists_forwardRun` and `exists_backwardRun` say when there is an answer at all. A stretch on which
the bytes agree is never longer than the run: `AgreeFrom.le_forwardRun`,
`AgreeBefore.le_backwardRun`. So the runs are the greatest stretches on which the bytes agree, which
can be said without counting: `forwardRun_eq_commonFrom`, `backwardRun_eq_commonBefore`.

Outside the buffer a run may have no answer. `forwardRun_eq_error_iff` and
`backwardRun_eq_error_iff` say when, for all positions and floors, and `common_runs_are_exact` puts
this together with what the answer is.
-/

namespace LongMatch.Buffer

variable {data : Buffer}

/-- Inside the buffer a comparison tells whether two positions hold the same byte. -/
theorem sameAt_eq_decide {i j : Nat} (hi : i < data.size) (hj : j < data.size) :
    data.sameAt i j = .ok (decide (data[i]? = data[j]?)) := by
  rw [sameAt_of_lt hi hj, Array.getElem?_eq_getElem hi, Array.getElem?_eq_getElem hj]
  simp only [Option.some.injEq]
  rfl

/-! ## Counting equal bytes along two sequences of positions -/

section Count

variable {f g : Nat → Nat} {room : Nat}

theorem exists_count (hf : ∀ k, k < room → f k < data.size)
    (hg : ∀ k, k < room → g k < data.size) :
    ∃ n, countFrom (fun k => data.sameAt (f k) (g k)) room 0 = .ok n := by
  cases hrun : countFrom (fun k => data.sameAt (f k) (g k)) room 0 with
  | ok n => exact ⟨n, rfl⟩
  | error fault =>
    -- a fault comes from one of the comparisons, and those are all in range
    obtain ⟨n, _, hn, _, hfault⟩ := countFrom_eq_error_iff.mp hrun
    rw [sameAt_eq_decide (hf n (by omega)) (hg n (by omega))] at hfault
    cases hfault

/-- The count is the longest one within the room whose bytes are all equal. -/
theorem count_eq_ok_iff (hf : ∀ k, k < room → f k < data.size)
    (hg : ∀ k, k < room → g k < data.size) {n : Nat} :
    countFrom (fun k => data.sameAt (f k) (g k)) room 0 = .ok n ↔
      n ≤ room ∧ (∀ k, k < n → data[f k]? = data[g k]?) ∧
        (n = room ∨ data[f n]? ≠ data[g n]?) := by
  rw [countFrom_eq_ok_iff]
  constructor
  · rintro ⟨_, hn, hsame, hstop⟩
    refine ⟨by omega, ?_, ?_⟩
    · intro k hk
      have hpass := hsame k (by omega) hk
      rw [sameAt_eq_decide (hf k (by omega)) (hg k (by omega)), Except.ok.injEq] at hpass
      exact of_decide_eq_true hpass
    · by_cases hend : n = room
      · exact Or.inl hend
      · have hfail := hstop (by omega)
        rw [sameAt_eq_decide (hf n (by omega)) (hg n (by omega)), Except.ok.injEq] at hfail
        exact Or.inr (of_decide_eq_false hfail)
  · rintro ⟨hn, hsame, hstop⟩
    refine ⟨by omega, by omega, ?_, ?_⟩
    · intro k _ hk
      rw [sameAt_eq_decide (hf k (by omega)) (hg k (by omega)), decide_eq_true (hsame k hk)]
    · intro hlt
      have hdiff : data[f n]? ≠ data[g n]? := hstop.resolve_left (by omega)
      rw [sameAt_eq_decide (hf n (by omega)) (hg n (by omega)), decide_eq_false hdiff]

end Count

/-! ## The two runs -/

variable {source destination sourceFloor destinationFloor : Nat}

theorem exists_forwardRun (hlt : source < destination) (hle : destination ≤ data.size) :
    ∃ n, data.forwardRun source destination = .ok n := by
  rw [forwardRun, if_neg (by omega), if_neg (by omega)]
  exact exists_count (fun k hk => by omega) (fun k hk => by omega)

/-- A forward run ends at the end of the buffer or at the first pair of bytes that differ. -/
theorem forwardRun_eq_ok_iff (hlt : source < destination) (hle : destination ≤ data.size)
    {n : Nat} :
    data.forwardRun source destination = .ok n ↔
      destination + n ≤ data.size ∧
        (∀ k, k < n → data[source + k]? = data[destination + k]?) ∧
          (destination + n = data.size ∨ data[source + n]? ≠ data[destination + n]?) := by
  rw [forwardRun, if_neg (by omega), if_neg (by omega),
    count_eq_ok_iff (fun k hk => by omega) (fun k hk => by omega)]
  have hroom : n ≤ data.size - destination ↔ destination + n ≤ data.size := by omega
  have hend : n = data.size - destination ↔ destination + n = data.size := by omega
  rw [hroom, hend]

theorem exists_backwardRun (hs : source ≤ data.size) (hd : destination ≤ data.size) :
    ∃ n, data.backwardRun source destination sourceFloor destinationFloor = .ok n :=
  exists_count (fun k hk => by omega) (fun k hk => by omega)

/-- A backward run ends where the floors leave no room or before the first pair of bytes that
differ. -/
theorem backwardRun_eq_ok_iff (hs : source ≤ data.size) (hd : destination ≤ data.size) {n : Nat} :
    data.backwardRun source destination sourceFloor destinationFloor = .ok n ↔
      n ≤ min (source - sourceFloor) (destination - destinationFloor) ∧
        (∀ k, k < n → data[source - (k + 1)]? = data[destination - (k + 1)]?) ∧
          (n = min (source - sourceFloor) (destination - destinationFloor) ∨
            data[source - (n + 1)]? ≠ data[destination - (n + 1)]?) :=
  count_eq_ok_iff (fun k hk => by omega) (fun k hk => by omega)

/-! ## Bytes that agree -/

/-- The `count` bytes from two positions on lie in the buffer and are the same. -/
structure AgreeFrom (data : Buffer) (source destination count : Nat) : Prop where
  stop_le : destination + count ≤ data.size
  same : ∀ k, k < count → data[source + k]? = data[destination + k]?

/-- The `count` bytes before two positions lie above the floors and are the same. -/
structure AgreeBefore (data : Buffer)
    (source destination sourceFloor destinationFloor count : Nat) : Prop where
  source_le : sourceFloor + count ≤ source
  destination_le : destinationFloor + count ≤ destination
  same : ∀ k, k < count → data[source - (k + 1)]? = data[destination - (k + 1)]?

theorem AgreeFrom.le_forwardRun {count n : Nat} (h : data.AgreeFrom source destination count)
    (hlt : source < destination) (hrun : data.forwardRun source destination = .ok n) :
    count ≤ n := by
  have hstop := h.stop_le
  obtain ⟨_, _, hend | hdiff⟩ := (forwardRun_eq_ok_iff hlt (by omega)).mp hrun
  · omega
  · -- the byte that ends the run is not one of those that agree
    apply Nat.le_of_not_lt
    intro hmore
    exact hdiff (h.same n hmore)

theorem AgreeBefore.le_backwardRun {count n : Nat}
    (h : data.AgreeBefore source destination sourceFloor destinationFloor count)
    (hs : source ≤ data.size) (hd : destination ≤ data.size)
    (hrun : data.backwardRun source destination sourceFloor destinationFloor = .ok n) :
    count ≤ n := by
  have hsource := h.source_le
  have hdestination := h.destination_le
  obtain ⟨_, _, hroom | hdiff⟩ := (backwardRun_eq_ok_iff hs hd).mp hrun
  · omega
  · apply Nat.le_of_not_lt
    intro hmore
    exact hdiff (h.same n hmore)

/-! ## The greatest stretch that agrees -/

instance (data : Buffer) (source destination count : Nat) :
    Decidable (data.AgreeFrom source destination count) :=
  decidable_of_iff (destination + count ≤ data.size ∧
      ∀ k, k < count → data[source + k]? = data[destination + k]?)
    ⟨fun h => ⟨h.1, h.2⟩, fun h => ⟨h.1, h.2⟩⟩

instance (data : Buffer) (source destination sourceFloor destinationFloor count : Nat) :
    Decidable (data.AgreeBefore source destination sourceFloor destinationFloor count) :=
  decidable_of_iff (sourceFloor + count ≤ source ∧ destinationFloor + count ≤ destination ∧
      ∀ k, k < count → data[source - (k + 1)]? = data[destination - (k + 1)]?)
    ⟨fun h => ⟨h.1, h.2.1, h.2.2⟩, fun h => ⟨h.1, h.2, h.3⟩⟩

/-- The greatest number of bytes from two positions on that lie in the buffer and are the same. -/
def commonFrom (data : Buffer) (source destination : Nat) : Nat :=
  Nat.findGreatest (data.AgreeFrom source destination) data.size

/-- The greatest number of bytes before two positions that lie above the floors and are the
same. -/
def commonBefore (data : Buffer) (source destination sourceFloor destinationFloor : Nat) : Nat :=
  Nat.findGreatest (data.AgreeBefore source destination sourceFloor destinationFloor) source

theorem forwardRun_eq_commonFrom (hlt : source < destination) (hle : destination ≤ data.size) :
    data.forwardRun source destination = .ok (data.commonFrom source destination) := by
  obtain ⟨n, hrun⟩ := exists_forwardRun hlt hle
  obtain ⟨hstop, hsame, _⟩ := (forwardRun_eq_ok_iff hlt hle).mp hrun
  have hgreatest : data.commonFrom source destination = n := by
    apply Nat.findGreatest_eq_iff.mpr
    refine ⟨by omega, fun _ => ⟨hstop, hsame⟩, ?_⟩
    intro count hmore _ hagree
    have hcount := hagree.le_forwardRun hlt hrun
    omega
  rw [hrun, hgreatest]

theorem backwardRun_eq_commonBefore (hs : source ≤ data.size) (hd : destination ≤ data.size) :
    data.backwardRun source destination sourceFloor destinationFloor =
      .ok (data.commonBefore source destination sourceFloor destinationFloor) := by
  obtain ⟨n, hrun⟩ : ∃ n,
      data.backwardRun source destination sourceFloor destinationFloor = .ok n :=
    exists_backwardRun hs hd
  obtain ⟨hroom, hsame, _⟩ := (backwardRun_eq_ok_iff hs hd).mp hrun
  have hgreatest : data.commonBefore source destination sourceFloor destinationFloor = n := by
    apply Nat.findGreatest_eq_iff.mpr
    refine ⟨by omega, fun hne => ⟨by omega, by omega, hsame⟩, ?_⟩
    intro count hmore _ hagree
    have hcount := hagree.le_backwardRun hs hd hrun
    omega
  rw [hrun, hgreatest]

/-! ## Positions anywhere -/

theorem forwardRun_eq_error_iff {fault : Fault} :
    data.forwardRun source destination = .error fault ↔
      destination ≤ source ∧ fault = .unordered ∨
        source < destination ∧ data.size < destination ∧ fault = .outOfBounds := by
  by_cases hlt : source < destination
  · by_cases hle : destination ≤ data.size
    · -- in the buffer there is an answer
      obtain ⟨n, hrun⟩ := exists_forwardRun hlt hle
      rw [hrun]
      simp only [reduceCtorEq, false_iff]
      omega
    · rw [forwardRun, if_neg (by omega), if_pos (by omega)]
      simp [hlt, Nat.lt_of_not_le hle, Nat.not_le.mpr hlt, eq_comm]
  · rw [forwardRun, if_pos (Nat.le_of_not_lt hlt)]
    simp [hlt, Nat.le_of_not_lt hlt, eq_comm]

/-- A backward run that has room reads the byte before each position first, and fails at once or
not at all. -/
theorem backwardRun_eq_error_iff {fault : Fault} :
    data.backwardRun source destination sourceFloor destinationFloor = .error fault ↔
      1 ≤ min (source - sourceFloor) (destination - destinationFloor) ∧
        data.size < max source destination ∧ fault = .outOfBounds := by
  rw [backwardRun, countFrom_eq_error_iff]
  constructor
  · rintro ⟨n, _, hn, _, hread⟩
    obtain ⟨hbeyond, hfault⟩ := sameAt_eq_error_iff.mp hread
    exact ⟨by omega, by omega, hfault⟩
  · rintro ⟨hroom, hbeyond, hfault⟩
    have hread : data.sameAt (source - (0 + 1)) (destination - (0 + 1)) = .error fault :=
      sameAt_eq_error_iff.mpr ⟨by omega, hfault⟩
    exact ⟨0, Nat.le_refl 0, by omega, fun k _ hk => absurd hk (Nat.not_lt_zero k), hread⟩

theorem isGreatest_of_forwardRun {n : Nat} (hrun : data.forwardRun source destination = .ok n) :
    IsGreatest {count | destination + count ≤ data.size ∧
      ∀ i, i < count → data[source + i]? = data[destination + i]?} n := by
  have hlt : source < destination := by
    apply Nat.lt_of_not_le
    intro hle
    cases hrun.symm.trans (forwardRun_eq_error_iff.mpr (Or.inl ⟨hle, rfl⟩))
  have hle : destination ≤ data.size := by
    apply Nat.le_of_not_lt
    intro hbeyond
    cases hrun.symm.trans (forwardRun_eq_error_iff.mpr (Or.inr ⟨hlt, hbeyond, rfl⟩))
  obtain ⟨hstop, hsame, _⟩ := (forwardRun_eq_ok_iff hlt hle).mp hrun
  refine ⟨⟨hstop, hsame⟩, ?_⟩
  rintro count ⟨hcount, hagree⟩
  exact AgreeFrom.le_forwardRun ⟨hcount, hagree⟩ hlt hrun

/-- Without room a backward run reads nothing, wherever the positions are. -/
theorem isGreatest_of_backwardRun {n : Nat}
    (hrun : data.backwardRun source destination sourceFloor destinationFloor = .ok n) :
    IsGreatest {count | count ≤ min (source - sourceFloor) (destination - destinationFloor) ∧
      ∀ k, 1 ≤ k → k ≤ count → data[source - k]? = data[destination - k]?} n := by
  have hinside : 1 ≤ min (source - sourceFloor) (destination - destinationFloor) →
      max source destination ≤ data.size := by
    intro hroom
    apply Nat.le_of_not_lt
    intro hbeyond
    cases hrun.symm.trans (backwardRun_eq_error_iff.mpr ⟨hroom, hbeyond, rfl⟩)
  obtain ⟨hroom, hsame, hstop⟩ :=
    (count_eq_ok_iff (fun k hk => by omega) (fun k hk => by omega)).mp hrun
  constructor
  · refine ⟨hroom, ?_⟩
    intro k hpos hk
    have hbyte := hsame (k - 1) (by omega)
    rwa [Nat.sub_add_cancel hpos] at hbyte
  · rintro count ⟨hcount, hagree⟩
    rcases hstop with hall | hdiff
    · omega
    · -- the pair of bytes that ends the run is not among those that agree
      apply Nat.le_of_not_lt
      intro hmore
      exact hdiff (hagree (n + 1) (by omega) hmore)

/-- A run with a greatest answer wherever it has one at all has exactly that answer. -/
theorem run_eq_ok_iff {run : Except Fault Nat} {outside : Prop} {counts : Set Nat}
    (hfails : (∃ fault, run = .error fault) ↔ outside)
    (hgreatest : ∀ n, run = .ok n → IsGreatest counts n) {n : Nat} :
    run = .ok n ↔ ¬outside ∧ IsGreatest counts n := by
  rw [← hfails]
  cases run with
  | error fault =>
    simp only [reduceCtorEq, false_iff, not_and]
    exact fun hanswer => absurd ⟨fault, rfl⟩ hanswer
  | ok m =>
    have hm := hgreatest m rfl
    refine ⟨fun hn => ⟨nofun, hgreatest n hn⟩, fun ⟨_, hn⟩ => ?_⟩
    rw [hm.unique hn]

/-- **Common runs are exact.** A forward run has no answer exactly if the source does not start
before the destination or the destination lies beyond the buffer, and a backward run exactly if it
has room and one of its positions lies beyond the buffer. Any other answer is the greatest number of
bytes that lie within the bounds and agree. -/
theorem common_runs_are_exact (data : Buffer)
    (source destination sourceFloor destinationFloor : Nat) :
    ((∃ fault, data.forwardRun source destination = .error fault) ↔
        destination ≤ source ∨ data.size < destination) ∧
      (∀ n, data.forwardRun source destination = .ok n ↔
        ¬(destination ≤ source ∨ data.size < destination) ∧
          IsGreatest {count | destination + count ≤ data.size ∧
            ∀ i, i < count → data[source + i]? = data[destination + i]?} n) ∧
      ((∃ fault, data.backwardRun source destination sourceFloor destinationFloor =
          .error fault) ↔
        1 ≤ min (source - sourceFloor) (destination - destinationFloor) ∧
          data.size < max source destination) ∧
      (∀ n, data.backwardRun source destination sourceFloor destinationFloor = .ok n ↔
        ¬(1 ≤ min (source - sourceFloor) (destination - destinationFloor) ∧
            data.size < max source destination) ∧
          IsGreatest {count | count ≤ min (source - sourceFloor) (destination - destinationFloor) ∧
            ∀ k, 1 ≤ k → k ≤ count → data[source - k]? = data[destination - k]?} n) := by
  have hforward : (∃ fault, data.forwardRun source destination = .error fault) ↔
      destination ≤ source ∨ data.size < destination := by
    simp only [forwardRun_eq_error_iff]
    constructor
    · rintro ⟨_, ⟨hle, _⟩ | ⟨_, hbeyond, _⟩⟩
      · exact Or.inl hle
      · exact Or.inr hbeyond
    · intro houtside
      by_cases hle : destination ≤ source
      · exact ⟨_, Or.inl ⟨hle, rfl⟩⟩
      · exact ⟨_, Or.inr ⟨by omega, by omega, rfl⟩⟩
  have hbackward : (∃ fault, data.backwardRun source destination sourceFloor destinationFloor =
      .error fault) ↔ 1 ≤ min (source - sourceFloor) (destination - destinationFloor) ∧
        data.size < max source destination := by
    simp [backwardRun_eq_error_iff]
  refine ⟨hforward, ?_, hbackward, ?_⟩
  · exact fun n => run_eq_ok_iff hforward fun _ => isGreatest_of_forwardRun
  · exact fun n => run_eq_ok_iff hbackward fun _ => isGreatest_of_backwardRun

end LongMatch.Buffer
