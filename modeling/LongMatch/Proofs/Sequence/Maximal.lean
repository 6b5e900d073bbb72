import LongMatch.Proofs.Buffer.CommonRun
import LongMatch.Sequence
/-!
# LongMatch.Proofs.Sequence.Maximal: repeats that cannot be made longer

A match is a repeat of the buffer if its source starts before its destination and the bytes agree.
It is maximal above a floor if neither end can move: forward there is the end of the buffer or a
byte that differs, backward the start of the buffer, the floor, or a byte that differs.
`maximal_of_runs` gives this for the two common runs of a pair of positions, put together.
-/

namespace LongMatch.Match

/-- The bytes at the destination repeat those at the source. -/
structure Repeats (data : Buffer) (m : Match) : Prop where
  source_lt : m.source < m.destination
  stop_le : m.destination + m.length ≤ data.size
  same : ∀ k, k < m.length → data[m.source + k]? = data[m.destination + k]?

/-- A repeat whose destination starts at the floor or later and cannot be extended either way. -/
structure Maximal (data : Buffer) (floor : Nat) (m : Match) : Prop extends m.Repeats data where
  floor_le : floor ≤ m.destination
  ends : m.destination + m.length = data.size ∨
    data[m.source + m.length]? ≠ data[m.destination + m.length]?
  begins : m.source = 0 ∨ m.destination = floor ∨
    data[m.source - 1]? ≠ data[m.destination - 1]?

/-- A match that ends in the buffer has an end that can be computed. -/
theorem destinationEnd_of_le {m : Match} {size : Nat} (hstop : m.destination + m.length ≤ size)
    (hsize : size < Checked.sizeBound) : m.destinationEnd = .ok (m.destination + m.length) :=
  Checked.add_eq_ok_iff.mpr ⟨by omega, rfl⟩

variable {data : Buffer} {source destination floor forward backward : Nat}

/-- The forward and the backward run of two positions make up one repeat. -/
theorem same_of_runs (hback : backward ≤ source) (hlt : source < destination)
    (hforward : ∀ k, k < forward → data[source + k]? = data[destination + k]?)
    (hbackward : ∀ k, k < backward → data[source - (k + 1)]? = data[destination - (k + 1)]?)
    {k : Nat} (hk : k < forward + backward) :
    data[source - backward + k]? = data[destination - backward + k]? := by
  by_cases hside : k < backward
  · -- counted back from the two positions, these bytes come in the other order
    have hs : source - backward + k = source - (backward - (k + 1) + 1) := by omega
    have hd : destination - backward + k = destination - (backward - (k + 1) + 1) := by omega
    rw [hs, hd]
    exact hbackward _ (by omega)
  · have hs : source - backward + k = source + (k - backward) := by omega
    have hd : destination - backward + k = destination + (k - backward) := by omega
    rw [hs, hd]
    exact hforward _ (by omega)

/-- The common runs of two positions, put together, are a maximal repeat. -/
theorem maximal_of_runs (hlt : source < destination) (hle : destination ≤ data.size)
    (hfloor : floor ≤ destination) (hforward : data.forwardRun source destination = .ok forward)
    (hbackward : data.backwardRun source destination 0 floor = .ok backward) :
    Maximal data floor ⟨source - backward, destination - backward, forward + backward⟩ := by
  obtain ⟨hend, hsame, hstop⟩ := (Buffer.forwardRun_eq_ok_iff hlt hle).mp hforward
  obtain ⟨hroom, hsame', hstop'⟩ :=
    (Buffer.backwardRun_eq_ok_iff (by omega) hle).mp hbackward
  have hs : source - backward + (forward + backward) = source + forward := by omega
  have hd : destination - backward + (forward + backward) = destination + forward := by omega
  refine ⟨⟨?_, ?_, ?_⟩, ?_, ?_, ?_⟩
  · show source - backward < destination - backward
    omega
  · show destination - backward + (forward + backward) ≤ data.size
    omega
  · intro k hk
    exact same_of_runs (by omega) hlt hsame hsame' hk
  · show floor ≤ destination - backward
    omega
  · show destination - backward + (forward + backward) = data.size ∨
      data[source - backward + (forward + backward)]? ≠
        data[destination - backward + (forward + backward)]?
    rw [hs, hd]
    exact hstop
  · show source - backward = 0 ∨ destination - backward = floor ∨
      data[source - backward - 1]? ≠ data[destination - backward - 1]?
    rcases hstop' with hall | hdiff
    · -- all the room is used up: one of the two starts is where it may not go lower
      omega
    · exact Or.inr (Or.inr hdiff)

end LongMatch.Match
