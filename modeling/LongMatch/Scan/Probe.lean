import LongMatch.Buffer.Run
import LongMatch.Index.Table
import LongMatch.Sequence
/-!
# LongMatch.Scan.Probe: the best match among the entries of a bucket

A probe compares a window with the entries of its bucket. An entry is eligible if its checksum
agrees and it lies before the window and within reach. The bytes then decide: the common run is
extended forward to the end of the buffer and backward to the anchor, where the bytes not yet
handed out begin. Of the runs that are long enough the longest is the match, and of equally long
ones the first met, which is the newest.
-/

namespace LongMatch

/-- What is looked for at a split. -/
structure Probe where
  window : Window
  /-- The shortest match. -/
  minMatch : Nat
  maxDistance : Nat
  /-- Where the bytes not yet handed out begin. -/
  anchor : Nat
  deriving DecidableEq, Repr

/-- What the entries of a bucket came to. -/
structure Survey where
  /-- The eligible entries. -/
  candidates : Nat
  /-- The eligible entries whose run is too short. -/
  rejected : Nat
  best : Option Match
  deriving DecidableEq, Repr

namespace Survey

/-- No entry met. -/
def empty : Survey := ⟨0, 0, none⟩

/-- The longer of two matches, the first if they are equally long. -/
def longer (best : Option Match) (m : Match) : Option Match :=
  match best with
  | none => some m
  | some held => if held.length < m.length then some m else some held

/-- Counts the extended run of an eligible entry, and keeps it if it is the longest so far. -/
def consider (survey : Survey) (minMatch : Nat) (m : Match) : Survey :=
  if m.length < minMatch then
    { survey with candidates := survey.candidates + 1, rejected := survey.rejected + 1 }
  else
    { survey with candidates := survey.candidates + 1, best := longer survey.best m }

end Survey

namespace Probe

/-- Whether the entry may be a repeat of the window that a match can reach. -/
def eligible (probe : Probe) (entry : Entry) : Bool :=
  entry.checksum == probe.window.key.checksum &&
    entry.offset.toNat < probe.window.start &&
    probe.window.start - entry.offset.toNat ≤ probe.maxDistance

/-- The common run of the window and the bytes an entry points to, extended both ways. -/
def extend (probe : Probe) (data : Buffer) (entry : Entry) : Except Fault Match := do
  let source := entry.offset.toNat
  let destination := probe.window.start
  let forward ← data.forwardRun source destination
  let backward ← data.backwardRun source destination 0 probe.anchor
  let length ← Checked.add forward backward
  return ⟨← Checked.sub source backward, ← Checked.sub destination backward, length⟩

/-- Takes one entry into account. -/
def visit (probe : Probe) (data : Buffer) (survey : Survey) (entry : Entry) :
    Except Fault Survey :=
  if probe.eligible entry then do
    return survey.consider probe.minMatch (← probe.extend data entry)
  else .ok survey

/-- Compares the window with the entries, in their order. -/
def survey (probe : Probe) (data : Buffer) (entries : List Entry) : Except Fault Survey :=
  entries.foldlM (probe.visit data) .empty

end Probe

end LongMatch
