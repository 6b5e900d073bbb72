import LongMatch.Scan.Probe
/-!
# LongMatch.Scan: one pass over a buffer that finds its long-distance matches

A scan rolls from split to split. At each it probes the table with the window that ends there and
then files the window. A match makes the scan hand out the literals before it, then the match
itself, and go on from the end of the match with a fresh roll; at the end of the buffer the last
literals are handed out. The items describe the buffer from `history` on, without gap or overlap.

Items are never empty and do not overlap, so a scan of a buffer of `n` bytes has no more than `n` of
them; asking `n + 1` times reaches its end (`Scan.collect`).

The entries of the table need not be true: a scan is right whatever the table holds. A match can
then consist of bytes before the probed window alone, and the scan goes back to the match's end.
-/

namespace LongMatch

/-- Counts kept by a scan. -/
structure Stats where
  /-- The splits probed. -/
  boundaries : Nat
  /-- The entries compared byte by byte. -/
  candidates : Nat
  /-- The compared entries whose run was too short. -/
  rejected : Nat
  matchCount : Nat
  matchedBytes : Nat
  deriving DecidableEq, Repr

namespace Stats

/-- The counts at the start. -/
def zero : Stats := ⟨0, 0, 0, 0, 0⟩

/-- The counts after one more probe. -/
def addSurvey (stats : Stats) (survey : Survey) : Stats :=
  { stats with
    boundaries := stats.boundaries + 1
    candidates := stats.candidates + survey.candidates
    rejected := stats.rejected + survey.rejected }

/-- The counts after one more match. -/
def addMatch (stats : Stats) (m : Match) : Stats :=
  { stats with
    matchCount := stats.matchCount + 1
    matchedBytes := stats.matchedBytes + m.length }

end Stats

/-- A scan under way. -/
structure Scan (data : Buffer) where
  params : Params
  detector : Detector
  table : Table
  roll : Roll data
  /-- Where the bytes not yet handed out begin. -/
  anchor : Nat
  /-- A match whose literals have been handed out. -/
  pending : Option Match
  stats : Stats
  /-- Whether the end has been reached. -/
  done : Bool

/-- What asking for a scan gives. -/
inductive Started (data : Buffer) where
  /-- The request is refused and the table handed back. -/
  | refused (error : Error) (table : Table)
  | running (scan : Scan data)

namespace Scan

variable {data : Buffer}

/-! ## Starting -/

/-- Buffers are shorter than this, so that no window starts at the vacant offset. -/
def sizeBound : Nat := Entry.vacantOffset.toNat

/-- Whether a scan of the bytes after the first `history` may start. -/
def check (params : Params) (data : Buffer) (history : Nat) : Except Error Unit :=
  match params.validate with
  | .error error => .error error
  | .ok () =>
    if data.size < history then .error (.historyExceedsBuffer history data.size)
    else if sizeBound ≤ data.size then .error (.bufferTooLarge data.size (sizeBound - 1))
    else .ok ()

/-- The table itself if it has the size the settings ask for, else a fresh one that has. -/
def tableFor (params : Params) (table : Table) : Except Fault Table := do
  if ← table.fits params then return table else Table.ofParams params

/-- The table with the first `history` bytes filed. -/
def fileHistory (params : Params) (data : Buffer) (history : Nat) (table : Table) :
    Except Fault Table :=
  if history = 0 then .ok table
  else do table.fill (← data.slice 0 history) params

/-- A scan of the bytes after the first `history`. Those are filed first, so that matches may
point into them, but they are not described. -/
def start (params : Params) (data : Buffer) (history : Nat) (table : Table) :
    Except Fault (Started data) :=
  match check params data history with
  | .error error => .ok (.refused error table)
  | .ok () => do
    let table ← fileHistory params data history (← tableFor params table)
    let detector ← Detector.ofParams params
    let cursor ← Cursor.start data history
    return .running
      { params, detector, table, roll := .start cursor, anchor := history, pending := none,
        stats := .zero, done := false }

/-! ## Probing -/

/-- How far the scan has come. -/
def position (scan : Scan data) : Nat := scan.roll.position

/-- Probes the table at a split, then files the window there. -/
def probeAt (scan : Scan data) (split : Nat) : Except Fault (Survey × Table) := do
  let minMatch := scan.params.minChunk
  let window ← Window.endingAt data minMatch split
  let maxDistance ← scan.params.maxDistance
  let probe : Probe := { window, minMatch, maxDistance, anchor := scan.anchor }
  let survey ← probe.survey data (scan.table.entries window.key)
  return (survey, scan.table.record window)

/-- What a step of a scan comes to. -/
inductive Event where
  /-- A split was probed and nothing found. -/
  | passed
  /-- A split was probed and this match found. -/
  | found (m : Match)
  /-- No split is left. -/
  | ended
  deriving DecidableEq, Repr

/-- Rolls on to the next split and probes it. -/
def step (scan : Scan data) : Except Fault (Event × Scan data) :=
  match scan.roll.advance scan.detector.splits with
  | (roll, false) => .ok (.ended, { scan with roll })
  | (roll, true) =>
    match scan.probeAt roll.position with
    | .error fault => .error fault
    | .ok (survey, table) =>
      let event := match survey.best with
        | none => Event.passed
        | some m => .found m
      .ok (event,
        { scan with roll := roll.cut, table, stats := scan.stats.addSurvey survey })

/-- A step that goes on has taken at least one byte. -/
theorem remaining_step {scan after : Scan data} {event : Event}
    (h : scan.step = .ok (event, after)) (passed : event = .passed) :
    after.roll.remaining < scan.roll.remaining := by
  simp only [step] at h
  split at h
  · cases h
    contradiction
  · next roll taken =>
    split at h
    · contradiction
    · cases h
      exact roll.remaining_cut.symm ▸ Roll.remaining_advance taken

/-- Steps until a match is found or no split is left. -/
def search (scan : Scan data) : Except Fault (Option Match × Scan data) :=
  match _ : scan.step with
  | .error fault => .error fault
  | .ok (.passed, after) => after.search
  | .ok (.found m, after) => .ok (some m, after)
  | .ok (.ended, after) => .ok (none, after)
termination_by scan.roll.remaining
decreasing_by exact remaining_step ‹_› rfl

/-! ## Handing out -/

/-- Takes a match: hands out the literals before it and keeps the match for later, or the match
itself if there are none. The scan goes on from the match's end; bytes inside it are neither hashed
nor probed. -/
def emit (scan : Scan data) (m : Match) : Except Fault (Sequence × Scan data) := do
  let stop ← m.destinationEnd
  let literals : Span := ⟨scan.anchor, m.destination⟩
  let scan := { scan with anchor := stop, stats := scan.stats.addMatch m }
  let scan := match scan.roll.cursor.seek stop with
    | .ok cursor => { scan with roll := scan.roll.restart cursor }
    | .error _ => { scan with roll := scan.roll.restart scan.roll.cursor, done := true }
  if literals.length = 0 then return (.copy m, scan)
  else return (.literals literals, { scan with pending := some m })

/-- Ends the scan: hands out the last literals, if there are any. -/
def finish (scan : Scan data) : Option Sequence × Scan data :=
  let scan := { scan with done := true }
  if scan.anchor < data.size then
    (some (.literals ⟨scan.anchor, data.size⟩), { scan with anchor := data.size })
  else (none, scan)

/-- The next item, unless the buffer is fully described. -/
def next (scan : Scan data) : Except Fault (Option Sequence × Scan data) :=
  match scan.pending with
  | some m => .ok (some (.copy m), { scan with pending := none })
  | none =>
    if scan.done then .ok (none, scan)
    else
      match scan.search with
      | .error fault => .error fault
      | .ok (none, scan) => .ok scan.finish
      | .ok (some m, scan) => do
        let (item, scan) ← scan.emit m
        return (some item, scan)

/-! ## Collecting -/

/-- Appends the items of at most `count` calls, up to the end of the scan. -/
def runInto (scan : Scan data) (items : Array Sequence) :
    (count : Nat) → Except Fault (Array Sequence × Scan data)
  | 0 => .ok (items, scan)
  | count + 1 =>
    match scan.next with
    | .error fault => .error fault
    | .ok (none, scan) => .ok (items, scan)
    | .ok (some item, scan) => scan.runInto (items.push item) count

/-- The items of at most `count` calls, and the scan after them. -/
def run (scan : Scan data) (count : Nat) : Except Fault (Array Sequence × Scan data) :=
  scan.runInto #[] count

/-- All items that are left, and the scan at its end. -/
def collect (scan : Scan data) : Except Fault (Array Sequence × Scan data) :=
  scan.run (data.size + 1)

end Scan

/-- The description of a whole buffer, found with a table of its own. -/
def describe (params : Params) (data : Buffer) : Except Fault (Except Error (Array Sequence)) :=
  match params.validate with
  | .error error => .ok (.error error)
  | .ok () => do
    match ← Scan.start params data 0 (← Table.ofParams params) with
    | .refused error _ => return .error error
    | .running scan =>
      let (items, _) ← scan.collect
      return .ok items

end LongMatch
