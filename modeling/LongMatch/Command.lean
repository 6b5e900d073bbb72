import LongMatch.Scan
import LongMatch.Sequence.Folded
/-!
# LongMatch.Command: what the program prints

The program scans one buffer with the standard settings. It announces the scan, lists the matches
in order, and closes with a summary. A refused request ends it with exit code 1 and the reason.

Without a file it scans a sample, a buffer with one repeat that is easy to see: a block of
pseudo-random bytes, a gap of other ones, and the block again. The bytes come from a linear
congruential generator on 32 bits. A byte is bits 16 to 23 of a state, because the low bits of such
a generator repeat early.
-/

namespace LongMatch

/-! ## The sample -/

namespace Sample

/-- The state of the generator before the first number. -/
def seed : UInt32 := 0xdeadbeef

/-- The next state of the generator. -/
def step (state : UInt32) : UInt32 := state * 1103515245 + 12345

/-- The byte of a state. -/
def byte (state : UInt32) : UInt8 := (state >>> 16).toUInt8

/-- Appends `count` bytes of the states after the given one. -/
def extend (data : Buffer) (state : UInt32) : (count : Nat) → Buffer
  | 0 => data
  | count + 1 => extend (data.push (byte (step state))) (step state) count

/-- A block, a gap and the block again. -/
def repeated (block gap : Nat) : Buffer :=
  let data := extend #[] seed (block + gap)
  data ++ data.extract 0 block

end Sample

/-! ## What is printed -/

/-- What the program is given to scan. -/
inductive Source where
  /-- The content of a file. -/
  | bytes (data : Buffer)
  /-- A sample with a block and a gap of these sizes. -/
  | sample (block gap : Nat)
  /-- A file that does not exist. -/
  | missing

/-- What is scanned when no file is named. -/
def Source.unnamed : Source := .sample (1 <<< 20) (3 <<< 20)

/-- What a run of the program leaves behind. -/
structure Outcome where
  exitCode : Nat
  /-- The lines of standard output. -/
  output : List String
  /-- The lines of standard error. -/
  errors : List String
  deriving DecidableEq, Repr

namespace Report

/-- The line that announces a scan. -/
def heading (size windowLog tableBytes : Nat) : String :=
  s!"Scanning {size} bytes (window 2^{windowLog}, table {tableBytes / 1024} KiB)..."

/-- The line of a match. -/
def matchLine (m : Match) (distance : Nat) : String :=
  s!"match: {m.length} bytes at {m.destination} from {distance} back"

/-- The line that closes a report. -/
def summary (folded : Folded) (stats : Stats) : String :=
  s!"{folded.raw.size} matches covering {stats.matchedBytes} bytes, " ++
    s!"{stats.boundaries} boundaries probed, {folded.trailing} trailing literals"

/-- The lines of the matches among the items. -/
def matchLines (items : Array Sequence) : Except Fault (List String) :=
  (items.toList.filterMap Sequence.match?).mapM fun m => do
    return matchLine m (← m.distance)

end Report

namespace Command

/-- The end of a run whose request is refused. -/
def refuse (error : Error) (output : List String) : Outcome :=
  ⟨1, output, ["Error: " ++ error.record.line]⟩

/-- The run of the program on the bytes of a buffer. -/
def scanBuffer (data : Buffer) : Except Fault Outcome := do
  let params := Params.standard
  let table ← Table.ofParams params
  let heading := Report.heading data.size params.windowLog (← params.tableBytes)
  match ← Scan.start params data 0 table with
  | .refused error _ => return refuse error [heading]
  | .running scan =>
    let (items, scan) ← scan.collect
    let lines ← Report.matchLines items
    let folded ← Folded.ofSequences items
    return ⟨0, heading :: lines ++ [Report.summary folded scan.stats], []⟩

/-- The run of the program on what it is given. -/
def run : Source → Except Fault Outcome
  | .bytes data => scanBuffer data
  | .sample block gap => scanBuffer (Sample.repeated block gap)
  | .missing => .ok (refuse (.unreadable (.system 2 "No such file or directory")) [])

end Command

end LongMatch
