import LongMatch.Buffer
import LongMatch.Sequence.Folded
/-!
# LongMatch.Sequence.Replay: a buffer rebuilt from its description

Replaying appends to what has been rebuilt so far: literal bytes from a supply, and for a match the
bytes at its source one at a time, front to back, so that a source may run into the bytes being
appended. A step that reads what is not there has no replay.
-/

namespace LongMatch

namespace Buffer

/-- Appends `count` of the buffer's own bytes, from `source` on, one at a time. -/
def copyWithin (out : Buffer) (source : Nat) : (count : Nat) → Option Buffer
  | 0 => some out
  | count + 1 =>
    match out[source]? with
    | none => none
    | some byte => copyWithin (out.push byte) (source + 1) count

/-- Appends `count` bytes of a supply, from `start` on. -/
def appendFrom (out supply : Buffer) (start count : Nat) : Option Buffer :=
  if start + count ≤ supply.size then some (out ++ supply.extract start (start + count)) else none

end Buffer

/-- Appends what one step describes. Literals come from `data` at their own positions; every step
starts where the output ends. -/
def Sequence.replay (data out : Buffer) : Sequence → Option Buffer
  | .literals span =>
    if span.start = out.size then out.appendFrom data span.start span.length else none
  | .copy m => if m.destination = out.size then out.copyWithin m.source m.length else none

/-- The literal bytes of the steps, in order: what a description leaves to be encoded. -/
def Sequence.supply (data : Buffer) : List Sequence → Buffer
  | [] => #[]
  | .literals span :: rest => data.extract span.start span.stop ++ supply data rest
  | .copy _ :: rest => supply data rest

/-- Appends what the steps describe, in order. -/
def Sequence.replayAll (data out : Buffer) : List Sequence → Option Buffer
  | [] => some out
  | step :: rest => (step.replay data out).bind fun out => replayAll data out rest

namespace Folded

/-- Appends what the items describe. Literals are taken from a supply in order; the position in
the supply is returned with the output. A distance is at least one and reaches no further back
than the output does. -/
def replayItems (supply : Buffer) : Buffer × Nat → List RawSequence → Option (Buffer × Nat)
  | state, [] => some state
  | (out, taken), item :: rest =>
    match out.appendFrom supply taken item.literalLength with
    | none => none
    | some out =>
      if 1 ≤ item.distance ∧ item.distance ≤ out.size then
        match out.copyWithin (out.size - item.distance) item.matchLength with
        | none => none
        | some out => replayItems supply (out, taken + item.literalLength) rest
      else none

/-- The bytes that a folded form describes after `history`, if it uses up the literals. -/
def replay (folded : Folded) (history supply : Buffer) : Option Buffer :=
  match replayItems supply (history, 0) folded.raw.toList with
  | none => none
  | some (out, taken) =>
    if taken + folded.trailing = supply.size then
      out.appendFrom supply taken folded.trailing
    else none

end Folded

end LongMatch
