import LongMatch.Sequence
/-!
# LongMatch.Sequence.Folded: the description a block compressor takes

The folded form has one item for each match: how many literal bytes come before it, how long it is
and how far back its source is. Positions are dropped, and the literals after the last match are a
count of their own. `Folded.unfold` finds the positions again.
-/

namespace LongMatch

/-- A match with the literals before it. -/
structure RawSequence where
  literalLength : Nat
  matchLength : Nat
  distance : Nat
  deriving DecidableEq, Repr

/-- A description without positions. -/
structure Folded where
  raw : Array RawSequence
  /-- The literals after the last match. -/
  trailing : Nat
  deriving DecidableEq, Repr

namespace Folded

/-- The description of nothing. -/
def empty : Folded := ⟨#[], 0⟩

/-- The description with one more step: literals wait for the match after them. -/
def push (folded : Folded) : Sequence → Except Fault Folded
  | .literals span => do
    return { folded with trailing := ← Checked.add folded.trailing span.length }
  | .copy m => do
    let distance ← m.distance
    return ⟨folded.raw.push ⟨folded.trailing, m.length, distance⟩, 0⟩

/-- The folded form of a description. -/
def ofSequences (sequences : Array Sequence) : Except Fault Folded := sequences.foldlM push empty

/-- The literals that start at a position, none if their number is zero. -/
def literalsAt (position count : Nat) : List Sequence :=
  if count = 0 then [] else [.literals ⟨position, position + count⟩]

/-- The steps of a folded form that begins at a position. -/
def unfoldFrom (position : Nat) (trailing : Nat) : List RawSequence → List Sequence
  | [] => literalsAt position trailing
  | item :: rest =>
    let destination := position + item.literalLength
    literalsAt position item.literalLength ++
      .copy ⟨destination - item.distance, destination, item.matchLength⟩ ::
        unfoldFrom (destination + item.matchLength) trailing rest

/-- The steps of a folded form of the bytes after the first `history`. -/
def unfold (folded : Folded) (history : Nat) : List Sequence :=
  unfoldFrom history folded.trailing folded.raw.toList

end Folded

end LongMatch
