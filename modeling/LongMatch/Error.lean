import LongMatch.Text
/-!
# LongMatch.Error: why a request is refused

An error is the cause and the numbers that belong to it; `Error.message` gives its wording for a
reader, `Error.record` its name and fields for the line that ends a failed run.
-/

namespace LongMatch

/-- Why a file could not be read. Either way the file was not there. -/
inductive ReadFailure where
  /-- A failure in the caller's own words. -/
  | described (text : String)
  /-- A failure the system reports by number and text. -/
  | system (code : Nat) (text : String)
  deriving DecidableEq, Repr

/-- The failure's name and fields. -/
def ReadFailure.record : ReadFailure → Text.Record
  | .described text => ⟨"Custom", [("kind", "NotFound"), ("error", Text.quoted text)]⟩
  | .system code text =>
    ⟨"Os", [("code", toString code), ("kind", "NotFound"), ("message", Text.quoted text)]⟩

/-- Why a request is refused. -/
inductive Error where
  | windowLogOutOfRange (windowLog least greatest : Nat)
  | hashLogOutOfRange (hashLog least greatest : Nat)
  | bucketSizeLogOutOfRange (bucketSizeLog greatest : Nat)
  | hashRateLogOutOfRange (hashRateLog greatest : Nat)
  | minMatchLengthOutOfRange (minMatchLength least greatest : Nat)
  | historyExceedsBuffer (history size : Nat)
  | bufferTooLarge (size greatest : Nat)
  | dataOutOfBounds (position limit : Nat)
  | unreadable (failure : ReadFailure)
  deriving DecidableEq, Repr

namespace Error

/-- A value that lies outside its inclusive range. -/
def outsideRange (name : String) (value least greatest : Nat) : String :=
  s!"{name} {value} outside supported range [{least}, {greatest}]"

/-- The error in words. -/
def message : Error → String
  | windowLogOutOfRange value least greatest => outsideRange "window_log" value least greatest
  | hashLogOutOfRange value least greatest => outsideRange "hash_log" value least greatest
  | bucketSizeLogOutOfRange value greatest => outsideRange "bucket_size_log" value 0 greatest
  | hashRateLogOutOfRange value greatest => outsideRange "hash_rate_log" value 0 greatest
  | minMatchLengthOutOfRange value least greatest =>
    outsideRange "min_match_length" value least greatest
  | historyExceedsBuffer history size =>
    s!"history of {history} bytes exceeds buffer of {size} bytes"
  | bufferTooLarge size greatest =>
    s!"buffer of {size} bytes exceeds the {greatest} byte offset limit"
  | dataOutOfBounds position limit =>
    s!"DataWindow out of bounds: pos {position} > limit {limit}"
  | unreadable failure => "I/O error: " ++ failure.record.block

/-- The error's name and fields. -/
def record : Error → Text.Record
  | windowLogOutOfRange value least greatest =>
    numbers "WindowLogOutOfRange" [("window_log", value), ("min", least), ("max", greatest)]
  | hashLogOutOfRange value least greatest =>
    numbers "HashLogOutOfRange" [("hash_log", value), ("min", least), ("max", greatest)]
  | bucketSizeLogOutOfRange value greatest =>
    numbers "BucketSizeLogOutOfRange" [("bucket_size_log", value), ("max", greatest)]
  | hashRateLogOutOfRange value greatest =>
    numbers "HashRateLogOutOfRange" [("hash_rate_log", value), ("max", greatest)]
  | minMatchLengthOutOfRange value least greatest =>
    numbers "MinMatchLengthOutOfRange"
      [("min_match_length", value), ("min", least), ("max", greatest)]
  | historyExceedsBuffer history size =>
    numbers "HistoryExceedsBuffer" [("history", history), ("len", size)]
  | bufferTooLarge size greatest => numbers "BufferTooLarge" [("len", size), ("max", greatest)]
  | dataOutOfBounds position limit =>
    numbers "DataOutOfBounds" [("position", position), ("limit", limit)]
  | unreadable failure => ⟨"Io", [("error", failure.record.line)]⟩
where
  numbers (name : String) (fields : List (String × Nat)) : Text.Record :=
    ⟨name, fields.map fun (field, value) => (field, toString value)⟩

end Error

end LongMatch
