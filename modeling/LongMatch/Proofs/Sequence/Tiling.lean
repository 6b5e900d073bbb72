import Mathlib.Data.List.Chain
import LongMatch.Proofs.Sequence.Maximal
import LongMatch.Sequence.Replay
/-!
# LongMatch.Proofs.Sequence.Tiling: descriptions that cover a stretch of the buffer

`Sequence.Tiles start items stop` says that the items are not empty, follow one another without gap
or overlap, and cover the positions from `start` up to `stop`. A description that tiles, and whose
matches are repeats of the buffer, replays to the buffer: `Tiles.replayAll_eq`. The copies may
overlap, so that case is an induction over the copied bytes, `copyWithin_extract`.
-/

namespace LongMatch

namespace Sequence

/-- The items cover the positions from `start` up to `stop`, in order. -/
inductive Tiles : Nat → List Sequence → Nat → Prop
  | nil (start : Nat) : Tiles start [] start
  | cons {span : Span} {item : Sequence} {items : List Sequence} {stop : Nat} :
      item.covered = .ok span → span.start < span.stop → Tiles span.stop items stop →
      Tiles span.start (item :: items) stop

/-- A match accounts for the bytes of its destination. -/
theorem span_of_covered_copy {m : Match} {span : Span} (h : (copy m).covered = .ok span) :
    span = ⟨m.destination, m.destination + m.length⟩ := by
  obtain ⟨stop, hend, hspan⟩ := Checked.bind_eq_ok_iff.mp h
  cases hspan
  obtain ⟨_, rfl⟩ := Checked.add_eq_ok_iff.mp hend
  rfl

/-- One of two neighbours is a match. -/
def Apart (a b : Sequence) : Prop := a.match?.isSome ∨ b.match?.isSome

/-- Where the last match among the items ends, or `start` if there is none. -/
def matchedTo (start : Nat) : List Sequence → Nat
  | [] => start
  | .literals _ :: items => matchedTo start items
  | .copy m :: items => matchedTo (m.destination + m.length) items

@[simp] theorem matchedTo_snoc_literals (start : Nat) (items : List Sequence) (span : Span) :
    matchedTo start (items ++ [.literals span]) = matchedTo start items := by
  induction items generalizing start with
  | nil => rfl
  | cons item items ih => cases item <;> exact ih _

@[simp] theorem matchedTo_snoc_copy (start : Nat) (items : List Sequence) (m : Match) :
    matchedTo start (items ++ [.copy m]) = m.destination + m.length := by
  induction items generalizing start with
  | nil => rfl
  | cons item items ih => cases item <;> exact ih _

/-- Every match among the items satisfies `P`, given where the match before it ends. -/
def EachCopy (P : Nat → Match → Prop) (start : Nat) (items : List Sequence) : Prop :=
  ∀ before m rest, items = before ++ .copy m :: rest → P (matchedTo start before) m

/-! ### One more item -/

section Snoc

variable {start mid stop : Nat} {items : List Sequence} {P : Nat → Match → Prop} {m : Match}

/-- An item of a list with one more item is one of the list or the new one. -/
theorem eq_of_snoc_eq {last item : Sequence} {before rest : List Sequence}
    (h : items ++ [last] = before ++ item :: rest) :
    (before = items ∧ item = last) ∨ ∃ rest', items = before ++ item :: rest' := by
  -- the item is last exactly if nothing comes after it
  rcases List.eq_nil_or_concat rest with hnil | ⟨rest', last', hlast⟩
  · rw [hnil] at h
    obtain ⟨hitems, hitem⟩ := List.append_inj' h rfl
    exact Or.inl ⟨hitems.symm, (List.cons.inj hitem).1.symm⟩
  · rw [hlast, List.concat_eq_append, ← List.cons_append, ← List.append_assoc] at h
    exact Or.inr ⟨rest', (List.append_inj' h rfl).1⟩

theorem eachCopy_nil : EachCopy P start [] := by
  intro before m rest heq
  cases before <;> cases heq

theorem EachCopy.snoc_literals (h : EachCopy P start items) (span : Span) :
    EachCopy P start (items ++ [.literals span]) := by
  intro before m rest heq
  rcases eq_of_snoc_eq heq with ⟨_, hitem⟩ | ⟨rest', hitems⟩
  · cases hitem
  · exact h before m rest' hitems

theorem EachCopy.snoc_copy (h : EachCopy P start items) (hm : P (matchedTo start items) m) :
    EachCopy P start (items ++ [.copy m]) := by
  intro before m' rest heq
  rcases eq_of_snoc_eq heq with ⟨hbefore, hitem⟩ | ⟨rest', hitems⟩
  · cases hitem
    rw [hbefore]
    exact hm
  · exact h before m' rest' hitems

theorem apart_snoc_copy (h : items.IsChain Apart) (m : Match) :
    List.IsChain Apart (items ++ [.copy m]) := by
  apply h.append (.singleton _)
  intro a _ b hb
  cases hb
  exact Or.inr rfl

theorem apart_snoc_literals (h : items.IsChain Apart)
    (hlast : ∀ span, items.getLast? ≠ some (.literals span)) (span : Span) :
    List.IsChain Apart (items ++ [.literals span]) := by
  apply h.append (.singleton _)
  intro a ha b _
  cases a with
  | literals span' => exact absurd ha (hlast span')
  | copy m => exact Or.inl rfl

end Snoc

/-! ### Tilings -/

namespace Tiles

variable {start mid stop : Nat} {items : List Sequence}

theorem le (h : Tiles start items stop) : start ≤ stop := by
  induction h with
  | nil => exact Nat.le_refl _
  | cons _ hlt _ ih => exact Nat.le_trans (Nat.le_of_lt hlt) ih

/-- There are no more items than positions. -/
theorem length_le (h : Tiles start items stop) : start + items.length ≤ stop := by
  induction h with
  | nil => exact Nat.le_refl _
  | cons _ hlt _ ih =>
    rw [List.length_cons]
    omega

/-- A tiling goes on with an item that starts where it stops. -/
theorem snoc {item : Sequence} (h : Tiles start items mid) (hspan : item.covered = .ok ⟨mid, stop⟩)
    (hlt : mid < stop) : Tiles start (items ++ [item]) stop := by
  induction h with
  | nil start => exact Tiles.cons hspan hlt (Tiles.nil stop)
  | cons hitem hne _ ih => exact Tiles.cons hitem hne (ih hspan hlt)

end Tiles

end Sequence

/-! ## Replaying -/

namespace Buffer

variable {data : Buffer}

theorem size_extract_front {stop : Nat} (h : stop ≤ data.size) :
    (data.extract 0 stop).size = stop := by
  rw [Array.size_extract]
  omega

/-- The front of the buffer with one more byte. -/
theorem push_extract {stop : Nat} {byte : UInt8} (h : data[stop]? = some byte) :
    (data.extract 0 stop).push byte = data.extract 0 (stop + 1) := by
  obtain ⟨hlt, hbyte⟩ := Array.getElem?_eq_some_iff.mp h
  rw [← hbyte, Array.push_extract_getElem hlt, Nat.min_eq_left (Nat.zero_le _)]

/-- Copying a repeat byte by byte onto the front of the buffer that it lies behind makes the front
longer. The source may run into the copied bytes. -/
theorem copyWithin_extract {source position count : Nat} (hlt : source < position)
    (hle : position + count ≤ data.size)
    (hsame : ∀ k, k < count → data[source + k]? = data[position + k]?) :
    copyWithin (data.extract 0 position) source count =
      some (data.extract 0 (position + count)) := by
  induction count generalizing source position with
  | zero => rfl
  | succ count ih =>
    -- the byte to copy is the next byte of the buffer, so one step reaches the next front
    have hnext : data[position]? = some data[position] :=
      Array.getElem?_eq_getElem (by omega)
    have hread : (data.extract 0 position)[source]? = some data[position] := by
      have hfront : source < (data.extract 0 position).size := by
        rw [size_extract_front (by omega)]
        exact hlt
      have hbyte : data[source]? = data[position]? := hsame 0 (by omega)
      rw [Array.getElem?_eq_getElem hfront, Array.getElem_extract, ← hnext, ← hbyte,
        Array.getElem?_eq_getElem (by omega)]
      simp only [Nat.zero_add]
    have hrest : ∀ k, k < count → data[source + 1 + k]? = data[position + 1 + k]? := by
      intro k hk
      have hk' := hsame (k + 1) (by omega)
      rwa [Nat.add_comm k 1, ← Nat.add_assoc, ← Nat.add_assoc] at hk'
    simp only [copyWithin, hread]
    rw [push_extract hnext, ih (by omega) (by omega) hrest]
    congr 2
    omega

theorem appendFrom_extract {start stop : Nat} (hle : start ≤ stop) (hstop : stop ≤ data.size) :
    appendFrom (data.extract 0 start) data start (stop - start) =
      some (data.extract 0 stop) := by
  have hend : start + (stop - start) = stop := by omega
  rw [appendFrom, hend, if_pos hstop, Array.extract_append_extract, Nat.min_eq_left (by omega),
    Nat.max_eq_right hle]

end Buffer

namespace Sequence

variable {data : Buffer} {start stop : Nat} {items : List Sequence}

/-- One item makes the front of the buffer longer by what it covers. -/
theorem replay_extract {item : Sequence} {span : Span} (hspan : item.covered = .ok span)
    (hle : span.start ≤ span.stop) (hstop : span.stop ≤ data.size)
    (hreal : ∀ m, item = .copy m → m.Repeats data) :
    item.replay data (data.extract 0 span.start) = some (data.extract 0 span.stop) := by
  have hsize : (data.extract 0 span.start).size = span.start :=
    Buffer.size_extract_front (by omega)
  cases item with
  | literals literal =>
    cases hspan
    rw [replay, if_pos hsize.symm]
    exact Buffer.appendFrom_extract hle hstop
  | copy m =>
    obtain rfl := span_of_covered_copy hspan
    have hm := hreal m rfl
    rw [replay, if_pos hsize.symm]
    exact Buffer.copyWithin_extract hm.source_lt hstop hm.same

/-- Replaying a tiling whose matches are repeats gives the buffer up to where it stops. -/
theorem Tiles.replayAll_eq (h : Tiles start items stop) (hstop : stop ≤ data.size)
    (hreal : ∀ m, .copy m ∈ items → m.Repeats data) :
    replayAll data (data.extract 0 start) items = some (data.extract 0 stop) := by
  induction h with
  | nil => rfl
  | cons hspan hlt hrest ih =>
    have hle := hrest.le
    have hfirst := replay_extract hspan (Nat.le_of_lt hlt) (by omega)
      (fun m hm => hreal m (by rw [hm]; exact List.mem_cons_self))
    -- the item ends where the rest begins
    rw [replayAll, hfirst]
    apply ih hstop
    intro m hm
    exact hreal m (List.mem_cons_of_mem _ hm)

end Sequence

end LongMatch
