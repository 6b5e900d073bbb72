import LongMatch.Proofs.Sequence.Tiling
/-!
# LongMatch.Proofs.Sequence.Folding: the folded form of a tiling loses nothing

Folding drops positions: what is left of a description is `Folded.rawFrom` and
`Folded.trailingFrom`, each a recursion over the items with the number of literals that wait for a
match. For a tiling whose matches are repeats the fold has a result, and it is those two
(`foldlM_push_eq`). Unfolding gives the items again (`unfoldFrom_rawFrom`), since no literals stand
next to literals and none are empty; and replaying turns the front of the buffer and the literal
bytes into the whole stretch (`replayItems_rawFrom`). Both are inductions over the tiling with the
waiting literals as a parameter: they lie just before the place that the tiling has come to.
-/

namespace LongMatch

namespace Folded

open Sequence (Tiles Apart supply)

/-- The folded items when `pending` literals wait. -/
def rawFrom (pending : Nat) : List Sequence → List RawSequence
  | [] => []
  | .literals span :: items => rawFrom (pending + span.length) items
  | .copy m :: items => ⟨pending, m.length, m.destination - m.source⟩ :: rawFrom 0 items

/-- The literals after the last match when `pending` literals wait. -/
def trailingFrom (pending : Nat) : List Sequence → Nat
  | [] => pending
  | .literals span :: items => trailingFrom (pending + span.length) items
  | .copy _ :: items => trailingFrom 0 items

variable {data : Buffer} {start stop pending : Nat} {items : List Sequence}

/-- What the literals that wait and the items to come are: the literals lie before `start`, and the
items tile the bytes from there up to `stop`, with matches that repeat the buffer. -/
structure Rest (data : Buffer) (start stop pending : Nat) (items : List Sequence) : Prop where
  pending_le : pending ≤ start
  tiles : Tiles start items stop
  stop_le : stop ≤ data.size
  repeats : ∀ m, .copy m ∈ items → m.Repeats data

theorem Rest.of_literals {span : Span}
    (h : Rest data start stop pending (.literals span :: items)) :
    start = span.start ∧ span.start < span.stop ∧
      Rest data span.stop stop (pending + span.length) items := by
  obtain ⟨hpending, htiles, hstop, hrepeats⟩ := h
  cases htiles with
  | cons hcovered hlt hrest =>
    cases hcovered
    refine ⟨rfl, hlt, ?_, hrest, hstop, fun m hm => hrepeats m (List.mem_cons_of_mem _ hm)⟩
    unfold Span.length
    omega

theorem Rest.of_copy {m : Match} (h : Rest data start stop pending (.copy m :: items)) :
    start = m.destination ∧ m.Repeats data ∧
      Rest data (m.destination + m.length) stop 0 items := by
  obtain ⟨hpending, htiles, hstop, hrepeats⟩ := h
  have hm := hrepeats m List.mem_cons_self
  cases htiles with
  | cons hcovered hlt hrest =>
    obtain rfl := Sequence.span_of_covered_copy hcovered
    exact ⟨rfl, hm, Nat.zero_le _, hrest, hstop, fun m hm => hrepeats m (List.mem_cons_of_mem _ hm)⟩

/-! ## The fold has a result -/

theorem foldlM_push_eq (h : Rest data start stop pending items)
    (hsize : data.size < Checked.sizeBound) (before : Array RawSequence) :
    items.foldlM push ⟨before, pending⟩ =
      .ok ⟨before ++ rawFrom pending items, trailingFrom pending items⟩ := by
  induction items generalizing start pending before with
  | nil => simp [rawFrom, trailingFrom]
  | cons item items ih =>
    cases item with
    | literals span =>
      obtain ⟨rfl, hlt, hrest⟩ := h.of_literals
      have hsum : Checked.add pending span.length = .ok (pending + span.length) := by
        have hle := hrest.pending_le
        have hstop := hrest.tiles.le
        have hdata := hrest.stop_le
        exact Checked.add_eq_ok_iff.mpr ⟨by omega, rfl⟩
      rw [List.foldlM_cons, push, hsum]
      exact ih hrest before
    | copy m =>
      obtain ⟨rfl, hm, hrest⟩ := h.of_copy
      have hdistance : m.distance = .ok (m.destination - m.source) :=
        Checked.sub_of_le (Nat.le_of_lt hm.source_lt)
      rw [List.foldlM_cons, push, hdistance]
      refine (ih hrest _).trans ?_
      simp [rawFrom, trailingFrom]

/-! ## Unfolding -/

theorem literalsAt_zero (position : Nat) : literalsAt position 0 = [] := rfl

theorem literalsAt_length {span : Span} (h : span.start < span.stop) :
    literalsAt span.start span.length = [.literals span] := by
  have hne : span.stop - span.start ≠ 0 := by omega
  have hstop : span.start + (span.stop - span.start) = span.stop := by omega
  rw [literalsAt, Span.length, if_neg hne, hstop]

/-- Unfolding gives the waiting literals and then the items. Literals only wait where none
follow. -/
theorem unfoldFrom_rawFrom (h : Rest data start stop pending items) (hapart : items.IsChain Apart)
    (hopen : 0 < pending → ∀ span, items.head? ≠ some (.literals span)) :
    unfoldFrom (start - pending) (trailingFrom pending items) (rawFrom pending items) =
      literalsAt (start - pending) pending ++ items := by
  induction items generalizing start pending with
  | nil => simp [rawFrom, trailingFrom, unfoldFrom]
  | cons item items ih =>
    have hchain := hapart.tail
    cases item with
    | literals span =>
      obtain ⟨rfl, hlt, hrest⟩ := h.of_literals
      obtain rfl : pending = 0 := by
        apply Nat.eq_zero_of_not_pos
        intro hpos
        exact hopen hpos span rfl
      -- the next item is a match
      have hopen' : 0 < 0 + span.length → ∀ span', items.head? ≠ some (.literals span') := by
        intro _ span' hhead
        cases items with
        | nil => cases hhead
        | cons next items =>
          cases hhead
          rcases (List.isChain_cons_cons.mp hapart).1 with hm | hm <;> cases hm
      have hback : span.stop - (0 + span.length) = span.start := by
        unfold Span.length
        omega
      have hitems := ih hrest hchain hopen'
      rw [hback, Nat.zero_add, literalsAt_length hlt] at hitems
      rw [rawFrom, trailingFrom, Nat.zero_add, Nat.sub_zero, hitems, literalsAt_zero]
      rfl
    | copy m =>
      obtain ⟨rfl, hm, hrest⟩ := h.of_copy
      have hpending := h.pending_le
      have hsource := hm.source_lt
      have hdestination : m.destination - pending + pending = m.destination := by omega
      have hback : m.destination - (m.destination - m.source) = m.source := by omega
      have hitems := ih hrest hchain (fun hpos => absurd hpos (Nat.lt_irrefl 0))
      rw [Nat.sub_zero, literalsAt_zero, List.nil_append] at hitems
      rw [rawFrom, trailingFrom, unfoldFrom]
      simp only [hdestination, hback, hitems]

/-! ## Replaying -/

/-- Appending the `count` bytes behind the front of a supply. -/
theorem appendFrom_append (out front middle back : Buffer) {count : Nat}
    (hcount : middle.size = count) :
    out.appendFrom (front ++ middle ++ back) front.size count = some (out ++ middle) := by
  have hroom : front.size + count ≤ (front ++ middle ++ back).size := by
    rw [Array.size_append, Array.size_append]
    omega
  rw [Buffer.appendFrom, if_pos hroom, ← hcount, Array.append_assoc, Array.extract_append]
  simp

/-- A stretch of the buffer and the stretch that follows it. -/
theorem extract_append_next (data : Buffer) {first mid last : Nat} (hfirst : first ≤ mid)
    (hmid : mid ≤ last) :
    data.extract first mid ++ data.extract mid last = data.extract first last := by
  rw [Array.extract_append_extract, Nat.min_eq_left hfirst, Nat.max_eq_right hmid]

theorem size_extract_back (hpending : pending ≤ start) (hstart : start ≤ data.size) :
    (data.extract (start - pending) start).size = pending := by
  rw [Array.size_extract]
  omega

theorem append_extract_empty (used : Buffer) (start : Nat) :
    used ++ data.extract (start - 0) start = used := by
  rw [Nat.sub_zero, Array.extract_empty_of_stop_le_start (Nat.le_refl start), Array.append_empty]

/-- Replaying the folded items, with all literals but those after the last match used up. The
literals that wait are in the supply, but not yet in the output. -/
theorem replayItems_rawFrom (h : Rest data start stop pending items)
    (literals used : Buffer)
    (hliterals : literals = used ++ data.extract (start - pending) start ++ supply data items) :
    ∃ front, literals = front ++ data.extract (stop - trailingFrom pending items) stop ∧
      trailingFrom pending items ≤ stop ∧
      replayItems literals (data.extract 0 (start - pending), used.size)
        (rawFrom pending items) =
          some (data.extract 0 (stop - trailingFrom pending items), front.size) := by
  induction items generalizing start pending used with
  | nil =>
    have hpending := h.pending_le
    cases h.tiles
    refine ⟨used, ?_, hpending, rfl⟩
    rw [hliterals, supply, Array.append_empty, trailingFrom]
  | cons item items ih =>
    have hpending := h.pending_le
    have hstart := Nat.le_trans h.tiles.le h.stop_le
    cases item with
    | literals span =>
      obtain ⟨rfl, hlt, hrest⟩ := h.of_literals
      -- one more stretch of literals waits, and none is used
      have hback : span.stop - (pending + span.length) = span.start - pending := by
        unfold Span.length
        omega
      have hjoin := extract_append_next data (Nat.sub_le span.start pending) (Nat.le_of_lt hlt)
      rw [rawFrom, trailingFrom, ← hback]
      apply ih hrest
      rw [hliterals, supply, hback, ← hjoin]
      simp only [Array.append_assoc]
    | copy m =>
      obtain ⟨rfl, hm, hrest⟩ := h.of_copy
      have hsource := hm.source_lt
      have hwaiting := size_extract_back hpending hstart
      -- the waiting literals are appended, and then the match is copied
      have hfront : Buffer.appendFrom (data.extract 0 (m.destination - pending)) literals used.size
          pending = some (data.extract 0 m.destination) := by
        rw [hliterals, appendFrom_append _ _ _ _ hwaiting,
          extract_append_next data (Nat.zero_le _) (Nat.sub_le _ _)]
      have hsize : (data.extract 0 m.destination).size = m.destination :=
        Buffer.size_extract_front hstart
      have hback : m.destination - (m.destination - m.source) = m.source := by omega
      have hcopy := Buffer.copyWithin_extract hsource hm.stop_le hm.same
      obtain ⟨front, hfront', hle, hitems⟩ := ih hrest
        (used ++ data.extract (m.destination - pending) m.destination)
        (by rw [append_extract_empty]; exact hliterals)
      refine ⟨front, hfront', hle, ?_⟩
      rw [Array.size_append, hwaiting, Nat.sub_zero] at hitems
      rw [rawFrom, replayItems]
      simp only [hfront, hsize, hback, hcopy]
      rw [if_pos ⟨by omega, Nat.sub_le _ _⟩]
      exact hitems

/-- What is folded replays to the bytes up to where the items stop, and the literals are used up. -/
theorem replay_eq (h : Rest data start stop 0 items) :
    (⟨(rawFrom 0 items).toArray, trailingFrom 0 items⟩ : Folded).replay (data.extract 0 start)
      (supply data items) = some (data.extract 0 stop) := by
  obtain ⟨front, hliterals, hle, hitems⟩ := replayItems_rawFrom h (supply data items) #[]
    (by rw [append_extract_empty, Array.empty_append])
  have hback := size_extract_back hle h.stop_le
  have hsize : front.size + trailingFrom 0 items = (supply data items).size := by
    rw [hliterals, Array.size_append, hback]
  have hlast := appendFrom_append (data.extract 0 (stop - trailingFrom 0 items)) front
    (data.extract (stop - trailingFrom 0 items) stop) #[] hback
  rw [Array.append_empty, ← hliterals,
    extract_append_next data (Nat.zero_le _) (Nat.sub_le _ _)] at hlast
  rw [Nat.sub_zero, Array.size_empty] at hitems
  unfold replay
  simp only [hitems, hsize, if_pos]
  exact hlast

/-! ## Distances -/

/-- The distances of the folded items are those of the matches. -/
theorem distance_of_mem_rawFrom {raw : RawSequence} (h : raw ∈ rawFrom pending items) :
    ∃ m, .copy m ∈ items ∧ raw.distance = m.destination - m.source := by
  induction items generalizing pending with
  | nil => cases h
  | cons item items ih =>
    cases item with
    | literals span =>
      obtain ⟨m, hm, hdistance⟩ := ih h
      exact ⟨m, List.mem_cons_of_mem _ hm, hdistance⟩
    | copy m =>
      rcases List.mem_cons.mp h with rfl | hrest
      · exact ⟨m, List.mem_cons_self, rfl⟩
      · obtain ⟨m', hm', hdistance⟩ := ih hrest
        exact ⟨m', List.mem_cons_of_mem _ hm', hdistance⟩

end Folded

end LongMatch
