import LongMatch.Proofs.Index.Filing
import LongMatch.Scan
/-!
# LongMatch.Proofs.Scan.Moves: a scan taken apart into moves

A call of `Scan.next` may probe many splits before it answers. Its parts are moves: a byte that ends
no chunk, a probe that finds nothing, a probe that finds a match together with the answer that
follows, the end of the search, the match that waits, and a call after the end. A move is labelled
with the windows it files and the answers it gives, and `Scan.Run` strings moves together.

Moves are neither more nor less than what calls do. A move without an answer leaves the answer of
the call under way as it is (`Move.next_eq_next`), and a move with an answer ends it
(`Move.next_eq_ok`), so a run gives the answers that as many calls give (`Run.calls_eq`). What holds
after every run holds at every moment of every sequence of calls.
-/

namespace LongMatch.Scan

variable {data : Buffer}

/-! ## Calls -/

/-- The answers of `count` calls, and the scan after them. -/
def calls (scan : Scan data) : (count : Nat) → Except Fault (List (Option Sequence) × Scan data)
  | 0 => .ok ([], scan)
  | count + 1 => do
    let (answers, scan) ← scan.calls count
    let (answer, scan) ← scan.next
    return (answers ++ [answer], scan)

/-- The items among the answers, in order. -/
def itemsOf (answers : List (Option Sequence)) : List Sequence := answers.filterMap id

/-! ## Moves -/

/-- A call goes on with the search: no match waits, and the end is not reached. -/
structure Searching (scan : Scan data) : Prop where
  pending_eq : scan.pending = none
  done_eq : scan.done = false

/-- The window that a probe at a split looks for. -/
def windowAt (scan : Scan data) (split : Nat) : Window :=
  .before data scan.params.minChunk split

/-- The scan after a probe where `roll` is. -/
def probed (scan : Scan data) (roll : Roll data) (survey : Survey) (table : Table) : Scan data :=
  { scan with roll := roll.cut, table, stats := scan.stats.addSurvey survey }

/-- One move of a scan, with the windows it files and the answers it gives. -/
inductive Move (scan : Scan data) : List Window → List (Option Sequence) → Scan data → Prop
  /-- A byte is taken that ends no chunk. -/
  | byte {roll : Roll data} :
      scan.Searching → scan.roll.next? = some roll → scan.detector.splits roll = false →
      Move scan [] [] { scan with roll }
  /-- A split is probed and nothing found. -/
  | pass {roll : Roll data} {survey : Survey} {table : Table} :
      scan.Searching → scan.roll.advance scan.detector.splits = (roll, true) →
      scan.probeAt roll.position = .ok (survey, table) → survey.best = none →
      Move scan [scan.windowAt roll.position] [] (scan.probed roll survey table)
  /-- A split is probed, a match found, and its first item handed out. -/
  | found {roll : Roll data} {survey : Survey} {table : Table} {m : Match} {item : Sequence}
      {after : Scan data} :
      scan.Searching → scan.roll.advance scan.detector.splits = (roll, true) →
      scan.probeAt roll.position = .ok (survey, table) → survey.best = some m →
      (scan.probed roll survey table).emit m = .ok (item, after) →
      Move scan [scan.windowAt roll.position] [some item] after
  /-- No split is left. -/
  | ended {roll : Roll data} :
      scan.Searching → scan.roll.advance scan.detector.splits = (roll, false) →
      Move scan [] [({ scan with roll } : Scan data).finish.1]
        ({ scan with roll } : Scan data).finish.2
  /-- The match that waits is handed out. -/
  | hand {m : Match} :
      scan.pending = some m → Move scan [] [some (.copy m)] { scan with pending := none }
  /-- The end was reached before. -/
  | rest : scan.pending = none → scan.done = true → Move scan [] [none] scan

/-- Moves one after another, with all windows filed and all answers given. -/
inductive Run (scan : Scan data) : List Window → List (Option Sequence) → Scan data → Prop
  | refl : Run scan [] [] scan
  | tail {windows newWindows : List Window} {answers newAnswers : List (Option Sequence)}
      {mid after : Scan data} :
      Run scan windows answers mid → mid.Move newWindows newAnswers after →
      Run scan (windows ++ newWindows) (answers ++ newAnswers) after

/-- A moment of a scan: between two moves, or inside one just after a byte or just after a probe. -/
inductive Moment (scan : Scan data) : Scan data → Prop
  | reached {windows : List Window} {answers : List (Option Sequence)} {after : Scan data} :
      scan.Run windows answers after → Moment scan after
  | taken {windows : List Window} {answers : List (Option Sequence)} {mid : Scan data}
      {roll : Roll data} :
      scan.Run windows answers mid → mid.Searching → mid.roll.next? = some roll →
      Moment scan { mid with roll }
  | probed {windows : List Window} {answers : List (Option Sequence)} {mid : Scan data}
      {roll : Roll data} {survey : Survey} {table : Table} :
      scan.Run windows answers mid → mid.Searching →
      mid.roll.advance mid.detector.splits = (roll, true) →
      mid.probeAt roll.position = .ok (survey, table) →
      Moment scan (mid.probed roll survey table)

theorem Run.trans {scan mid after : Scan data} {windows newWindows : List Window}
    {answers newAnswers : List (Option Sequence)} (h : scan.Run windows answers mid)
    (h' : mid.Run newWindows newAnswers after) :
    scan.Run (windows ++ newWindows) (answers ++ newAnswers) after := by
  induction h' with
  | refl =>
    rw [List.append_nil, List.append_nil]
    exact h
  | tail _ hmove ih =>
    rw [← List.append_assoc, ← List.append_assoc]
    exact ih.tail hmove

variable {scan after : Scan data} {roll : Roll data} {survey : Survey} {table : Table}

theorem calls_succ {mid : Scan data} {count : Nat} {answers : List (Option Sequence)}
    {answer : Option Sequence} (hcalls : scan.calls count = .ok (answers, mid))
    (hnext : mid.next = .ok (answer, after)) :
    scan.calls (count + 1) = .ok (answers ++ [answer], after) := by
  simp only [calls, hcalls, Checked.ok_bind, hnext]
  rfl

/-! ## Steps and the search -/

theorem step_of_ended (hadvance : scan.roll.advance scan.detector.splits = (roll, false)) :
    scan.step = .ok (.ended, { scan with roll }) := by
  rw [step, hadvance]

theorem step_of_passed (hadvance : scan.roll.advance scan.detector.splits = (roll, true))
    (hprobe : scan.probeAt roll.position = .ok (survey, table)) (hbest : survey.best = none) :
    scan.step = .ok (.passed, scan.probed roll survey table) := by
  simp only [step, hadvance, hprobe, hbest]
  rfl

theorem step_of_found {m : Match}
    (hadvance : scan.roll.advance scan.detector.splits = (roll, true))
    (hprobe : scan.probeAt roll.position = .ok (survey, table)) (hbest : survey.best = some m) :
    scan.step = .ok (.found m, scan.probed roll survey table) := by
  simp only [step, hadvance, hprobe, hbest]
  rfl

/-- A step comes to the end, or it probes a split and finds a match there or none. -/
theorem step_cases {event : Event} (h : scan.step = .ok (event, after)) :
    (event = .ended ∧ ∃ roll, scan.roll.advance scan.detector.splits = (roll, false) ∧
        after = { scan with roll }) ∨
      ∃ roll survey table, scan.roll.advance scan.detector.splits = (roll, true) ∧
        scan.probeAt roll.position = .ok (survey, table) ∧ after = scan.probed roll survey table ∧
          ((event = .passed ∧ survey.best = none) ∨
            ∃ m, event = .found m ∧ survey.best = some m) := by
  unfold step at h
  split at h
  · next roll hadvance =>
    cases h
    exact Or.inl ⟨rfl, roll, hadvance, rfl⟩
  · next roll hadvance =>
    split at h
    · cases h
    · next survey table hprobe =>
      obtain ⟨rfl, rfl⟩ := Prod.mk.inj (Except.ok.inj h)
      refine Or.inr ⟨roll, survey, table, hadvance, hprobe, rfl, ?_⟩
      cases survey.best with
      | none => exact Or.inl ⟨rfl, rfl⟩
      | some m => exact Or.inr ⟨m, rfl, rfl⟩

/-- The first step decides a search. -/
theorem search_eq (scan : Scan data) :
    scan.search =
      match scan.step with
      | .error fault => .error fault
      | .ok (.passed, after) => after.search
      | .ok (.found m, after) => .ok (some m, after)
      | .ok (.ended, after) => .ok (none, after) := by
  rw [search]
  split <;> simp_all

theorem search_of_passed (h : scan.step = .ok (.passed, after)) :
    scan.search = after.search := by
  rw [search_eq, h]

theorem search_of_found {m : Match} (h : scan.step = .ok (.found m, after)) :
    scan.search = .ok (some m, after) := by
  rw [search_eq, h]

theorem search_of_ended (h : scan.step = .ok (.ended, after)) :
    scan.search = .ok (none, after) := by
  rw [search_eq, h]

/-- A byte that ends no chunk is a part of the search. -/
theorem search_of_byte (hnext : scan.roll.next? = some roll)
    (hgo : scan.detector.splits roll = false) :
    scan.search = ({ scan with roll } : Scan data).search := by
  -- the first step of both searches rolls on to the same split
  have hstep : scan.step = ({ scan with roll } : Scan data).step := by
    simp only [step, Roll.advance_of_next? hnext hgo]
    rfl
  rw [search_eq, search_eq { scan with roll }, hstep]

theorem next_of_searching (h : scan.Searching) (hsearch : scan.search = after.search)
    (h' : after.Searching) : scan.next = after.next := by
  obtain ⟨hpending, hdone⟩ := h
  obtain ⟨hpending', hdone'⟩ := h'
  simp only [next, hpending, hdone, hpending', hdone', hsearch, Bool.false_eq_true, if_false]

/-! ## Moves are calls taken apart -/

/-- A move without an answer does not change the answer of the call under way. -/
theorem Move.next_eq_next {windows : List Window} (h : scan.Move windows [] after) :
    scan.next = after.next := by
  cases h with
  | byte hsearching hnext hgo =>
    exact next_of_searching hsearching (search_of_byte hnext hgo) ⟨hsearching.1, hsearching.2⟩
  | pass hsearching hadvance hprobe hbest =>
    have hsearch := search_of_passed (step_of_passed hadvance hprobe hbest)
    exact next_of_searching hsearching hsearch ⟨hsearching.1, hsearching.2⟩

/-- A move with an answer ends the call under way with that answer. -/
theorem Move.next_eq_ok {windows : List Window} {answer : Option Sequence}
    (h : scan.Move windows [answer] after) : scan.next = .ok (answer, after) := by
  cases h with
  | found hsearching hadvance hprobe hbest hemit =>
    have hsearch := search_of_found (step_of_found hadvance hprobe hbest)
    simp only [next, hsearching.pending_eq, hsearching.done_eq, hsearch, hemit]
    rfl
  | ended hsearching hadvance =>
    have hsearch := search_of_ended (step_of_ended hadvance)
    simp only [next, hsearching.pending_eq, hsearching.done_eq, hsearch]
    rfl
  | hand hpending => simp only [next, hpending]
  | rest hpending hdone =>
    simp only [next, hpending, hdone]
    rfl

/-- A move gives one answer at most. -/
theorem Move.answers_eq {windows : List Window} {answers : List (Option Sequence)}
    (h : scan.Move windows answers after) : answers = [] ∨ ∃ answer, answers = [answer] := by
  cases h with
  | byte _ _ _ => exact Or.inl rfl
  | pass _ _ _ _ => exact Or.inl rfl
  | found _ _ _ _ _ => exact Or.inr ⟨_, rfl⟩
  | ended _ _ => exact Or.inr ⟨_, rfl⟩
  | hand _ => exact Or.inr ⟨_, rfl⟩
  | rest _ _ => exact Or.inr ⟨_, rfl⟩

/-- A run is what calls do: as many of them give its answers, and where it stops inside a call, it
is on the way to the answer of that call. -/
theorem Run.calls_eq {windows : List Window} {answers : List (Option Sequence)}
    (h : scan.Run windows answers after) :
    ∃ mid, scan.calls answers.length = .ok (answers, mid) ∧ mid.next = after.next := by
  induction h with
  | refl => exact ⟨scan, rfl, rfl⟩
  | @tail _ _ answers newAnswers last after _ hmove ih =>
    obtain ⟨mid, hcalls, hnext⟩ := ih
    rcases hmove.answers_eq with rfl | ⟨answer, rfl⟩
    · -- the call goes on
      rw [List.append_nil]
      exact ⟨mid, hcalls, hnext.trans hmove.next_eq_next⟩
    · -- the call ends
      rw [List.length_append, List.length_singleton]
      exact ⟨after, calls_succ hcalls (hnext.trans hmove.next_eq_ok), rfl⟩

end LongMatch.Scan
