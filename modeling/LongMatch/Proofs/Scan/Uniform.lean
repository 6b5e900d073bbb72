import LongMatch.Proofs.Scan.Forward
import LongMatch.Proofs.Scan.Silent
/-!
# LongMatch.Proofs.Scan.Uniform: a run of one byte is one match

In a buffer of one byte all windows are alike, and a repeat that cannot be made longer reaches both
ends of the buffer (`Match.Maximal.of_uniform`). Where the first two splits are depends on the byte,
the rate and the length of the buffer: they may be natural, forced, or at the end of the buffer.
That there are two, with no chunk before them too short or too long, depends on the length alone
(`Roll.exists_split`). The first probe meets no entry and files its window: `Primed`. The second
meets that window and no other, so the match it finds lies as far back as the two splits are apart,
whatever the run is extended to (`Sound.distance_eq`). The result is `one_byte_is_one_match`.
-/

namespace LongMatch

/-! ## Buffers of one byte -/

namespace Buffer

/-- Every position holds this byte. -/
def Uniform (byte : UInt8) (data : Buffer) : Prop := ∀ i, i < data.size → data[i]? = some byte

variable {byte : UInt8} {data : Buffer}

theorem uniform_replicate (byte : UInt8) (size : Nat) : Uniform byte (.replicate size byte) := by
  intro i hi
  rw [Array.size_replicate] at hi
  rw [Array.getElem?_replicate, if_pos hi]

theorem Uniform.getElem?_eq (h : Uniform byte data) {i j : Nat} (hi : i < data.size)
    (hj : j < data.size) : data[i]? = data[j]? := (h i hi).trans (h j hj).symm

/-- Stretches of the same length have the same bytes. -/
theorem Uniform.extract_eq (h : Uniform byte data) {i j length : Nat}
    (hi : i + length ≤ data.size) (hj : j + length ≤ data.size) :
    data.extract i (i + length) = data.extract j (j + length) := by
  apply Array.ext_getElem?
  intro k
  rw [Array.getElem?_extract, Array.getElem?_extract]
  by_cases hk : k < length
  · rw [if_pos (by omega), if_pos (by omega)]
    exact h.getElem?_eq (by omega) (by omega)
  · rw [if_neg (by omega), if_neg (by omega)]

end Buffer

/-- In a buffer of one byte a repeat that cannot be made longer reaches both ends. -/
theorem Match.Maximal.of_uniform {byte : UInt8} {data : Buffer} {m : Match}
    (huniform : Buffer.Uniform byte data) (h : m.Maximal data 0) :
    m.source = 0 ∧ m.destination + m.length = data.size := by
  obtain ⟨⟨hlt, hstop, _⟩, _, hends, hbegins⟩ := h
  constructor
  · rcases Nat.eq_zero_or_pos m.source with hzero | hpos
    · exact hzero
    · have hsame : data[m.source - 1]? = data[m.destination - 1]? :=
        huniform.getElem?_eq (by omega) (by omega)
      rcases hbegins with hzero | hzero | hdiff
      · exact hzero
      · omega
      · exact absurd hsame hdiff
  · rcases Nat.eq_or_lt_of_le hstop with hend | hmore
    · exact hend
    · have hsame : data[m.source + m.length]? = data[m.destination + m.length]? :=
        huniform.getElem?_eq (by omega) hmore
      exact hends.resolve_right (absurd hsame)

/-! ## A table that holds one window -/

/-- A window filed in a table without entries leaves its entry there and no other. -/
theorem Table.record_of_no_entries {table : Table} {window : Window}
    (hsmall : 2 ^ table.bucketSizeLog ≤ 256) (hstorable : window.Storable)
    (hempty : ∀ key, table.entries key = []) :
    window.entry ∈ (table.record window).entries window.key ∧
      ∀ key entry, entry ∈ (table.record window).entries key → entry = window.entry := by
  have hrecord : table.record window = table.recordAll ([] ++ [window]) := rfl
  rw [hrecord]
  constructor
  · have hrecent : (table.shelved window.key []).length < 2 ^ table.bucketSizeLog :=
      Nat.two_pow_pos _
    exact entry_mem_entries hsmall hstorable hrecent
  · intro key entry hmem
    rcases of_mem_entries_recordAll hsmall hmem with ⟨filed, hfiled, _, rfl⟩ | hold
    · rw [List.mem_singleton.mp hfiled]
    · rw [hempty] at hold
      cases hold

namespace Scan

variable {data : Buffer} {history : Nat} {params : Params} {scan : Scan data}
  {roll : Roll data} {survey : Survey} {m : Match}

/-- A probe that meets no entry finds nothing. -/
theorem Sound.move_of_no_entries (h : scan.Sound history) (hs : scan.Searching)
    (hadvance : scan.roll.advance scan.detector.splits = (roll, true))
    (hempty : ∀ key, scan.table.entries key = []) :
    scan.Move [scan.windowAt roll.position] []
      (scan.probed roll .empty (scan.table.record (scan.windowAt roll.position))) := by
  have hsurvey : scan.surveyAt roll.position = .ok .empty := by
    rw [surveyAt, hempty]
    rfl
  have hroom := h.anchor_add_le hs hadvance
  exact .pass hs hadvance (h.probeAt_of_surveyAt hroom roll.position_le hsurvey) rfl

/-- Where all entries stand for one window, a match lies as far back as that window does. -/
theorem Sound.distance_eq (h : scan.Sound history) {split : Nat}
    (hroom : scan.anchor + scan.params.minChunk ≤ split) (hsplit : split ≤ data.size)
    {window : Window} (hstorable : window.Storable)
    (honly : ∀ entry, entry ∈ scan.table.entries (scan.windowAt split).key →
      entry = window.entry)
    (hsurvey : scan.surveyAt split = .ok survey) (hbest : survey.best = some m) :
    m.destination - m.source = split - scan.params.minMatchLength - window.start := by
  rcases Probe.best_foldlM_visit hsurvey hbest with hnone | ⟨entry, hmem, heligible, hextend⟩
  · cases hnone
  · obtain rfl := honly entry hmem
    have hoffset := hstorable.offset_entry
    obtain ⟨forward, backward, _, _, hsource, hdestination, hrun⟩ :=
      Probe.extend_eq (h.inRange_probeOf hroom hsplit) heligible
    -- both ends of the run went back by the same number of bytes
    cases hextend.symm.trans hrun
    have hdestination' : backward ≤ split - scan.params.minMatchLength := hdestination
    show split - scan.params.minMatchLength - backward - (window.entry.offset.toNat - backward) =
      split - scan.params.minMatchLength - window.start
    omega

/-! ## Two splits -/

/-- From an empty chunk the next split is past the least length and not past the greatest. -/
theorem Sound.exists_split (h : scan.Sound history) (hlength : scan.roll.length = 0)
    (hroom : scan.position + scan.params.minMatchLength ≤ data.size) :
    ∃ roll, scan.roll.advance scan.detector.splits = (roll, true) ∧
      scan.position + scan.params.minMatchLength ≤ roll.position ∧
      roll.position ≤ scan.position + scan.params.detector.maxChunk := by
  obtain ⟨hpos, hlimits⟩ := scan.params.detector_limits
  have hleast := h.valid.minMatchLength_pos
  have hmin : scan.params.detector.minChunk = scan.params.minMatchLength := rfl
  have hstart : scan.position = scan.roll.position := rfl
  obtain ⟨roll, hadvance, hle⟩ := scan.roll.exists_split hlimits (by omega) (by omega)
    (by omega)
  obtain ⟨count, _, hahead, hsplits⟩ := Roll.advance_eq_true hadvance
  have hlong := Detector.minChunk_le_of_splits hsplits
  have hposition := hahead.position_eq
  have hcount := hahead.length_eq
  rw [h.detector_eq]
  exact ⟨roll, hadvance, by omega, by omega⟩

/-- The scan has passed its first split, from an empty table and at the start of the buffer. -/
structure Primed (split : Nat) (scan : Scan data) : Prop where
  searching : scan.Searching
  anchor_eq : scan.anchor = 0
  length_eq : scan.roll.length = 0
  position_eq : scan.position = split
  filed : (scan.windowAt split).entry ∈ scan.table.entries (scan.windowAt split).key
  only : ∀ key entry, entry ∈ scan.table.entries key → entry = (scan.windowAt split).entry

/-- The first split is passed and its window filed. -/
theorem Sound.exists_primed (h : scan.Sound history) (hs : scan.Searching)
    (hanchor : scan.anchor = 0) (hlength : scan.roll.length = 0) (hposition : scan.position = 0)
    (hempty : ∀ key, scan.table.entries key = [])
    (hroom : scan.params.minMatchLength ≤ data.size) :
    ∃ split windows mid, scan.params.minMatchLength ≤ split ∧
      split ≤ scan.params.detector.maxChunk ∧ scan.Move windows [] mid ∧ mid.Primed split := by
  obtain ⟨roll, hadvance, hlow, hhigh⟩ := h.exists_split hlength (by omega)
  have hmove := h.move_of_no_entries hs hadvance hempty
  have hstorable : (scan.windowAt roll.position).Storable :=
    Window.storable_before h.size_lt roll.position_le
  obtain ⟨hfiled, honly⟩ :=
    Table.record_of_no_entries (h.sized.bucketSize_le h.valid) hstorable hempty
  exact ⟨roll.position, _, _, by omega, by omega, hmove,
    ⟨⟨hs.1, hs.2⟩, hanchor, rfl, rfl, hfiled, honly⟩⟩

/-- In a buffer of one byte a window is repeated before every later split within reach. -/
theorem repeated_of_uniform {byte : UInt8} (huniform : Buffer.Uniform byte data) {first split : Nat}
    (hroom : params.minMatchLength ≤ first) (hlt : first < split) (hsplit : split ≤ data.size)
    (hnear : split - first ≤ 2 ^ params.windowLog) :
    Repeated params data split (.before data params.minMatchLength first) := by
  have hstart : (Window.before data params.minMatchLength first).start =
      first - params.minMatchLength := rfl
  have hstop : split - params.minMatchLength + params.minMatchLength = split := by omega
  refine ⟨by omega, by omega, ?_⟩
  rw [hstart]
  calc data.extract (first - params.minMatchLength)
        (first - params.minMatchLength + params.minMatchLength)
      = data.extract (split - params.minMatchLength)
          (split - params.minMatchLength + params.minMatchLength) :=
        huniform.extract_eq (by omega) (by omega)
    _ = data.extract (split - params.minMatchLength) split := by rw [hstop]

/-- At the second split of a buffer of one byte the probe finds that the rest of the buffer repeats
its front, from as far back as the two splits are apart. -/
theorem Primed.exists_best {split : Nat} (h : scan.Primed split) (sound : scan.Sound history)
    {byte : UInt8} (huniform : Buffer.Uniform byte data)
    (hleast : scan.params.minMatchLength ≤ split)
    (hroom : split + scan.params.minMatchLength ≤ data.size)
    (hreach : scan.params.detector.maxChunk ≤ 2 ^ scan.params.windowLog) :
    ∃ roll survey table distance, scan.roll.advance scan.detector.splits = (roll, true) ∧
      scan.probeAt roll.position = .ok (survey, table) ∧
      scan.params.minMatchLength ≤ distance ∧ distance ≤ scan.params.detector.maxChunk ∧
      survey.best = some ⟨0, distance, data.size - distance⟩ := by
  obtain ⟨hs, hanchor, hlength, hposition, hfiled, honly⟩ := h
  obtain ⟨roll, hadvance, hlow, hhigh⟩ := sound.exists_split hlength (by omega)
  have hstop := roll.position_le
  have hpos := sound.valid.minMatchLength_pos
  have htaken : (scan.windowAt split).Taken data scan.params.minChunk :=
    ⟨split, hleast, by omega, rfl⟩
  -- the window of the first split is met
  have hrepeated : Repeated scan.params data roll.position (scan.windowAt split) :=
    repeated_of_uniform huniform hleast (by omega) hstop (by omega)
  obtain ⟨survey, table, m, hprobe, hbest, _⟩ :=
    sound.exists_probeAt_of_mem hs hadvance hrepeated htaken hfiled
  have hroom' := sound.anchor_add_le hs hadvance
  obtain ⟨survey', hsurvey, _⟩ := sound.exists_surveyAt hroom' hstop
  cases hprobe.symm.trans (sound.probeAt_of_surveyAt hroom' hstop hsurvey)
  have hdistance := sound.distance_eq hroom' hstop (htaken.storable sound.size_lt) (honly _)
    hsurvey hbest
  have hstart : (scan.windowAt split).start = split - scan.params.minMatchLength := rfl
  -- the match reaches both ends of the buffer
  obtain ⟨hfinds, _⟩ := sound.found_spec hs hadvance hprobe hbest
  have hmaximal : m.Maximal data 0 := hanchor ▸ hfinds.toMaximal
  obtain ⟨hsource, hend⟩ := hmaximal.of_uniform huniform
  have hm : m = ⟨0, m.destination, data.size - m.destination⟩ := by
    rw [← hsource, ← hend, Nat.add_sub_cancel_left]
  exact ⟨roll, survey, _, m.destination, hadvance, hprobe, by omega, by omega,
    hbest.trans (congrArg some hm)⟩

/-- The literals before that match are handed out, and the match waits. -/
theorem Primed.exists_found {split : Nat} (h : scan.Primed split) (sound : scan.Sound history)
    {byte : UInt8} (huniform : Buffer.Uniform byte data)
    (hleast : scan.params.minMatchLength ≤ split)
    (hroom : split + scan.params.minMatchLength ≤ data.size)
    (hreach : scan.params.detector.maxChunk ≤ 2 ^ scan.params.windowLog) :
    ∃ distance windows after, scan.params.minMatchLength ≤ distance ∧
      distance ≤ scan.params.detector.maxChunk ∧
      scan.Move windows [some (.literals ⟨0, distance⟩)] after ∧
      after.pending = some ⟨0, distance, data.size - distance⟩ ∧
      after.anchor = data.size ∧ after.position = data.size ∧ after.done = false := by
  obtain ⟨roll, survey, table, distance, hadvance, hprobe, hlow, hhigh, hbest⟩ :=
    h.exists_best sound huniform hleast hroom hreach
  have hs := h.searching
  have hanchor := h.anchor_eq
  have hpos := sound.valid.minMatchLength_pos
  obtain ⟨_, _, hstop, hcases⟩ := sound.found_spec hs hadvance hprobe hbest
  have hend : distance + (data.size - distance) = data.size := by
    have hstop' : distance + (data.size - distance) ≤ data.size := hstop
    omega
  rcases hcases with ⟨hnone, _⟩ | ⟨_, hemit⟩
  · have hnone' : distance = scan.anchor := hnone
    omega
  · rw [hanchor] at hemit
    exact ⟨distance, _, _, hlow, hhigh, .found hs hadvance hprobe hbest hemit, rfl, hend, hend,
      hs.done_eq⟩

/-! ## The end -/

/-- A scan that stands at the end with nothing to hand out is over. -/
theorem exists_next_of_end (scan : Scan data) (hs : scan.Searching)
    (hanchor : scan.anchor = data.size) (hposition : scan.position = data.size) :
    ∃ after, scan.next = .ok (none, after) := by
  have hatEnd : scan.roll.atEnd = true := Cursor.atEnd_iff.mpr hposition
  have hmove : scan.Move [] [scan.finish.1] scan.finish.2 :=
    .ended hs (Roll.advance_of_none (Roll.next?_of_atEnd hatEnd))
  rcases finish_cases scan with ⟨hlt, _⟩ | ⟨_, hfinish⟩
  · omega
  · rw [hfinish] at hmove
    exact ⟨_, hmove.next_eq_ok⟩

/-- From the start of a buffer of one byte and without entries, the items are two. -/
theorem Sound.exists_collect_uniform (h : scan.Sound history) (hs : scan.Searching)
    (hanchor : scan.anchor = 0) (hlength : scan.roll.length = 0) (hposition : scan.position = 0)
    (hempty : ∀ key, scan.table.entries key = []) {byte : UInt8}
    (huniform : Buffer.Uniform byte data)
    (hreach : scan.params.detector.maxChunk ≤ 2 ^ scan.params.windowLog)
    (hroom : scan.params.detector.maxChunk + scan.params.minMatchLength ≤ data.size) :
    ∃ distance after, scan.params.minMatchLength ≤ distance ∧
      distance ≤ scan.params.detector.maxChunk ∧
      scan.collect = .ok (#[.literals ⟨0, distance⟩, .copy ⟨0, distance, data.size - distance⟩],
        after) := by
  obtain ⟨split, _, mid, hlow, hhigh, hfirst, hprimed⟩ :=
    h.exists_primed hs hanchor hlength hposition hempty (by omega)
  have hparams : mid.params = scan.params := (h.frame_of_move hfirst).1
  have hpos := h.valid.minMatchLength_pos
  rw [← hparams] at hpos hlow hhigh hreach hroom ⊢
  obtain ⟨distance, _, found, hleast, hgreatest, hsecond, hpending, hend, hat, hdone⟩ :=
    hprimed.exists_found (h.move hfirst) huniform hlow (by omega) hreach
  have hnext : scan.next = .ok (some (.literals ⟨0, distance⟩), found) :=
    hfirst.next_eq_next.trans hsecond.next_eq_ok
  have hhand : found.next =
      .ok (some (.copy ⟨0, distance, data.size - distance⟩), { found with pending := none }) :=
    (Move.hand hpending).next_eq_ok
  obtain ⟨after, hover⟩ := exists_next_of_end { found with pending := none } ⟨rfl, hdone⟩ hend hat
  refine ⟨distance, after, hleast, hgreatest, ?_⟩
  obtain ⟨count, hcount⟩ : ∃ count, data.size = count + 2 := ⟨data.size - 2, by omega⟩
  have hcalls : scan.collect = scan.runInto #[] (count + 2 + 1) :=
    congrArg (fun size => scan.runInto #[] (size + 1)) hcount
  rw [hcalls, runInto_of_some hnext, runInto_of_some hhand, runInto_of_none hover]
  rfl

/-- **A run of one byte is one match.** For all valid settings whose greatest chunk is within reach,
every byte and every length that has room for a greatest chunk and a shortest match, the description
of that many copies of the byte is a prefix of literals, no shorter than the shortest match and no
longer than the greatest chunk, and one match that repeats the buffer from its start on, over
itself, up to the end. -/
theorem one_byte_is_one_match (params : Params) (hvalid : params.validate = .ok ()) :
    ∃ greatest reach, params.maxChunk = .ok greatest ∧ params.maxDistance = .ok reach ∧
      (greatest ≤ reach → ∀ (byte : UInt8) (size : Nat),
        greatest + params.minMatchLength ≤ size → size < sizeBound →
        ∃ distance, params.minMatchLength ≤ distance ∧ distance ≤ greatest ∧
          describe params (.replicate size byte) =
            .ok (.ok #[.literals ⟨0, distance⟩, .copy ⟨0, distance, size - distance⟩])) := by
  have valid := Params.validate_eq_ok_iff.mp hvalid
  refine ⟨params.detector.maxChunk, _, valid.maxChunk_eq, valid.maxDistance_eq, ?_⟩
  intro hreach byte size hroom hsize
  have hcopies : (Array.replicate size byte).size = size := Array.size_replicate
  obtain ⟨fresh, hfresh, _⟩ := Table.exists_ofParams valid
  obtain ⟨base, hbase, hstart, sound⟩ := @start_eq_running (.replicate size byte) params 0 fresh
    valid (Nat.zero_le _) (hcopies.trans_lt hsize)
  rw [historyWindows_zero] at hstart sound
  have hempty : ∀ key, base.entries key = [] :=
    entries_of_blank (Or.inl (entries_fresh hfresh)) valid hbase
  obtain ⟨distance, after, hleast, hgreatest, hcollect⟩ := sound.exists_collect_uniform ⟨rfl, rfl⟩
    rfl rfl rfl hempty (Buffer.uniform_replicate byte size) hreach
    (hroom.trans_eq hcopies.symm)
  have hitems : describe params (.replicate size byte) =
      .ok (.ok #[.literals ⟨0, distance⟩,
        .copy ⟨0, distance, (Array.replicate size byte).size - distance⟩]) := by
    simp only [describe, hvalid, hfresh, Checked.ok_bind, hstart, hcollect]
    rfl
  rw [hcopies] at hitems
  exact ⟨distance, hleast, hgreatest, hitems⟩

/-! ### A forced split and the end of the buffer

The first chunk is cut at the greatest length, the second ends with the buffer at the least one. The
two splits are four bytes apart, and so the match begins after four. -/

def forcedParams : Params := ⟨10, 6, 4, 2, 0⟩

theorem forced_run_is_one_match :
    forcedParams.validate = .ok () ∧ forcedParams.maxChunk = .ok 32 ∧
      forcedParams.maxDistance = .ok 1024 ∧ 36 < sizeBound ∧
      forcedParams.detector.chunkEnds (.replicate 36 1) = #[32, 36] ∧
      ∃ distance, 4 ≤ distance ∧ distance ≤ 32 ∧ distance = 4 ∧
        describe forcedParams (.replicate 36 1) =
          .ok (.ok #[.literals ⟨0, distance⟩, .copy ⟨0, distance, 36 - distance⟩]) := by
  have hvalid : forcedParams.validate = .ok () := by decide
  have hmax : forcedParams.maxChunk = .ok 32 := rfl
  have hfar : forcedParams.maxDistance = .ok 1024 := rfl
  have hsize : 36 < sizeBound := by decide
  have hends : forcedParams.detector.chunkEnds (.replicate 36 1) = #[32, 36] := by decide +kernel
  obtain ⟨greatest, reach, hgreatest, hreach, hmatch⟩ := one_byte_is_one_match forcedParams hvalid
  obtain rfl : greatest = 32 := Except.ok.inj (hgreatest.symm.trans hmax)
  obtain rfl : reach = 1024 := Except.ok.inj (hreach.symm.trans hfar)
  obtain ⟨distance, hlow, hhigh, hitems⟩ := hmatch (by decide) 1 36 (by decide) hsize
  have hdescription : describe forcedParams (.replicate 36 1) =
      .ok (.ok #[.literals ⟨0, 4⟩, .copy ⟨0, 4, 32⟩]) := by decide +kernel
  have hdistance : distance = 4 := by
    cases hitems.symm.trans hdescription
    rfl
  exact ⟨hvalid, hmax, hfar, hsize, hends, distance, hlow, hhigh, hdistance, hitems⟩

end Scan

end LongMatch
