import GopherMcp.Http.SseParser
import GopherMcp.Lib.Runs

/-!
# Chunks of an event stream

A parser is meant not to see where its stream was cut. It does see two cuts: one between a carriage
return and its line feed, where the line feed is read as a line of its own and ends an event too
early, and one around a byte order mark, which is looked for only at the front of the first three or
more bytes given at once. Away from these, any cutting gives what the whole stream gives.
-/

namespace GopherMcp

namespace SseParser

variable {p : SseParser} {s c : Bytes}

/-! ### One cut -/

/-- The stream is cut between a carriage return and a line feed. -/
def SplitsCrlf (before chunk : Bytes) : Prop :=
  before.getLast? = some kCR ∧ chunk.head? = some kLF

instance (before chunk : Bytes) : Decidable (SplitsCrlf before chunk) :=
  inferInstanceAs (Decidable (_ ∧ _))

theorem not_splitsCrlf_nil : ¬ SplitsCrlf [] c := by simp [SplitsCrlf]

theorem splitsCrlf_cons {ch : UInt8} (hs : s ≠ []) :
    SplitsCrlf (ch :: s) c ↔ SplitsCrlf s c := by
  rw [SplitsCrlf, SplitsCrlf, List.getLast?_cons_of_ne_nil hs]

theorem splitsCrlf_crlf (rest : Bytes) : SplitsCrlf (kCR :: kLF :: rest) c ↔ SplitsCrlf rest c := by
  rw [splitsCrlf_cons (List.cons_ne_nil _ _)]
  cases rest with
  | nil => simp [SplitsCrlf, kCR, kLF]
  | cons next rest => exact splitsCrlf_cons (List.cons_ne_nil _ _)

/-- Reading a line feed first ends the line there is. -/
theorem parseBytes_lf (p : SseParser) (rest : Bytes) :
    p.parseBytes (kLF :: rest) = p.endLine.parseBytes rest := by
  cases rest <;> simp [parseBytes, kLF, kCR]

/-- Reading a carriage return first ends the line there is. -/
theorem parseBytes_cr (p : SseParser) (rest : Bytes) :
    p.parseBytes (kCR :: rest) =
      if rest.head? = some kLF then p.endLine.parseBytes rest.tail else p.endLine.parseBytes rest := by
  cases rest with
  | nil => simp [parseBytes]
  | cons next rest => simp [parseBytes]

/-- Reading a byte that ends no line keeps it. -/
theorem parseBytes_text (p : SseParser) {ch : UInt8} (rest : Bytes) (hcr : ch ≠ kCR)
    (hlf : ch ≠ kLF) :
    p.parseBytes (ch :: rest) = { p with lineBuffer := p.lineBuffer ++ [ch] }.parseBytes rest := by
  cases rest <;> simp [parseBytes, hcr, hlf]

/-- **A cut is seen only inside a line ending**: there the whole stream skips the line feed. -/
theorem parseBytes_append (p : SseParser) (s c : Bytes) :
    p.parseBytes (s ++ c) =
      if SplitsCrlf s c then (p.parseBytes s).parseBytes c.tail else (p.parseBytes s).parseBytes c := by
  induction hn : s.length using Nat.strong_induction_on generalizing p s with
  | _ n ih =>
      subst hn
      cases s with
      | nil => simp [not_splitsCrlf_nil, parseBytes]
      | cons ch s =>
          by_cases hcr : ch = kCR
          · subst hcr
            rw [List.cons_append, parseBytes_cr, parseBytes_cr]
            cases s with
            | nil => simp [SplitsCrlf, parseBytes]
            | cons next rest =>
                by_cases hnext : next = kLF
                · subst hnext
                  simp only [List.cons_append, List.head?_cons, if_true, List.tail_cons,
                    splitsCrlf_crlf]
                  exact ih rest.length (by simp) _ rest rfl
                · have hhead : (next :: rest).head? ≠ some kLF := by simpa using hnext
                  rw [if_neg (by simpa using hnext), if_neg hhead]
                  simp only [splitsCrlf_cons (List.cons_ne_nil next rest)]
                  exact ih (next :: rest).length (by simp) _ (next :: rest) rfl
          · by_cases hlf : ch = kLF
            · subst hlf
              rw [List.cons_append, parseBytes_lf, parseBytes_lf,
                ih s.length (by simp) _ s rfl]
              cases s with
              | nil => simp [SplitsCrlf, kLF, kCR]
              | cons next rest => simp only [splitsCrlf_cons (List.cons_ne_nil _ _)]
            · rw [List.cons_append, parseBytes_text _ _ hcr hlf, parseBytes_text _ _ hcr hlf,
                ih s.length (by simp) _ s rfl]
              cases s with
              | nil => simp [SplitsCrlf, hcr]
              | cons next rest => simp only [splitsCrlf_cons (List.cons_ne_nil _ _)]

/-! ### What a parser does not look at -/

/-- The line buffer is empty once a line has ended. -/
theorem lineBuffer_parseBytes (hs : s.getLast? = some kCR) : (p.parseBytes s).lineBuffer = [] := by
  obtain ⟨front, rfl⟩ : ∃ front, s = front ++ [kCR] := by
    obtain ⟨front, hfront⟩ := List.getLast?_eq_some_iff.mp hs
    exact ⟨front, hfront⟩
  rw [parseBytes_append, if_neg (by simp [SplitsCrlf, kCR, kLF])]
  simp [parseBytes, endLine]

/-- A line feed read as a line of its own changes nothing where no event is pending. -/
theorem endLine_eq_self (hline : p.lineBuffer = []) (hcontent : p.currentEvent.hasContent = false) :
    p.endLine = p := by
  obtain ⟨lineBuffer, currentEvent, lastEventId, retryTime, bomChecked, callbacks⟩ := p
  simp only at hline hcontent
  subst hline
  simp [endLine, processLine, hcontent]

/-- The parser with its note on the byte order mark set. -/
def withBomChecked (p : SseParser) (checked : Bool) : SseParser := { p with bomChecked := checked }

theorem processField_withBomChecked (p : SseParser) (checked : Bool) (name value : Bytes) :
    (p.withBomChecked checked).processField name value =
      (p.processField name value).withBomChecked checked := by
  by_cases hdata : name = ascii "data"
  · simp only [processField, if_pos hdata]
    rfl
  by_cases hevent : name = ascii "event"
  · simp only [processField, if_neg hdata, if_pos hevent]
    rfl
  by_cases hid : name = ascii "id"
  · simp only [processField, if_neg hdata, if_neg hevent, if_pos hid]
    rfl
  by_cases hretry : name = ascii "retry"
  · simp only [processField, if_neg hdata, if_neg hevent, if_neg hid, if_pos hretry]
    cases retryValue value <;> rfl
  · simp only [processField, if_neg hdata, if_neg hevent, if_neg hid, if_neg hretry]

theorem dispatchEvent_withBomChecked (p : SseParser) (checked : Bool) :
    (p.withBomChecked checked).dispatchEvent = p.dispatchEvent.withBomChecked checked := by
  unfold dispatchEvent withBomChecked
  cases p.currentEvent.hasDataField <;> rfl

theorem endLine_withBomChecked (p : SseParser) (checked : Bool) :
    (p.withBomChecked checked).endLine = p.endLine.withBomChecked checked := by
  suffices h : ∀ line, (p.withBomChecked checked).processLine line =
      (p.processLine line).withBomChecked checked by
    rw [endLine, h]
    rfl
  intro line
  cases line with
  | nil =>
      have hevent : (p.withBomChecked checked).currentEvent = p.currentEvent := rfl
      rw [processLine, processLine, dispatchEvent_withBomChecked, hevent]
      split_ifs <;> rfl
  | cons first rest =>
      simp only [processLine]
      split_ifs
      · rfl
      · split <;> exact processField_withBomChecked p checked _ _

/-- The loop neither reads nor writes the note on the byte order mark. -/
theorem parseBytes_withBomChecked (p : SseParser) (checked : Bool) (s : Bytes) :
    (p.withBomChecked checked).parseBytes s = (p.parseBytes s).withBomChecked checked := by
  induction s using List.reverseRecOn with
  | nil => rfl
  | append_singleton s ch ih =>
      rw [parseBytes_append, parseBytes_append, ih]
      split_ifs
      · rfl
      · by_cases hcr : ch = kCR
        · simp [parseBytes, hcr, endLine_withBomChecked]
        · by_cases hlf : ch = kLF
          · simp [parseBytes, hlf, endLine_withBomChecked]
          · simp [parseBytes, hcr, hlf, withBomChecked]

/-! ### The byte order mark -/

/-- The bytes the loop gets of a stream given whole. -/
def skipMark (s : Bytes) : Bytes := if byteOrderMark.isPrefixOf s then s.drop 3 else s

theorem three_le_of_isPrefixOf (hmark : byteOrderMark.isPrefixOf s) : 3 ≤ s.length :=
  (List.isPrefixOf_iff_prefix.mp hmark).length_le

theorem withBomChecked_self (p : SseParser) : p.withBomChecked p.bomChecked = p := rfl

theorem bomChecked_parseBytes (p : SseParser) (s : Bytes) :
    (p.parseBytes s).bomChecked = p.bomChecked := by
  have h := parseBytes_withBomChecked p p.bomChecked s
  rw [withBomChecked_self] at h
  rw [h]
  rfl

/-- A call of `parse` is the loop over what is left once the mark is skipped. -/
theorem parse_eq (p : SseParser) (s : Bytes) :
    p.parse s =
      (p.parseBytes (if p.bomChecked then s else skipMark s)).withBomChecked
        (p.bomChecked || decide (3 ≤ s.length)) := by
  have hset : { p with bomChecked := true } = p.withBomChecked true := rfl
  rw [parse, hset]
  cases hchecked : p.bomChecked with
  | true =>
      have hkeep := bomChecked_parseBytes p s
      rw [hchecked] at hkeep
      simpa using (hkeep ▸ withBomChecked_self (p.parseBytes s)).symm
  | false =>
      by_cases hlength : 3 ≤ s.length
      · simp [hlength, skipMark, parseBytes_withBomChecked]
      · have hmark : ¬ byteOrderMark.isPrefixOf s := fun h => hlength (three_le_of_isPrefixOf h)
        have hkeep := bomChecked_parseBytes p s
        rw [hchecked] at hkeep
        simpa [hlength, skipMark, hmark] using (hkeep ▸ withBomChecked_self (p.parseBytes s)).symm

theorem skipMark_append (hlong : s.length < 3 → ¬ byteOrderMark.isPrefixOf (s ++ c)) :
    skipMark (s ++ c) = skipMark s ++ c := by
  by_cases hmark : byteOrderMark.isPrefixOf s
  · have happend : byteOrderMark.isPrefixOf (s ++ c) :=
      List.isPrefixOf_iff_prefix.mpr
        ((List.isPrefixOf_iff_prefix.mp hmark).trans (List.prefix_append s c))
    rw [skipMark, if_pos happend, skipMark, if_pos hmark,
      List.drop_append_of_le_length (three_le_of_isPrefixOf hmark)]
  · have happend : ¬ byteOrderMark.isPrefixOf (s ++ c) := by
      intro h
      by_cases hlength : s.length < 3
      · exact hlong hlength h
      · refine hmark (List.isPrefixOf_iff_prefix.mpr ?_)
        exact List.prefix_of_prefix_length_le (List.isPrefixOf_iff_prefix.mp h)
          (List.prefix_append s c) (not_lt.mp hlength)
    rw [skipMark, if_neg happend, skipMark, if_neg hmark]

/-! ### Runs of chunks -/

/-- What the parser has been given, beside the parser. -/
def feed (state : SseParser × Bytes) (chunk : Bytes) : SseParser × Bytes :=
  (state.1.parse chunk, state.2 ++ chunk)

/-- A chunk the parser cannot tell from more of the same stream. It does not start with the line feed
of a carriage return that ended the last chunk, unless no event is pending; and no byte order mark
starts it, or is split over its start, once the stream has begun and none has been looked for. -/
structure CutClear (state : SseParser × Bytes) (chunk : Bytes) : Prop where
  crlf : SplitsCrlf state.2 chunk → state.1.currentEvent.hasContent = false
  lateMark : state.2 ≠ [] → state.1.bomChecked = false → ¬ byteOrderMark.isPrefixOf chunk
  splitMark : state.2 ≠ [] → state.2.length < 3 → ¬ byteOrderMark.isPrefixOf (state.2 ++ chunk)

instance (state : SseParser × Bytes) (chunk : Bytes) : Decidable (CutClear state chunk) :=
  decidable_of_iff (_ ∧ _ ∧ _)
    ⟨fun ⟨crlf, lateMark, splitMark⟩ => ⟨crlf, lateMark, splitMark⟩,
      fun h => ⟨h.crlf, h.lateMark, h.splitMark⟩⟩

/-- The parser stands where the whole of what it has been given would put it. -/
structure InStep (state : SseParser × Bytes) : Prop where
  stands : state.1.withBomChecked false = fresh.parseBytes (skipMark state.2)
  unread : state.2 = [] → state.1.bomChecked = false

theorem inStep_fresh : InStep (fresh, []) := ⟨rfl, fun _ => rfl⟩

theorem outcome_withBomChecked (p : SseParser) (checked : Bool) :
    (p.withBomChecked checked).outcome = p.outcome := rfl

theorem InStep.outcome_eq {state : SseParser × Bytes} (h : InStep state) :
    state.1.outcome = (fresh.parse state.2).outcome := by
  rw [parse_eq, outcome_withBomChecked, ← outcome_withBomChecked state.1 false, h.stands]
  rfl

/-- Reading more of a stream after a clear cut is reading it in one go. -/
theorem parseBytes_of_clear (p : SseParser) (s c : Bytes)
    (hcrlf : SplitsCrlf s c → (p.parseBytes s).currentEvent.hasContent = false) :
    p.parseBytes (s ++ c) = (p.parseBytes s).parseBytes c := by
  rw [parseBytes_append]
  split_ifs with hsplit
  · obtain ⟨hcr, hlf⟩ := hsplit
    cases c with
    | nil => simp at hlf
    | cons first rest =>
        obtain rfl : first = kLF := by simpa using hlf
        rw [parseBytes_lf, endLine_eq_self (lineBuffer_parseBytes hcr) (hcrlf ⟨hcr, hlf⟩),
          List.tail_cons]
  · rfl

theorem getLast?_of_skipMark {b : UInt8} (h : (skipMark s).getLast? = some b) :
    s.getLast? = some b := by
  rw [skipMark] at h
  split_ifs at h with hmark
  · obtain ⟨front, hfront⟩ := List.getLast?_eq_some_iff.mp h
    rw [← List.take_append_drop 3 s, hfront, ← List.append_assoc]
    exact List.getLast?_concat
  · exact h

/-- **A clear cut keeps the parser in step.** -/
theorem inStep_feed {state : SseParser × Bytes} {chunk : Bytes} (h : InStep state)
    (hclear : CutClear state chunk) : InStep (feed state chunk) := by
  obtain ⟨p, before⟩ := state
  refine ⟨?_, fun hempty => ?_⟩
  · simp only [feed]
    rw [parse_eq]
    change ((p.parseBytes _).withBomChecked false) = _
    rw [← parseBytes_withBomChecked, h.stands]
    by_cases hbefore : before = []
    · subst hbefore
      have hunread : p.bomChecked = false := h.unread rfl
      simp [hunread, skipMark, parseBytes, byteOrderMark]
    · have hpart : (if p.bomChecked then chunk else skipMark chunk) = chunk := by
        split_ifs with hchecked
        · rfl
        · exact if_neg (hclear.lateMark hbefore (by simpa using hchecked))
      rw [hpart, skipMark_append fun hlength => hclear.splitMark hbefore hlength]
      refine (parseBytes_of_clear _ _ _ fun hsplit => ?_).symm
      rw [← h.stands]
      exact hclear.crlf ⟨getLast?_of_skipMark hsplit.1, hsplit.2⟩
  · obtain ⟨hbefore, hchunk⟩ := List.append_eq_nil_iff.mp hempty
    subst hchunk
    have hunread : p.bomChecked = false := h.unread hbefore
    simp [feed, parse_eq, withBomChecked, hunread]

theorem run_feed (p : SseParser) (before : Bytes) (chunks : List Bytes) :
    Runs.run feed (p, before) chunks = (p.parseChunks chunks, before ++ chunks.flatten) := by
  induction chunks generalizing p before with
  | nil => simp [parseChunks]
  | cons chunk chunks ih => simp [feed, ih, parseChunks]

theorem inStep_run {chunks : List Bytes}
    (hclear : Runs.Guarded feed CutClear (fresh, []) chunks) :
    InStep (fresh.parseChunks chunks, chunks.flatten) := by
  have hrun := Runs.invariant feed (fun _ _ hclear h => inStep_feed h hclear) inStep_fresh hclear
  simpa [run_feed] using hrun

/-- **Clear cuts are not seen.** A stream cut only where the parser cannot tell gives, after every
chunk, what the bytes so far give in one call. -/
theorem outcome_parseChunks {chunks : List Bytes}
    (hclear : Runs.Guarded feed CutClear (fresh, []) chunks) (count : Nat) :
    (fresh.parseChunks (chunks.take count)).outcome =
      (fresh.parse (chunks.take count).flatten).outcome := by
  rw [← List.take_append_drop count chunks] at hclear
  exact (inStep_run ((Runs.guarded_append feed).mp hclear).1).outcome_eq

/-- A line feed alone in a chunk of its own is not seen as one of these cuts. -/
theorem outcome_parseChunks_event :
    (fresh.parseChunks [ascii "data: x", [kCR, kLF], [], [kCR], [kLF]]).outcome =
      (fresh.parse (ascii "data: x" ++ [kCR, kLF, kCR, kLF])).outcome :=
  @outcome_parseChunks [ascii "data: x", [kCR, kLF], [], [kCR], [kLF]] (by decide) 5

theorem getLast?_skipMark {b : UInt8} (hb : byteOrderMark.getLast? ≠ some b)
    (hlast : s.getLast? = some b) : (skipMark s).getLast? = some b := by
  rw [skipMark]
  split_ifs with hmark
  · have hne : s.length ≠ 3 := by
      intro hlength
      obtain ⟨rest, hrest⟩ := List.isPrefixOf_iff_prefix.mp hmark
      have hnil : rest = [] := by
        rw [← hrest, List.length_append] at hlength
        exact List.eq_nil_of_length_eq_zero (by simpa [byteOrderMark] using hlength)
      rw [← hrest, hnil, List.append_nil] at hlast
      exact hb hlast
    have hlong := three_le_of_isPrefixOf hmark
    rw [List.getLast?_drop, if_neg (by omega)]
    exact hlast
  · exact hlast

theorem hasContent_endLine (hline : p.lineBuffer = []) :
    p.endLine.currentEvent.hasContent = false := by
  cases hcontent : p.currentEvent.hasContent with
  | false => rw [endLine_eq_self hline hcontent, hcontent]
  | true =>
      rw [endLine, hline, processLine, if_pos hcontent, dispatchEvent]
      rfl

/-- The cut inside a line ending is seen wherever an event is pending: the parser ends the event, and
the whole stream does not. -/
theorem outcome_ne_of_splitsCrlf {chunks : List Bytes}
    (hclear : Runs.Guarded feed CutClear (fresh, []) chunks)
    (hcr : chunks.flatten.getLast? = some kCR)
    (hpending : (fresh.parseChunks chunks).currentEvent.hasContent = true) :
    (fresh.parseChunks (chunks ++ [[kLF]])).outcome ≠
      (fresh.parse (chunks ++ [[kLF]]).flatten).outcome := by
  have hstep := inStep_run hclear
  have hstands : (fresh.parseChunks chunks).withBomChecked false =
      fresh.parseBytes (skipMark chunks.flatten) := hstep.stands
  have hsplit : SplitsCrlf (skipMark chunks.flatten) [kLF] :=
    ⟨getLast?_skipMark (by decide) hcr, rfl⟩
  have hwhole : skipMark (chunks ++ [[kLF]]).flatten = skipMark chunks.flatten ++ [kLF] := by
    rw [List.flatten_append, List.flatten_singleton]
    refine skipMark_append fun hshort hmark => ?_
    have heq : byteOrderMark = chunks.flatten ++ [kLF] :=
      (List.isPrefixOf_iff_prefix.mp hmark).eq_of_length_le
        (by simp only [List.length_append, byteOrderMark, List.length_cons,
              List.length_nil]; omega)
    have hlast := congrArg List.getLast? heq
    rw [List.getLast?_concat] at hlast
    exact absurd hlast (by decide)
  have hcut : (fresh.parseChunks (chunks ++ [[kLF]])).currentEvent.hasContent = false := by
    rw [parseChunks, List.foldl_append, List.foldl_cons, List.foldl_nil, ← parseChunks, parse_eq]
    have hmark : skipMark [kLF] = [kLF] := by decide
    rw [hmark, ite_self, parseBytes_lf]
    refine hasContent_endLine ?_
    have hline := lineBuffer_parseBytes (p := fresh) hsplit.1
    rwa [← hstands] at hline
  have hkept : (fresh.parse (chunks ++ [[kLF]]).flatten).currentEvent.hasContent = true := by
    rw [parse_eq]
    simp only [fresh, Bool.false_eq_true, if_false]
    rw [hwhole, parseBytes_append, if_pos hsplit]
    change ((fresh.parseBytes (skipMark chunks.flatten)).currentEvent).hasContent = true
    rw [← hstands]
    exact hpending
  intro hsame
  have hevent := congrArg (fun outcome => outcome.2.2.1.hasContent) hsame
  simp only [outcome] at hevent
  rw [hcut, hkept] at hevent
  exact absurd hevent (by decide)

/-- The line feed of a line ending ends an event too early. -/
theorem outcome_split_crlf :
    ¬ ∀ chunks, (fresh.parseChunks chunks).outcome = (fresh.parse chunks.flatten).outcome := by
  intro h
  exact absurd (h [ascii "data: x" ++ [kCR], [kLF]]) (by decide)

end SseParser

end GopherMcp
