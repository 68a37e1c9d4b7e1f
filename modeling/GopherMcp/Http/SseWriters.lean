import GopherMcp.Http.SseRoundTrip

/-!
# The codec's own writers

The codec filter and its state machine write events themselves, each in its own way: the filter takes what it
is given for one line, and the state machine splits the data as the formatter does.
-/

namespace GopherMcp

/-- What the state machine formats. -/
structure SseEventData where
  id : Option Bytes
  event : Option Bytes
  data : Bytes
  retry : Option UInt32

namespace SseCodecStateMachine

def formatEvent (eventData : SseEventData) : Bytes :=
  (match eventData.id with
    | some id => formatLine (ascii "id") id
    | none => []) ++
    (match eventData.event with
      | some event => formatLine (ascii "event") event
      | none => []) ++
    (match eventData.retry with
      | some retry => formatLine (ascii "retry") (toDecimal retry.toNat)
      | none => []) ++
    (getlines eventData.data).flatMap (formatLine (ascii "data")) ++ [kLF]

end SseCodecStateMachine

namespace SseCodecFilter

/-- What comes out of the filter in place of the data. -/
def onWrite (isServer : Bool) (data : Bytes) : Bytes :=
  if isServer && 0 < data.length then ascii "event: message\n" ++ (ascii "data: " ++ data ++ ascii "\n\n")
  else data

end SseCodecFilter

namespace SseParser

variable {payload : Bytes}

/-- An event of the name the filter gives, as the parser dispatches it. -/
def message (data : Bytes) : SseCallback := .onSseEvent ⟨none, some (ascii "message"), data, none, true⟩

/-! ### The state machine -/

/-- The state machine writes what the formatter writes, whatever the data. -/
theorem formatEvent_eq (data : Bytes) :
    SseCodecStateMachine.formatEvent ⟨none, some (ascii "message"), data, none⟩ =
      formatSseEvent (ascii "message") data none := by
  have hmessage : formatSseField (ascii "event") (ascii "message") = formatLine (ascii "event") (ascii "message") := by
    rw [formatSseField, getlines_of_not_mem (by decide) (by decide)]
    rfl
  rw [formatSseEvent_eq, hmessage]
  simp [SseCodecStateMachine.formatEvent, formatSseField, getlines]

/-! ### The filter -/

/-- The bytes of the filter for data that is one line, or one line and its line feed. -/
theorem onWrite_line {line ending blanks : Bytes} (hline : line ≠ []) (hending : ending ++ [kLF, kLF] = kLF :: blanks) :
    SseCodecFilter.onWrite true (line ++ ending) =
      formatLine (ascii "event") (ascii "message") ++ (formatLine (ascii "data") line ++ blanks) := by
  have hlength : (true && decide (0 < (line ++ ending).length)) = true := by
    rw [Bool.true_and, decide_eq_true_iff, List.length_append]
    exact Nat.add_pos_left (List.length_pos_iff.mpr hline) _
  have hfirst : ascii "event: message\n" = formatLine (ascii "event") (ascii "message") := rfl
  have hname : ascii "data: " = ascii "data" ++ ascii ": " := rfl
  have hend : ascii "\n\n" = [kLF, kLF] := rfl
  rw [SseCodecFilter.onWrite, if_pos hlength, hfirst, hname, hend]
  simp only [formatLine, List.append_assoc, hending, List.cons_append, List.nil_append]

/-- The parser at the end of the line of data. -/
theorem parse_firstLines {line : Bytes} (honline : OnLine line) (rest : Bytes) :
    fresh.parse (formatLine (ascii "event") (ascii "message") ++ (formatLine (ascii "data") line ++ rest)) =
      (pending (ascii "message") line []).parseBytes rest := by
  have hevent : OnLine (ascii "message") := by
    have hbytes : ascii "message" = [109, 101, 115, 115, 97, 103, 101] := rfl
    rw [hbytes]
    simp [OnLine, kCR, kLF]
  have hlength : (formatLine (ascii "event") (ascii "message")).length = 15 := rfl
  rw [parse_of_ascii, parseBytes_formatLine rfl fieldName_event hevent, processField_event,
    parseBytes_formatLine rfl fieldName_data honline, processField_data]
  · rfl
  · rw [List.length_append, hlength]
    omega
  · intro byte hbyte
    cases Option.some.inj hbyte
    decide

/-- A line feed behind an event is no event of its own. -/
theorem endLine_endLine_pending (event data : Bytes) :
    (pending event data []).endLine.endLine.callbacks = (pending event data []).endLine.callbacks := rfl

theorem chomp_ne_nil (hpayload : payload ≠ []) (hfront : payload.head? ≠ some kLF) : chomp payload ≠ [] := by
  obtain ⟨byte, rest, rfl⟩ := List.exists_cons_of_ne_nil hpayload
  by_cases hrest : rest = []
  · subst hrest
    have hbyte : byte ≠ kLF := fun heq => hfront (congrArg some heq)
    rw [chomp, List.getLast?_singleton, if_neg (fun heq => hbyte (Option.some.inj heq))]
    exact List.cons_ne_nil _ _
  · rw [chomp_cons hrest]
    exact List.cons_ne_nil _ _

/-- The filter's data is the one line it was given. -/
theorem callbacks_onWrite_line {line ending : Bytes} (hline : line ≠ []) (honline : OnLine line)
    (hending : ending = [] ∨ ending = [kLF]) :
    (fresh.parse (SseCodecFilter.onWrite true (line ++ ending))).callbacks = [message line] := by
  obtain rfl | rfl := hending
  · rw [@onWrite_line line [] [kLF] hline rfl, parse_firstLines honline, parseBytes_lf, parseBytes]
    exact endLine_pending _ _ _
  · rw [@onWrite_line line [kLF] [kLF, kLF] hline rfl, parse_firstLines honline, parseBytes_lf, parseBytes_lf,
      parseBytes, endLine_endLine_pending]
    exact endLine_pending _ _ _

theorem callbacks_onWrite (hpayload : chomp payload ≠ []) (hcr : kCR ∉ payload) (hlf : kLF ∉ chomp payload) :
    (fresh.parse (SseCodecFilter.onWrite true payload)).callbacks = [message (chomp payload)] := by
  obtain ⟨ending, hending, hsplit⟩ :
      ∃ ending, (ending = [] ∨ ending = [kLF]) ∧ payload = chomp payload ++ ending := by
    unfold chomp
    split_ifs with hlast
    · exact ⟨[kLF], Or.inr rfl, (List.dropLast_append_getLast? _ hlast).symm⟩
    · exact ⟨[], Or.inl rfl, (List.append_nil _).symm⟩
  have honline : OnLine (chomp payload) := by
    intro byte hbyte
    refine ⟨fun heq => hcr ?_, fun heq => hlf (heq ▸ hbyte)⟩
    rw [hsplit, ← heq]
    exact List.mem_append_left _ hbyte
  have hread := callbacks_onWrite_line hpayload honline hending
  rw [← hsplit] at hread
  exact hread

/-! ### All of them -/

/-- **The writers agree.** The state machine writes the formatter's bytes; both dispatch the data less the line
feed it may end with, and so does the filter where the data has no other line feed; of no data there is no event. -/
theorem writers_agree (payload : Bytes) (hcr : kCR ∉ payload) :
    SseCodecStateMachine.formatEvent ⟨none, some (ascii "message"), payload, none⟩ =
        formatSseEvent (ascii "message") payload none ∧
      (payload = [] →
        (fresh.parse (formatSseEvent (ascii "message") payload none)).callbacks = [] ∧
          (fresh.parse (SseCodecFilter.onWrite true payload)).callbacks = []) ∧
      (payload ≠ [] → payload.head? ≠ some kLF →
        (fresh.parse (formatSseEvent (ascii "message") payload none)).callbacks = [message (chomp payload)] ∧
          (kLF ∉ chomp payload →
            (fresh.parse (SseCodecFilter.onWrite true payload)).callbacks = [message (chomp payload)])) := by
  refine ⟨formatEvent_eq payload, ?_, fun hpayload hfront => ⟨?_, fun hlf => ?_⟩⟩
  · intro hempty
    subst hempty
    exact ⟨by decide, by decide⟩
  · exact parse_formatSseEvent (by decide) (fun _ hnone => by cases hnone) hcr hpayload hfront
  · apply callbacks_onWrite _ hcr hlf
    exact chomp_ne_nil hpayload hfront

theorem writers_agree_lines :
    (fresh.parse (SseCodecFilter.onWrite true (ascii "\x7b\x7d\n"))).callbacks = [message (ascii "\x7b\x7d")] :=
  ((writers_agree (ascii "\x7b\x7d\n") (by decide)).2.2 (by decide) (by decide)).2 (by decide)

/-- A line feed at the end of the data is lost. -/
theorem writers_lose_end :
    ¬ ∃ event, (fresh.parse (formatSseEvent (ascii "message") (ascii "x\n") none)).callbacks = [.onSseEvent event] ∧
      event.data = ascii "x\n" := by
  intro h
  obtain ⟨event, hevents, hdata⟩ := h
  have hread : (fresh.parse (formatSseEvent (ascii "message") (ascii "x\n") none)).callbacks =
      [message (ascii "x")] := by decide
  rw [hread] at hevents
  cases hevents
  exact absurd hdata (by decide)

end SseParser

end GopherMcp
