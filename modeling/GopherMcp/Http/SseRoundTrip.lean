import GopherMcp.Http.SseChunking
import GopherMcp.Http.SseFormatter

/-!
# Events there and back

What the server formats the client's parser reads. A field arrives line by line, so the parser puts the
lines of the data together again: it gives back the data, less the line feed that ended it. The parser
takes a first line that is empty for no line at all, which is left out here.
-/

namespace GopherMcp

namespace SseParser

variable {p : SseParser} {field value rest : Bytes}

/-- Bytes that end no line. -/
def OnLine (text : Bytes) : Prop := ∀ byte ∈ text, byte ≠ kCR ∧ byte ≠ kLF

/-- A field name: something, without a colon, on one line. -/
structure FieldName (field : Bytes) : Prop where
  ne_nil : field ≠ []
  onLine : OnLine field
  plain : ∀ byte ∈ field, byte ≠ kColon

theorem fieldName_event : FieldName (ascii "event") := by
  have hbytes : ascii "event" = [101, 118, 101, 110, 116] := rfl
  rw [hbytes]
  exact ⟨List.cons_ne_nil _ _, by simp [OnLine, kCR, kLF], by simp [kColon]⟩

theorem fieldName_id : FieldName (ascii "id") := by
  have hbytes : ascii "id" = [105, 100] := rfl
  rw [hbytes]
  exact ⟨List.cons_ne_nil _ _, by simp [OnLine, kCR, kLF], by simp [kColon]⟩

theorem fieldName_data : FieldName (ascii "data") := by
  have hbytes : ascii "data" = [100, 97, 116, 97] := rfl
  rw [hbytes]
  exact ⟨List.cons_ne_nil _ _, by simp [OnLine, kCR, kLF], by simp [kColon]⟩

/-! ### One line -/

/-- A whole line is kept until its line feed ends it. -/
theorem parseBytes_line (p : SseParser) {line : Bytes} (h : OnLine line) (rest : Bytes) :
    p.parseBytes (line ++ kLF :: rest) =
      { p with lineBuffer := p.lineBuffer ++ line }.endLine.parseBytes rest := by
  induction line generalizing p with
  | nil => simp [parseBytes_lf]
  | cons byte line ih =>
      obtain ⟨hcr, hlf⟩ := h byte List.mem_cons_self
      rw [List.cons_append, parseBytes_text _ _ hcr hlf, ih _ fun b hb => h b (List.mem_cons_of_mem _ hb)]
      simp

theorem processField_lineBuffer (p : SseParser) (lineBuffer name value : Bytes) :
    { p with lineBuffer }.processField name value = { p.processField name value with lineBuffer } := by
  by_cases hdata : name = ascii "data"
  · simp only [processField, if_pos hdata]
  by_cases hevent : name = ascii "event"
  · simp only [processField, if_neg hdata, if_pos hevent]
  by_cases hid : name = ascii "id"
  · simp only [processField, if_neg hdata, if_neg hevent, if_pos hid]
  by_cases hretry : name = ascii "retry"
  · simp only [processField, if_neg hdata, if_neg hevent, if_neg hid, if_pos hretry]
    cases retryValue value <;> rfl
  · simp only [processField, if_neg hdata, if_neg hevent, if_neg hid, if_neg hretry]

theorem lineBuffer_processField (p : SseParser) (name value : Bytes) :
    (p.processField name value).lineBuffer = p.lineBuffer := by
  have hsame : p.processField name value =
      { p.processField name value with lineBuffer := p.lineBuffer } :=
    processField_lineBuffer p p.lineBuffer name value
  rw [hsame]

theorem processLine_field (p : SseParser) (hfield : FieldName field) (value : Bytes) :
    p.processLine (field ++ ascii ": " ++ value) = p.processField field value := by
  obtain ⟨first, others, rfl⟩ := List.exists_cons_of_ne_nil hfield.ne_nil
  have hfirst : first ≠ kColon := hfield.plain first List.mem_cons_self
  have hcolon : ascii ": " = [kColon, kSpace] := rfl
  have hplain (b : UInt8) (hb : b ∈ first :: others) : decide (b ≠ kColon) = true :=
    decide_eq_true (hfield.plain b hb)
  rw [List.append_assoc, hcolon, List.cons_append, processLine, if_neg hfirst, ← List.cons_append,
    List.dropWhile_append_of_pos hplain, List.takeWhile_append_of_pos hplain]
  simp [fieldValue, kSpace]

/-- One line of a field. -/
theorem parseBytes_formatLine (hbuffer : p.lineBuffer = []) (hfield : FieldName field) {line : Bytes}
    (hline : OnLine line) (rest : Bytes) :
    p.parseBytes (formatLine field line ++ rest) = (p.processField field line).parseBytes rest := by
  have hcolon : OnLine (ascii ": ") := by
    have hbytes : ascii ": " = [kColon, kSpace] := rfl
    simp [OnLine, hbytes, kColon, kSpace, kCR, kLF]
  have hwhole : OnLine (field ++ ascii ": " ++ line) := by
    intro byte hbyte
    obtain hbyte | hbyte := List.mem_append.mp hbyte
    · obtain hbyte | hbyte := List.mem_append.mp hbyte
      · exact hfield.onLine byte hbyte
      · exact hcolon byte hbyte
    · exact hline byte hbyte
  have hprocessed : (p.processField field line).lineBuffer = [] :=
    (lineBuffer_processField p field line).trans hbuffer
  rw [formatLine, List.append_assoc, List.singleton_append, parseBytes_line p hwhole, hbuffer,
    List.nil_append, endLine, processLine_field _ hfield, processField_lineBuffer]
  simp only
  rw [← hprocessed]

/-! ### Fields -/

theorem onLine_of_mem_getlines {line : Bytes} (hvalue : kCR ∉ value) (hline : line ∈ getlines value) :
    OnLine line := by
  intro byte hbyte
  obtain ⟨hmem, hlf⟩ := of_mem_getlines hline hbyte
  exact ⟨fun hcr => hvalue (hcr ▸ hmem), hlf⟩

/-- A field is taken line by line. -/
theorem parseBytes_lines {lines : List Bytes} (hlines : ∀ line ∈ lines, OnLine line)
    (hbuffer : p.lineBuffer = []) (hfield : FieldName field) (rest : Bytes) :
    p.parseBytes (lines.flatMap (formatLine field) ++ rest) =
      (lines.foldl (fun p line => p.processField field line) p).parseBytes rest := by
  induction lines generalizing p with
  | nil => rfl
  | cons line lines ih =>
      have hprocessed : (p.processField field line).lineBuffer = [] :=
        (lineBuffer_processField p field line).trans hbuffer
      rw [List.flatMap_cons, List.append_assoc,
        parseBytes_formatLine hbuffer hfield (hlines line List.mem_cons_self),
        ih (fun other hother => hlines other (List.mem_cons_of_mem _ hother)) hprocessed]
      rfl

/-- A field with a value on one line, or with none. -/
theorem parseBytes_single (hcr : kCR ∉ value) (hlf : kLF ∉ value) (hbuffer : p.lineBuffer = [])
    (hfield : FieldName field) (rest : Bytes) :
    p.parseBytes (formatSseField field value ++ rest) =
      (if value = [] then p else p.processField field value).parseBytes rest := by
  split_ifs with hvalue
  · rw [hvalue]
    rfl
  · rw [formatSseField, parseBytes_lines (fun _ => onLine_of_mem_getlines hcr) hbuffer hfield,
      getlines_of_not_mem hvalue hlf]
    rfl

/-! ### Data -/

/-- What the parser makes of one more line of data. -/
def addLine (data line : Bytes) : Bytes := if data.isEmpty then line else data ++ kLF :: line

theorem processField_data (p : SseParser) (line : Bytes) :
    p.processField (ascii "data") line =
      { p with
        currentEvent :=
          { p.currentEvent with hasDataField := true, data := addLine p.currentEvent.data line } } := by
  rw [processField, if_pos rfl]
  rfl

theorem foldl_data {lines : List Bytes} (h : lines ≠ []) (p : SseParser) :
    lines.foldl (fun p line => p.processField (ascii "data") line) p =
      { p with
        currentEvent :=
          { p.currentEvent with
            hasDataField := true
            data := lines.foldl addLine p.currentEvent.data } } := by
  induction lines generalizing p with
  | nil => exact absurd rfl h
  | cons line lines ih =>
      rw [List.foldl_cons, processField_data]
      by_cases hlines : lines = []
      · rw [hlines]
        rfl
      · rw [ih hlines]
        rfl

/-- Behind a line that is not empty every line is kept. -/
theorem foldl_addLine {data : Bytes} (h : data ≠ []) (lines : List Bytes) :
    lines.foldl addLine data = data ++ lines.flatMap (kLF :: ·) := by
  induction lines generalizing data with
  | nil => simp
  | cons line lines ih =>
      have hdata : addLine data line = data ++ kLF :: line := if_neg (by simpa using h)
      rw [List.foldl_cons, hdata, ih (by simp)]
      simp

theorem foldl_addLine_getlines {data : Bytes} (hdata : data ≠ []) (hfront : data.head? ≠ some kLF) :
    (getlines data).foldl addLine [] = chomp data := by
  obtain ⟨line, lines, hlines⟩ := List.exists_cons_of_ne_nil (getlines_ne_nil hdata)
  have hfirst : addLine [] line = line := rfl
  rw [hlines, List.foldl_cons, hfirst, foldl_addLine (head_getlines_ne_nil hfront hlines),
    ← rejoin_getlines, hlines]
  rfl

/-! ### Events -/

/-- Neither an empty name nor an empty id is written, for they have no lines. -/
theorem formatSseEvent_eq (event data : Bytes) (id : Option Bytes) :
    formatSseEvent event data id =
      formatSseField (ascii "event") event ++ (formatSseField (ascii "id") (id.getD []) ++
        (formatSseField (ascii "data") data ++ [kLF])) := by
  have hevent : (if event ≠ [] then formatSseField (ascii "event") event else []) =
      formatSseField (ascii "event") event := by
    split_ifs with h
    · rfl
    · rw [not_not.mp h]
      rfl
  unfold formatSseEvent
  rw [hevent]
  cases id with
  | none => simp [formatSseField, getlines]
  | some id => simp

theorem head_formatSseField (hfield : field ≠ []) {byte : UInt8}
    (h : (formatSseField field value).head? = some byte) : field.head? = some byte := by
  obtain ⟨first, others, rfl⟩ := List.exists_cons_of_ne_nil hfield
  rw [formatSseField] at h
  cases hlines : getlines value with
  | nil =>
      rw [hlines] at h
      cases h
  | cons line lines =>
      rw [hlines] at h
      exact h

/-- What is formatted begins with a letter, so there is no byte order mark in front. -/
theorem head_formatSseEvent {event data : Bytes} {id : Option Bytes} {byte : UInt8}
    (h : (formatSseEvent event data id).head? = some byte) : byte < 128 := by
  rw [formatSseEvent_eq, List.head?_append, List.head?_append, List.head?_append, Option.or_eq_some_iff,
    Option.or_eq_some_iff, Option.or_eq_some_iff] at h
  obtain h | ⟨-, h | ⟨-, h | ⟨-, h⟩⟩⟩ := h
  · cases Option.some.inj (head_formatSseField (by decide) h)
    decide
  · cases Option.some.inj (head_formatSseField (by decide) h)
    decide
  · cases Option.some.inj (head_formatSseField (by decide) h)
    decide
  · cases Option.some.inj h
    decide

theorem length_formatSseEvent {event data : Bytes} {id : Option Bytes} (hdata : data ≠ []) :
    3 ≤ (formatSseEvent event data id).length := by
  obtain ⟨line, lines, hlines⟩ := List.exists_cons_of_ne_nil (getlines_ne_nil hdata)
  have hname : (ascii "data").length = 4 := rfl
  rw [formatSseEvent_eq, List.length_append, List.length_append, List.length_append,
    formatSseField.eq_1 (ascii "data"), hlines, List.flatMap_cons, List.length_append, formatLine]
  simp only [List.length_append, hname]
  omega

theorem parse_of_ascii {bytes : Bytes} (hlength : 3 ≤ bytes.length)
    (hhead : ∀ byte, bytes.head? = some byte → byte < 128) :
    fresh.parse bytes = { fresh with bomChecked := true }.parseBytes bytes := by
  have hready : (decide (bytes.length ≥ 3) && !fresh.bomChecked) = true := by
    rw [Bool.and_eq_true]
    exact ⟨decide_eq_true hlength, rfl⟩
  have hmark : byteOrderMark.isPrefixOf bytes = false := by
    cases bytes with
    | nil => rfl
    | cons first rest =>
        have hfirst : (0xEF : UInt8) ≠ first := by
          intro heq
          have hlt := hhead first rfl
          rw [← heq] at hlt
          exact absurd hlt (by decide)
        simp [byteOrderMark, List.isPrefixOf, hfirst]
  rw [parse, if_pos hready, hmark]
  rfl

theorem processField_event (p : SseParser) (value : Bytes) :
    p.processField (ascii "event") value =
      { p with currentEvent := { p.currentEvent with event := some value } } := by
  rw [processField, if_neg (by decide), if_pos rfl]

theorem processField_id (p : SseParser) (hvalue : value ≠ []) :
    p.processField (ascii "id") value =
      { p with currentEvent := { p.currentEvent with id := some value }, lastEventId := value } := by
  rw [processField, if_neg (by decide), if_neg (by decide), if_pos rfl, if_neg (by simpa using hvalue)]

/-- The parser after the fields of an event, before the blank line. -/
def pending (event data id : Bytes) : SseParser :=
  { fresh with
    bomChecked := true
    lastEventId := id
    currentEvent := {
      id := if id = [] then none else some id
      event := if event = [] then none else some event
      data
      retry := none
      hasDataField := true } }

theorem endLine_pending (event data id : Bytes) :
    (pending event data id).endLine.callbacks = [.onSseEvent (pending event data id).currentEvent] := by
  by_cases hid : id = []
  · subst hid
    rfl
  · simp [pending, endLine, processLine, SseEvent.hasContent, dispatchEvent, hid, call, fresh]

/-- **The parser reads what the formatter writes**: one event, with the data less the line feed that
ended it, the name and the id, where these are not empty. -/
theorem parse_formatSseEvent {event data : Bytes} {id : Option Bytes}
    (hevent : kCR ∉ event ∧ kLF ∉ event) (hid : ∀ text, id = some text → kCR ∉ text ∧ kLF ∉ text)
    (hcr : kCR ∉ data) (hdata : data ≠ []) (hfront : data.head? ≠ some kLF) :
    (fresh.parse (formatSseEvent event data id)).callbacks =
      [.onSseEvent {
        id := if id.getD [] = [] then none else id
        event := if event = [] then none else some event
        data := chomp data
        retry := none
        hasDataField := true }] := by
  obtain ⟨hidCr, hidLf⟩ : kCR ∉ id.getD [] ∧ kLF ∉ id.getD [] := by
    cases id with
    | none => exact ⟨List.not_mem_nil, List.not_mem_nil⟩
    | some text => exact hid text rfl
  have hnamed : (if event = [] then { fresh with bomChecked := true }
      else { fresh with bomChecked := true }.processField (ascii "event") event) =
      { fresh with
        bomChecked := true
        currentEvent := { SseEvent.clear with event := if event = [] then none else some event } } := by
    split_ifs
    · rfl
    · exact processField_event _ event
  have htagged (p : SseParser) (hlast : p.lastEventId = []) (hnone : p.currentEvent.id = none) :
      (if id.getD [] = [] then p else p.processField (ascii "id") (id.getD [])) =
        { p with
          lastEventId := id.getD []
          currentEvent :=
            { p.currentEvent with id := if id.getD [] = [] then none else some (id.getD []) } } := by
    split_ifs with hempty
    · rw [hempty, ← hlast, ← hnone]
    · exact processField_id p hempty
  have hread : fresh.parse (formatSseEvent event data id) =
      (pending event (chomp data) (id.getD [])).endLine := by
    rw [parse_of_ascii (length_formatSseEvent hdata) fun _ => head_formatSseEvent, formatSseEvent_eq,
      parseBytes_single hevent.1 hevent.2 rfl fieldName_event, hnamed,
      parseBytes_single hidCr hidLf rfl fieldName_id, htagged _ rfl rfl, formatSseField,
      parseBytes_lines (fun _ => onLine_of_mem_getlines hcr) rfl fieldName_data,
      foldl_data (getlines_ne_nil hdata), ← foldl_addLine_getlines hdata hfront]
    rfl
  rw [hread, endLine_pending, pending]
  cases id <;> rfl

/-- An event with a name and an id, and data on three lines of which the second is empty. -/
theorem parse_formatSseEvent_lines :
    (fresh.parse (formatSseEvent (ascii "message") (ascii "a\n\n b:c") (some (ascii "s:1")))).callbacks =
      [.onSseEvent ⟨some (ascii "s:1"), some (ascii "message"), ascii "a\n\n b:c", none, true⟩] := by
  have h := @parse_formatSseEvent (ascii "message") (ascii "a\n\n b:c") (some (ascii "s:1"))
    (by decide) (by simp only [Option.some.injEq, forall_eq']; decide) (by decide) (by decide)
    (by decide)
  exact h

/-- A line feed at the end of the data is lost. -/
theorem formatSseEvent_loses_end :
    (fresh.parse (formatSseEvent [] (ascii "x\n") none)).callbacks ≠
      [.onSseEvent ⟨none, none, ascii "x\n", none, true⟩] := by
  decide

end SseParser

end GopherMcp
