import GopherMcp.Http.SseRoundTrip
import GopherMcp.Http.WrittenResponses

/-!
# Events from the writer to the parser

A server streams events, comments and retry directives through its response writer, and a client reads the head, takes the
coding off the body and gives what it gets, in whatever pieces, to its parser. What the parser calls back with is what the
server wrote: all of it, in its order, and with the id that a client is to come back with.
-/

namespace GopherMcp

namespace WireWriter

namespace Op

def isFinish : Op → Bool
  | .finish => true
  | _ => false

/-- What an operation adds to a stream. -/
def payloads : Op → List Bytes
  | .writeEvent event data id => [formatSseEvent event data id]
  | .writeComment comment => [formatSseComment comment]
  | .writeRetry retryMs => [formatSseRetry retryMs]
  | _ => []

/-- Names, ids and comments are on one line; data has no carriage return and does not begin with a line feed. -/
def Sendable : Op → Prop
  | .writeEvent event data id =>
      SseParser.OnLine event ∧ SseParser.OnLine (id.getD []) ∧ kCR ∉ data ∧ data.head? ≠ some kLF
  | .writeComment comment => SseParser.OnLine comment
  | _ => True

instance (text : Bytes) : Decidable (SseParser.OnLine text) :=
  inferInstanceAs (Decidable (∀ byte ∈ text, byte ≠ kCR ∧ byte ≠ kLF))

instance : (op : Op) → Decidable op.Sendable
  | .writeEvent event data id =>
      inferInstanceAs (Decidable (SseParser.OnLine event ∧ SseParser.OnLine (id.getD []) ∧ kCR ∉ data ∧
        data.head? ≠ some kLF))
  | .writeComment comment => inferInstanceAs (Decidable (SseParser.OnLine comment))
  | .startUnary .. | .startSse .. | .writeRetry _ | .finish | .drainTo => inferInstanceAs (Decidable True)

end Op

/-- What reaches a stream: nothing does once it has been finished. -/
def sent (ops : List Op) : List Bytes := (ops.takeWhile fun op => !op.isFinish).flatMap Op.payloads

end WireWriter

namespace SseParser

open WireWriter (Op)

/-! ### Numbers -/

theorem toNat_ofNat {k : Nat} (hk : k < 2 ^ 64) : (UInt64.ofNat k).toNat = k := by
  rw [UInt64.toNat_ofNat', Nat.mod_eq_of_lt hk]

theorem toUInt64_digitChar {d : Nat} (h : d < 10) : (d.digitChar.toUInt8 - 48).toUInt64 = UInt64.ofNat d := by
  interval_cases d <;> rfl

/-- There is room for one more digit where the number fits. -/
theorem hasRoom {n : Nat} (h : n < 2 ^ 64) :
    ¬ UInt64.ofNat (n / 10) > (0xFFFFFFFFFFFFFFFF - UInt64.ofNat (n % 10)) / 10 := by
  have hmax : (0xFFFFFFFFFFFFFFFF : UInt64) = UInt64.ofNat (2 ^ 64 - 1) := rfl
  have hten : (10 : UInt64).toNat = 10 := rfl
  have hle : UInt64.ofNat (n % 10) ≤ UInt64.ofNat (2 ^ 64 - 1) := by
    rw [UInt64.le_iff_toNat_le, toNat_ofNat (by omega), toNat_ofNat (by omega)]
    omega
  rw [hmax, gt_iff_lt, UInt64.lt_iff_toNat_lt, UInt64.toNat_div, UInt64.toNat_sub_of_le _ _ hle,
    toNat_ofNat (by omega), toNat_ofNat (by omega), toNat_ofNat (by omega), hten]
  omega

theorem digits_add {n : Nat} (h : n < 2 ^ 64) :
    UInt64.ofNat (n / 10) * 10 + UInt64.ofNat (n % 10) = UInt64.ofNat n := by
  have hten : (10 : UInt64).toNat = 10 := rfl
  apply UInt64.toNat_inj.mp
  rw [UInt64.toNat_add, UInt64.toNat_mul, toNat_ofNat (by omega), toNat_ofNat (by omega), toNat_ofNat h, hten]
  omega

/-- A decimal number reads back. -/
theorem retryValue_toDecimal {n : Nat} (h : n < 2 ^ 64) : retryValue (toDecimal n) = some (UInt64.ofNat n) := by
  have hdigits : (!(toDecimal n).isEmpty && (toDecimal n).all isDigit) = true := by
    rw [Bool.and_eq_true, Bool.not_eq_true', List.isEmpty_eq_false_iff, List.all_eq_true]
    refine ⟨fun hempty => Nat.toDigits_ne_nil (List.map_eq_nil_iff.mp hempty), fun byte hbyte => ?_⟩
    have hrange := toNat_of_mem_toDecimal hbyte
    simp only [isDigit, Bool.and_eq_true, decide_eq_true_eq, UInt8.le_iff_toNat_le]
    exact hrange
  rw [retryValue, if_pos hdigits]
  clear hdigits
  -- the digits in front are the number of which one more digit makes this
  induction n using Nat.strong_induction_on with
  | _ n ih =>
      rw [toDecimal, Nat.toDigits_eq_if (by omega)]
      split_ifs with hlt
      · have hroom := hasRoom h
        rw [Nat.div_eq_of_lt hlt, Nat.mod_eq_of_lt hlt] at hroom
        rw [List.map_cons, List.map_nil, List.foldl_cons, List.foldl_nil, Option.bind_some, toUInt64_digitChar hlt]
        refine (if_neg hroom).trans ?_
        rw [UInt64.zero_mul, UInt64.zero_add]
      · have hlast : n % 10 < 10 := by omega
        have hfront := ih (n / 10) (by omega) (by omega)
        rw [toDecimal] at hfront
        rw [List.map_append, List.foldl_append, hfront, List.map_cons, List.map_nil, List.foldl_cons, List.foldl_nil,
          Option.bind_some, toUInt64_digitChar hlast, if_neg (hasRoom h), digits_add h]

/-! ### Between two events -/

/-- What a client has heard, the id it would come back with and the time it would wait first. -/
structure Heard where
  callbacks : List SseCallback
  lastEventId : Bytes
  retryTime : UInt64

namespace Heard

def nothing : Heard := ⟨[], [], 3000⟩

/-- An event without data tells the id and is not called back. -/
def event (heard : Heard) (name data : Bytes) (id : Option Bytes) : Heard :=
  let lastEventId := if id.getD [] = [] then heard.lastEventId else id.getD []
  let told : SseEvent :=
    { id := if lastEventId = [] then none else some lastEventId
      event := if name = [] then none else some name
      data := chomp data
      retry := none
      hasDataField := true }
  { heard with
    lastEventId := lastEventId
    callbacks := heard.callbacks ++ if data = [] then [] else [.onSseEvent told] }

def after (heard : Heard) : Op → Heard
  | .writeEvent name data id => heard.event name data id
  | .writeComment comment => { heard with callbacks := heard.callbacks ++ [.onSseComment (kSpace :: comment)] }
  | .writeRetry retryMs =>
      { heard with
        retryTime := UInt64.ofNat retryMs.toNat
        callbacks := heard.callbacks ++ [.onSseRetry (UInt64.ofNat retryMs.toNat)] }
  | _ => heard

end Heard

/-- What there is to hear of a stream. -/
def heard (ops : List Op) : Heard := (ops.takeWhile fun op => !op.isFinish).foldl Heard.after Heard.nothing

/-- The parser between two events: no line and no event is pending. -/
def between (heard : Heard) (bomChecked : Bool) : SseParser where
  lineBuffer := []
  currentEvent := SseEvent.clear
  lastEventId := heard.lastEventId
  retryTime := heard.retryTime
  bomChecked := bomChecked
  callbacks := heard.callbacks

variable (told : Heard) (checked : Bool)

theorem OnLine.not_mem {text : Bytes} (h : OnLine text) : kCR ∉ text ∧ kLF ∉ text :=
  ⟨fun hmem => (h _ hmem).1 rfl, fun hmem => (h _ hmem).2 rfl⟩

/-- The parser behind the fields of an event, with data or without. -/
def fielded (event id : Bytes) (data : Option Bytes) : SseParser :=
  { between told checked with
    lastEventId := if id = [] then told.lastEventId else id
    currentEvent :=
      { id := if id = [] then none else some id
        event := if event = [] then none else some event
        data := data.getD []
        retry := none
        hasDataField := data.isSome } }

theorem parseBytes_names {event id : Bytes} (hevent : OnLine event) (hid : OnLine id) (rest : Bytes) :
    (between told checked).parseBytes
        (formatSseField (ascii "event") event ++ (formatSseField (ascii "id") id ++ rest)) =
      (fielded told checked event id none).parseBytes rest := by
  have hnamed : (if event = [] then between told checked
      else (between told checked).processField (ascii "event") event) = fielded told checked event [] none := by
    split_ifs with hempty
    · rw [hempty]
      rfl
    · rw [processField_event, fielded, if_neg hempty]
      rfl
  have htagged : (if id = [] then fielded told checked event [] none
      else (fielded told checked event [] none).processField (ascii "id") id) =
      fielded told checked event id none := by
    split_ifs with hempty
    · rw [hempty]
    · rw [processField_id _ hempty]
      simp only [fielded, if_neg hempty]
  rw [parseBytes_single hevent.not_mem.1 hevent.not_mem.2 rfl fieldName_event, hnamed,
    parseBytes_single hid.not_mem.1 hid.not_mem.2 rfl fieldName_id, htagged]

theorem parseBytes_data {event id data : Bytes} (hcr : kCR ∉ data) (hfront : data.head? ≠ some kLF) (rest : Bytes) :
    (fielded told checked event id none).parseBytes (formatSseField (ascii "data") data ++ rest) =
      (fielded told checked event id (if data = [] then none else some (chomp data))).parseBytes rest := by
  split_ifs with hempty
  · rw [hempty]
    rfl
  · rw [formatSseField, parseBytes_lines (fun _ => onLine_of_mem_getlines hcr) rfl fieldName_data,
      foldl_data (getlines_ne_nil hempty), ← foldl_addLine_getlines hempty hfront]
    rfl

/-- The blank line behind the fields tells the event where it has data. -/
theorem endLine_fielded (event id data : Bytes) :
    (fielded told checked event id (if data = [] then none else some (chomp data))).endLine =
      between (told.event event data (some id)) checked := by
  obtain ⟨callbacks, lastEventId, retryTime⟩ := told
  by_cases hdata : data = [] <;> by_cases hid : id = [] <;> by_cases hname : event = [] <;> cases lastEventId <;>
    simp [endLine, processLine, fielded, SseEvent.hasContent, dispatchEvent, SseEvent.clear, call, between,
      Heard.event, hid, hname, hdata]

theorem parseBytes_formatSseEvent {event data : Bytes} {id : Option Bytes}
    (h : (Op.writeEvent event data id).Sendable) (rest : Bytes) :
    (between told checked).parseBytes (formatSseEvent event data id ++ rest) =
      (between (told.event event data id) checked).parseBytes rest := by
  obtain ⟨hevent, hid, hcr, hfront⟩ := h
  have hsame : told.event event data (some (id.getD [])) = told.event event data id := by
    cases id <;> rfl
  rw [formatSseEvent_eq, List.append_assoc, List.append_assoc, List.append_assoc,
    parseBytes_names told checked hevent hid, parseBytes_data told checked hcr hfront, List.singleton_append,
    parseBytes_lf, endLine_fielded, hsame]

theorem parseBytes_formatSseComment {comment : Bytes} (h : OnLine comment) (rest : Bytes) :
    (between told checked).parseBytes (formatSseComment comment ++ rest) =
      (between (told.after (.writeComment comment)) checked).parseBytes rest := by
  have hline : OnLine (ascii ": " ++ comment) := by
    intro byte hbyte
    obtain hbyte | hbyte := List.mem_append.mp hbyte
    · have hcolon : ascii ": " = [kColon, kSpace] := rfl
      rw [hcolon, List.mem_cons, List.mem_singleton] at hbyte
      obtain rfl | rfl := hbyte <;> decide
    · exact h byte hbyte
  have hread : formatSseComment comment ++ rest = ascii ": " ++ comment ++ kLF :: (kLF :: rest) := by
    simp [formatSseComment]
  rw [hread, parseBytes_line _ hline, parseBytes_lf]
  congr 1

theorem fieldName_retry : FieldName (ascii "retry") := by
  have hbytes : ascii "retry" = [114, 101, 116, 114, 121] := rfl
  rw [hbytes]
  exact ⟨List.cons_ne_nil _ _, by simp [OnLine, kCR, kLF], by simp [kColon]⟩

theorem onLine_toDecimal (n : Nat) : OnLine (toDecimal n) := by
  intro byte hbyte
  have hrange := toNat_of_mem_toDecimal hbyte
  constructor
  · rintro rfl
    exact absurd hrange.1 (by decide)
  · rintro rfl
    exact absurd hrange.1 (by decide)

theorem parseBytes_formatSseRetry (retryMs : UInt32) (rest : Bytes) :
    (between told checked).parseBytes (formatSseRetry retryMs ++ rest) =
      (between (told.after (.writeRetry retryMs)) checked).parseBytes rest := by
  have hread : formatSseRetry retryMs ++ rest =
      formatLine (ascii "retry") (toDecimal retryMs.toNat) ++ kLF :: rest := by
    have hname : ascii "retry: " = ascii "retry" ++ ascii ": " := rfl
    simp [formatSseRetry, formatLine, hname]
  have hvalue := retryValue_toDecimal (n := retryMs.toNat) (Nat.lt_trans retryMs.toNat_lt (by decide))
  rw [hread, parseBytes_formatLine rfl fieldName_retry (onLine_toDecimal _), parseBytes_lf, processField,
    if_neg (by decide), if_neg (by decide), if_neg (by decide), if_pos rfl, hvalue]
  rfl

/-- **One more operation is heard as it was sent.** -/
theorem parseBytes_payloads {op : Op} (h : op.Sendable) (rest : Bytes) :
    (between told checked).parseBytes (op.payloads.flatten ++ rest) =
      (between (told.after op) checked).parseBytes rest := by
  cases op with
  | writeEvent event data id =>
      rw [Op.payloads, List.flatten_singleton, parseBytes_formatSseEvent told checked h]
      rfl
  | writeComment comment => rw [Op.payloads, List.flatten_singleton, parseBytes_formatSseComment told checked h]
  | writeRetry retryMs => rw [Op.payloads, List.flatten_singleton, parseBytes_formatSseRetry told checked]
  | startUnary | startSse | finish | drainTo => rfl

theorem parseBytes_foldl {ops : List Op} (h : ∀ op ∈ ops, op.Sendable) :
    (between told checked).parseBytes (ops.flatMap Op.payloads).flatten =
      between (ops.foldl Heard.after told) checked := by
  induction ops generalizing told with
  | nil => rfl
  | cons op ops ih =>
      rw [List.flatMap_cons, List.flatten_append, parseBytes_payloads told checked (h op List.mem_cons_self),
        ih _ fun other hother => h other (List.mem_cons_of_mem _ hother)]
      rfl

/-! ### The bytes of a stream -/

theorem not_mem_formatSseField {field value : Bytes} (hfield : FieldName field) (hvalue : kCR ∉ value) :
    kCR ∉ formatSseField field value := by
  rw [formatSseField, List.mem_flatMap]
  rintro ⟨line, hline, hmem⟩
  have hplain : kCR ∉ line := fun hcr => (onLine_of_mem_getlines hvalue hline _ hcr).1 rfl
  rw [formatLine, List.mem_append, List.mem_append, List.mem_append] at hmem
  obtain ((hmem | hmem) | hmem) | hmem := hmem
  · exact hfield.onLine.not_mem.1 hmem
  · exact absurd hmem (by decide)
  · exact hplain hmem
  · exact absurd hmem (by decide)

/-- What is sent has no carriage return, and begins in the characters that are one byte. -/
structure Clean (payload : Bytes) : Prop where
  noReturn : kCR ∉ payload
  front : ∀ byte, payload.head? = some byte → byte < 128

theorem clean_of_mem_payloads {op : Op} (h : op.Sendable) : ∀ payload ∈ op.payloads, Clean payload := by
  intro payload hmem
  cases op with
  | startUnary | startSse | finish | drainTo => exact absurd hmem List.not_mem_nil
  | writeEvent event data id =>
      obtain ⟨hevent, hid, hcr, -⟩ := h
      rw [List.mem_singleton.mp hmem]
      refine ⟨?_, fun _ => head_formatSseEvent⟩
      rw [formatSseEvent_eq, List.mem_append, List.mem_append, List.mem_append]
      rintro (hmem | hmem | hmem | hmem)
      · exact not_mem_formatSseField fieldName_event hevent.not_mem.1 hmem
      · exact not_mem_formatSseField fieldName_id hid.not_mem.1 hmem
      · exact not_mem_formatSseField fieldName_data hcr hmem
      · exact absurd hmem (by decide)
  | writeComment comment =>
      rw [List.mem_singleton.mp hmem]
      refine ⟨?_, fun byte hbyte => ?_⟩
      · rw [formatSseComment, List.mem_append, List.mem_append]
        rintro ((hmem | hmem) | hmem)
        · exact absurd hmem (by decide)
        · exact h.not_mem.1 hmem
        · exact absurd hmem (by decide)
      · cases Option.some.inj hbyte
        decide
  | writeRetry retryMs =>
      rw [List.mem_singleton.mp hmem]
      refine ⟨?_, fun byte hbyte => ?_⟩
      · rw [formatSseRetry, List.mem_append, List.mem_append]
        rintro ((hmem | hmem) | hmem)
        · exact absurd hmem (by decide)
        · exact (onLine_toDecimal _).not_mem.1 hmem
        · exact absurd hmem (by decide)
      · cases Option.some.inj hbyte
        decide

theorem clean_flatten {payloads : List Bytes} (h : ∀ payload ∈ payloads, Clean payload) : Clean payloads.flatten where
  noReturn := by
    rw [List.mem_flatten]
    rintro ⟨payload, hmem, hcr⟩
    exact (h payload hmem).noReturn hcr
  front := by
    intro byte hbyte
    induction payloads with
    | nil => cases hbyte
    | cons payload payloads ih =>
        rw [List.flatten_cons, List.head?_append, Option.or_eq_some_iff] at hbyte
        obtain hfirst | ⟨-, hrest⟩ := hbyte
        · exact (h payload List.mem_cons_self).front byte hfirst
        · exact ih (fun other hother => h other (List.mem_cons_of_mem _ hother)) hrest

/-- A byte order mark does not stand in front of what was sent. -/
theorem Clean.not_mark {front rest : Bytes} (h : Clean (front ++ rest)) : ¬ byteOrderMark.isPrefixOf front := by
  intro hprefix
  obtain ⟨behind, rfl⟩ := List.isPrefixOf_iff_prefix.mp hprefix
  exact absurd (h.front 0xEF rfl) (by decide)

/-! ### In pieces -/

theorem bomChecked_parse (p : SseParser) (chunk : Bytes) :
    (p.parse chunk).bomChecked = (p.bomChecked || decide (3 ≤ chunk.length)) := by
  rw [parse_eq]
  rfl

/-- A clean stream is cut clearly anywhere, once no byte order mark is looked for or there is none. -/
theorem cutClear_of_clean {p : SseParser} {before : Bytes} {chunks : List Bytes}
    (hclean : Clean (before ++ chunks.flatten))
    (hmark : p.bomChecked = true ∨ (0xEF : UInt8) ∉ before ++ chunks.flatten) :
    Runs.Guarded feed CutClear (p, before) chunks := by
  induction chunks generalizing p before with
  | nil => trivial
  | cons chunk chunks ih =>
      rw [List.flatten_cons, ← List.append_assoc] at hclean hmark
      refine ⟨⟨fun hsplit => ?_, fun _ hunchecked hprefix => ?_, fun hbefore _ hprefix => ?_⟩, ih hclean ?_⟩
      · refine absurd ?_ hclean.noReturn
        exact List.mem_append_left _ (List.mem_append_left _ (List.mem_of_getLast? hsplit.1))
      · obtain hchecked | hnone := hmark
        · exact absurd (hchecked.symm.trans hunchecked) nofun
        · refine hnone (List.mem_append_left _ (List.mem_append_right _ ?_))
          exact (List.isPrefixOf_iff_prefix.mp hprefix).subset List.mem_cons_self
      · obtain ⟨first, others, rfl⟩ := List.exists_cons_of_ne_nil hbefore
        exact hclean.not_mark hprefix
      · rw [bomChecked_parse]
        refine hmark.imp (fun hchecked => ?_) id
        rw [hchecked]
        rfl

theorem guarded_of_clean {chunks : List Bytes} (hclean : Clean chunks.flatten)
    (hmark : (∀ chunk ∈ chunks.head?, 3 ≤ chunk.length) ∨ (0xEF : UInt8) ∉ chunks.flatten) :
    Runs.Guarded feed CutClear (fresh, []) chunks := by
  cases chunks with
  | nil => trivial
  | cons chunk chunks =>
      rw [List.flatten_cons] at hclean hmark
      refine ⟨⟨fun hsplit => absurd hsplit not_splitsCrlf_nil, fun hsome => absurd rfl hsome,
        fun hsome => absurd rfl hsome⟩, cutClear_of_clean hclean ?_⟩
      refine hmark.imp (fun hlength => ?_) id
      rw [bomChecked_parse, decide_eq_true (hlength chunk rfl), Bool.or_true]

theorem skipMark_of_clean {body : Bytes} (h : Clean body) : skipMark body = body := by
  rw [← List.append_nil body] at h
  exact if_neg h.not_mark

theorem clean_sent {ops : List Op} (h : ∀ op ∈ ops, op.Sendable) : Clean (WireWriter.sent ops).flatten := by
  refine clean_flatten fun payload hmem => ?_
  obtain ⟨op, hop, hpayload⟩ := List.mem_flatMap.mp hmem
  exact clean_of_mem_payloads (h op ((List.takeWhile_sublist _).subset hop)) payload hpayload

/-- **What was sent is heard**, however it was cut. -/
theorem outcome_sent {ops : List Op} (h : ∀ op ∈ ops, op.Sendable) {chunks : List Bytes}
    (hchunks : chunks.flatten = (WireWriter.sent ops).flatten)
    (hmark : (∀ chunk ∈ chunks.head?, 3 ≤ chunk.length) ∨ (0xEF : UInt8) ∉ chunks.flatten) :
    (fresh.parseChunks chunks).outcome = (between (heard ops) false).outcome := by
  have hclean : Clean chunks.flatten := hchunks ▸ clean_sent h
  have hwhole := outcome_parseChunks (guarded_of_clean hclean hmark) chunks.length
  have hfresh : fresh = between Heard.nothing false := rfl
  rw [List.take_length] at hwhole
  rw [hwhole, parse_eq, outcome_withBomChecked, skipMark_of_clean hclean, if_neg (by decide), hchunks, hfresh,
    WireWriter.sent, parseBytes_foldl _ _ fun op hop => h op ((List.takeWhile_sublist _).subset hop)]
  rfl

end SseParser

namespace WireWriter

variable {s : WireWriter}

/-! ### What a stream is on the wire -/

/-- The payloads in the framing of the stream, and its end where it has one. -/
def coded (framing : Framing) (ops : List Op) : Bytes :=
  match framing with
  | .chunked => (sent ops).flatMap Chunking.encode ++ if ops.any Op.isFinish then Chunking.lastChunk else []
  | .closeDelimited => (sent ops).flatten

theorem payloads_ne_nil (op : Op) : ∀ payload ∈ op.payloads, payload ≠ [] := by
  intro payload hmem
  cases op with
  | writeEvent | writeComment | writeRetry =>
      rw [List.mem_singleton.mp hmem]
      simp [formatSseEvent, formatSseComment, formatSseRetry]
  | startUnary | startSse | finish | drainTo => exact absurd hmem List.not_mem_nil

/-- One more operation on a stream that is not finished. -/
theorem step_of_sse (hmode : s.mode = .sse) {op : Op} (hop : op.isFinish = false) :
    (s.step op).mode = .sse ∧ (s.step op).framing = s.framing ∧
      (s.step op).written = s.written ++
        match s.framing with
        | .chunked => op.payloads.flatMap Chunking.encode
        | .closeDelimited => op.payloads.flatten := by
  have hidle : s.mode ≠ .idle := fun hidle => absurd (hmode.symm.trans hidle) nofun
  have hpayload {payload : Bytes} (hsome : payload ≠ []) :
      (s.appendSsePayload payload).1.mode = .sse ∧ (s.appendSsePayload payload).1.framing = s.framing ∧
        (s.appendSsePayload payload).1.written = s.written ++
          match s.framing with
          | .chunked => [payload].flatMap Chunking.encode
          | .closeDelimited => [payload].flatten := by
    rw [appendSsePayload_eq hmode hsome]
    refine ⟨hmode, rfl, ?_⟩
    cases s.framing <;> simp [written]
  have hnothing {t : WireWriter} (hsame : t.mode = s.mode ∧ t.framing = s.framing ∧ t.written = s.written) :
      t.mode = .sse ∧ t.framing = s.framing ∧
        t.written = s.written ++
          match s.framing with
          | .chunked => ([] : List Bytes).flatMap Chunking.encode
          | .closeDelimited => ([] : List Bytes).flatten := by
    refine ⟨hsame.1.trans hmode, hsame.2.1, ?_⟩
    cases s.framing <;> simp [hsame.2.2]
  cases op with
  | startUnary statusCode headers body =>
      rw [step, startUnary, if_pos hidle]
      exact hnothing ⟨rfl, rfl, rfl⟩
  | startSse statusCode headers =>
      rw [step, startSse, if_pos hidle]
      exact hnothing ⟨rfl, rfl, rfl⟩
  | writeEvent event data id => exact hpayload (by simp [formatSseEvent])
  | writeComment comment => exact hpayload (by simp [formatSseComment])
  | writeRetry retryMs => exact hpayload (by simp [formatSseRetry])
  | finish => cases hop
  | drainTo => exact hnothing ⟨rfl, rfl, List.append_nil _⟩

theorem step_of_finished (h : s.mode = .finished) (op : Op) :
    (s.step op).mode = .finished ∧ (s.step op).written = s.written := by
  refine ⟨?_, written_step_of_finished h op⟩
  have hidle : s.mode ≠ .idle := fun hidle => absurd (h.symm.trans hidle) nofun
  have hsse : s.mode ≠ .sse := fun hsse => absurd (h.symm.trans hsse) nofun
  have hpayload (payload : Bytes) : (s.appendSsePayload payload).1.mode = .finished := by
    rw [appendSsePayload, if_pos hsse, h]
  cases op with
  | startUnary statusCode headers body => rw [step, startUnary, if_pos hidle, h]
  | startSse statusCode headers => rw [step, startSse, if_pos hidle, h]
  | writeEvent event data id => exact hpayload _
  | writeComment comment => exact hpayload _
  | writeRetry retryMs => exact hpayload _
  | finish => rw [step, finish, if_pos h, h]
  | drainTo => exact h

theorem written_run_of_finished (h : s.mode = .finished) (ops : List Op) : (Runs.run step s ops).written = s.written := by
  have hkeeps (t : WireWriter) (op : Op) (ht : t.mode = .finished ∧ t.written = s.written) :
      (t.step op).mode = .finished ∧ (t.step op).written = s.written := by
    obtain ⟨hmode, hwritten⟩ := step_of_finished ht.1 op
    exact ⟨hmode, hwritten.trans ht.2⟩
  exact (Runs.invariant_of_every_step step hkeeps ⟨h, rfl⟩ ops).2

/-- **An open stream is written payload by payload**, until it is finished. -/
theorem written_run_of_sse (hmode : s.mode = .sse) (ops : List Op) :
    (Runs.run step s ops).written = s.written ++ coded s.framing ops := by
  induction ops generalizing s with
  | nil => cases hframing : s.framing <;> simp [coded, sent]
  | cons op ops ih =>
      cases hop : op.isFinish with
      | false =>
          obtain ⟨hstill, hframing, hwritten⟩ := step_of_sse hmode hop
          rw [Runs.run_cons, ih hstill, hwritten, hframing, List.append_assoc]
          congr 1
          cases s.framing <;> simp [coded, sent, hop]
      | true =>
          cases op with
          | startUnary | startSse | writeEvent | writeComment | writeRetry | drainTo => cases hop
          | finish =>
              have hidle : s.mode ≠ .finished := fun hidle => absurd (hmode.symm.trans hidle) nofun
              have hended : (s.step .finish).mode = .finished ∧
                  (s.step .finish).written = s.written ++ coded s.framing (.finish :: ops) := by
                rw [step, finish, if_neg hidle, if_neg (not_not.mpr hmode)]
                cases hframing : s.framing <;> simp [coded, sent, written, add, Op.isFinish]
              rw [Runs.run_cons, written_run_of_finished hended.1, hended.2]

/-- A stream is opened where the client has chunks, or may be streamed to without. -/
theorem step_startSse (options : Options) (hstream : options.http11 = true ∨ options.allowSseToHttp10 = true)
    (statusCode : Int32) (headers : Headers) :
    ∃ framing, ((new options).step (.startSse statusCode headers)).mode = .sse ∧
      ((new options).step (.startSse statusCode headers)).framing = framing ∧
      ((new options).step (.startSse statusCode headers)).written =
        (streamHead options framing statusCode headers).render := by
  have hidle : ¬ (new options).mode ≠ .idle := not_not.mpr rfl
  cases hversion : options.http11 with
  | true =>
      have hnewer : (new options).options.http11 = true := hversion
      refine ⟨options.framing, ?_⟩
      rw [step, startSse, if_neg hidle, if_pos hnewer, openStream_eq]
      exact ⟨rfl, rfl, rfl⟩
  | false =>
      have holder : ¬ (new options).options.http11 = true := by
        rw [new, hversion]
        decide
      have hallow : ¬ (!(new options).options.allowSseToHttp10) = true := by
        rw [new, hstream.resolve_left (by rw [hversion]; decide)]
        decide
      refine ⟨.closeDelimited, ?_⟩
      rw [step, startSse, if_neg hidle, if_neg holder, if_neg hallow, openStream_eq]
      exact ⟨rfl, rfl, rfl⟩

/-- What a head says of the way from a body on the wire to the body itself. A stream that was not finished lacks its last
chunk. -/
def Decodes (headers : Headers) (finished : Bool) (wire body : Bytes) : Prop :=
  framings headers = [(ascii "Transfer-Encoding", ascii "chunked")] ∧
      Chunking.decode (wire ++ if finished then [] else Chunking.lastChunk) = some (body, []) ∨
    framings headers = [] ∧ wire = body

theorem decodes_coded (options : Options) (framing : Framing) (statusCode : Int32) (headers : Headers) (ops : List Op) :
    Decodes (streamHead options framing statusCode headers).headers (ops.any Op.isFinish) (coded framing ops)
      (sent ops).flatten := by
  have hframings := framings_streamHead options framing statusCode headers
  cases framing with
  | closeDelimited => exact Or.inr ⟨hframings, rfl⟩
  | chunked =>
      refine Or.inl ⟨hframings, ?_⟩
      have hpayloads : ∀ payload ∈ sent ops, payload ≠ [] := by
        intro payload hmem
        obtain ⟨op, -, hpayload⟩ := List.mem_flatMap.mp hmem
        exact payloads_ne_nil op payload hpayload
      have hended := Chunking.decode_chunks hpayloads []
      rw [List.append_nil] at hended
      rw [coded, List.append_assoc, ← hended]
      cases ops.any Op.isFinish <;> rfl

/-- An event, a comment and what comes too late. -/
def shortStream : List Op :=
  [.writeEvent (ascii "message") (ascii "\x7b\x7d") (some (ascii "s:1")), .drainTo, .writeComment (ascii "x"),
    .finish, .writeRetry 5]

end WireWriter

end GopherMcp
