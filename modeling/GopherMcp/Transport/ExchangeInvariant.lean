import GopherMcp.Transport.RequestExchange

/-!
# What holds of every exchange

The invariant has four parts that share few fields: what has been handed to the sink, which ids were
minted, what is being kept, and which observers are waiting. Each operation touches one part or two,
so it is described once by the fields it changes, and each part is then kept by a short argument.
-/

namespace GopherMcp

namespace RequestExchange

variable {x : RequestExchange} {shared : ReplayAccounting}

/-! ### The parts -/

/-- A stream: its head, and behind it nothing that opens an answer. -/
def Streamed (handed : List Handed) : Prop :=
  ∃ statusCode headers rest, handed = .streamHead statusCode headers :: rest ∧
    ∀ item ∈ rest, item.isHead = false

/-- One answer, and nothing else. -/
def Answered (handed : List Handed) : Prop := ∃ answer, answer.isAnswer = true ∧ handed = [answer]

structure OneAnswer (mode : Mode) (handed : List Handed) (firstByteWritten : Bool)
    (streamWriter : Option ResponseWriter) : Prop where
  opened : mode = .opened → handed = [] ∧ streamWriter = none
  stream : mode = .stream → Streamed handed
  shape : handed = [] ∨ Answered handed ∨ Streamed handed
  begun : handed ≠ [] → firstByteWritten = true
  drained : ∀ writer ∈ streamWriter, writer.out = []
  told : ∀ writer ∈ streamWriter,
    writer.toldFinished ≤ 1 ∧ (mode = .stream → writer.toldFinished = 0)

structure Numbered (minted : List (Nat × Bytes)) (nextSequence : Nat) : Prop where
  positive : 0 < nextSequence
  sequences : minted.map Prod.fst = List.range' 1 (nextSequence - 1)
  ids : ∀ entry ∈ minted, ∃ streamId, entry.2 = mintedId streamId entry.1

structure Keeping (replay kept written : List RetainedEvent) (limit : Nat) (streamId : Bytes)
    (detached released : Bool) : Prop where
  newest : replay = kept.rtake limit
  suffix : kept <:+ written
  wanted : kept ≠ [] → streamId ≠ [] ∨ detached = true
  whole : streamId ≠ [] → released = false → kept = written

/-- How often an observer was run or is waiting to be. -/
def times (x : RequestExchange) (observer : Nat) : Nat :=
  x.ran.count observer + x.cancellation.observers.count observer +
    x.completionObserver.toList.count observer + x.connectionGoneObserver.toList.count observer

def Once (x : RequestExchange) : Prop :=
  ∀ observer, x.times observer ≤ if observer < x.registered then 1 else 0

structure Sound (x : RequestExchange) : Prop where
  answer : OneAnswer x.mode x.handed x.firstByteWritten x.streamWriter
  numbered : Numbered x.minted x.nextSequence
  keeping : Keeping x.replay x.kept x.written x.retainedEventLimit x.streamId x.detached x.released
  once : Once x

theorem sound_create (sink : Sink) (id : Option RequestId) : Sound (create sink id) where
  answer := by
    refine ⟨fun _ => ⟨rfl, rfl⟩, fun h => ?_, Or.inl rfl, fun h => absurd rfl h, ?_, ?_⟩
    · simp [create] at h
    · simp [create]
    · simp [create]
  numbered := ⟨Nat.one_pos, rfl, by simp [create]⟩
  keeping := ⟨by simp [create, List.rtake], List.suffix_refl _, fun h => absurd rfl h, fun _ _ => rfl⟩
  once observer := by simp [times, create]

/-! ### What each function changes -/

theorem setPhase_eq (x : RequestExchange) (phase : Phase) :
    ∃ phase', (x.setPhase phase).2 = { x with phase := phase' } := by
  unfold setPhase
  split_ifs
  · exact ⟨x.phase, rfl⟩
  · exact ⟨phase, rfl⟩

/-- An answer is refused, or it is the first thing handed over and the last. -/
theorem respondJson_cases (x : RequestExchange) (body : Bytes) :
    (x.respondJson body).2 = x ∨
    ∃ answer phase, x.mode = .opened ∧ answer.isAnswer = true ∧
      (x.respondJson body).2 =
        { x with
          mode := .complete
          phase := phase
          firstByteWritten := true
          handed := x.handed ++ [answer] } := by
  unfold respondJson
  split_ifs with hmode hframing
  · exact Or.inl rfl
  · obtain ⟨phase, hphase⟩ := setPhase_eq { x.handOver [.unary x.statusCode
      (x.headersFor (ascii "application/json")) body] with mode := .complete } .respondingJson
    exact Or.inr ⟨_, phase, not_not.mp hmode, rfl, hphase⟩
  · obtain ⟨phase, hphase⟩ :=
      setPhase_eq { x.handOver [.bare body] with mode := .complete } .respondingJson
    exact Or.inr ⟨_, phase, not_not.mp hmode, rfl, hphase⟩

theorem respondUnary_cases (x : RequestExchange) (contentType body : Bytes) :
    (x.respondUnary contentType body).2 = x ∨
    ∃ answer, x.mode = .opened ∧ answer.isAnswer = true ∧
      (x.respondUnary contentType body).2 =
        { x with
          mode := .complete
          firstByteWritten := true
          handed := x.handed ++ [answer] } := by
  unfold respondUnary
  split_ifs with hmode
  · exact Or.inl rfl
  · exact Or.inr ⟨_, not_not.mp hmode, rfl, rfl⟩

/-- A stream is refused for good, refused with an answer in its place, or begun. -/
theorem beginStream_cases (x : RequestExchange) :
    x.beginStream.2 = x ∨
    (∃ answer, x.mode = .opened ∧ answer.isAnswer = true ∧ x.beginStream.2 =
      { x with
        mode := .complete
        firstByteWritten := true
        handed := x.handed ++ [answer]
        streamWriter := none }) ∨
    ∃ statusCode headers writer, x.mode = .opened ∧ writer.out = [] ∧ writer.toldFinished = 0 ∧
      x.beginStream.2 =
        { x with
          mode := .stream
          firstByteWritten := true
          handed := x.handed ++ [.streamHead statusCode headers]
          streamWriter := some writer } := by
  by_cases hmode : x.mode = .opened
  · by_cases hold : !x.writerOptions.http11 && !x.writerOptions.allowSseToHttp10
    · refine Or.inr (Or.inl ⟨.unary 406 [(ascii "Content-Type", ascii "application/json")]
        (ascii "\x7b\"error\":\"event_stream_requires_http_1_1\"\x7d"), hmode, rfl, ?_⟩)
      simp [beginStream, hmode, ResponseWriter.startSse, hold, ResponseWriter.startUnary,
        ResponseWriter.drain, handOver, pass]
    · refine Or.inr (Or.inr ⟨x.statusCode, x.headersFor [],
        { options := x.writerOptions, mode := .sse, observer := x.streamObserver },
        hmode, rfl, rfl, ?_⟩)
      simp [beginStream, hmode, ResponseWriter.startSse, hold, ResponseWriter.drain, handOver, pass]
  · exact Or.inl (by simp [beginStream, hmode])

theorem nameEvent_cases (x : RequestExchange) (id : Option Bytes) :
    (∃ given, id = some given ∧ x.nameEvent id = (given, x)) ∨
    (id = none ∧ x.nameEvent id = (mintedId x.streamId x.nextSequence,
      { x with
        nextSequence := x.nextSequence + 1
        minted := x.minted ++ [(x.nextSequence, mintedId x.streamId x.nextSequence)] })) := by
  cases id with
  | none => exact Or.inr ⟨rfl, rfl⟩
  | some given => exact Or.inl ⟨given, rfl, rfl⟩

/-- Framing takes nothing from the exchange but what its writer holds. -/
theorem frame_cases (x : RequestExchange) (payload : Handed) :
    x.frame payload = (none, x) ∨
    ∃ writer, x.streamWriter = some writer ∧ x.frame payload =
      (some (writer.out ++ [payload]), { x with streamWriter := some { writer with out := [] } }) := by
  cases hwriter : x.streamWriter with
  | none =>
      left
      simp only [frame]
      split
      · rfl
      · simp_all
  | some writer =>
      have hsame : { x with streamWriter := some writer } = x := by rw [← hwriter]
      by_cases hmode : writer.mode = .sse
      · right
        refine ⟨writer, rfl, ?_⟩
        unfold frame
        rw [hwriter]
        simp [ResponseWriter.appendSsePayload, hmode, ResponseWriter.drain]
      · left
        unfold frame
        rw [hwriter]
        simp [ResponseWriter.appendSsePayload, hmode, hsame]

/-! ### Keeping events -/

/-- The counters while an exchange holds these events, and others hold the rest. -/
def holding (events bytes : Nat) (held : List RetainedEvent) : ReplayAccounting :=
  ⟨events + held.length, bytes + (held.map RetainedEvent.size).sum, false⟩

theorem giveBack_holding (events bytes : Nat) (oldest : RetainedEvent) (rest : List RetainedEvent) :
    (holding events bytes (oldest :: rest)).giveBack oldest = holding events bytes rest := by
  simp only [ReplayAccounting.giveBack, holding, fetchSub, List.length_cons, List.map_cons,
    List.sum_cons, ReplayAccounting.mk.injEq]
  refine ⟨?_, ?_, ?_⟩
  · rw [if_pos (by omega)]
    omega
  · rw [if_pos (by omega)]
    omega
  · simp only [Bool.false_or, Bool.or_eq_false_iff, decide_eq_false_iff_not]
    omega

theorem charge_holding (events bytes : Nat) (held : List RetainedEvent) (record : RetainedEvent) :
    (holding events bytes held).charge record = holding events bytes (held ++ [record]) := by
  simp [ReplayAccounting.charge, holding, Nat.add_assoc]

theorem foldl_giveBack_holding (events bytes : Nat) (held : List RetainedEvent) :
    held.foldl ReplayAccounting.giveBack (holding events bytes held) = holding events bytes [] := by
  induction held with
  | nil => rfl
  | cons oldest rest ih => rw [List.foldl_cons, giveBack_holding, ih]

/-- The events of an exchange that count: all it keeps, where there is accounting. -/
def counted (x : RequestExchange) : List RetainedEvent := if x.accounting then x.replay else []

theorem makeRoom_fst (limit : Nat) (accounted : Bool) (events : List RetainedEvent)
    (shared : ReplayAccounting) :
    (makeRoom limit accounted events shared).1 = events.drop (events.length + 1 - limit) := by
  induction events generalizing shared with
  | nil => rw [makeRoom, List.drop_nil]
  | cons oldest rest ih =>
      rw [makeRoom]
      by_cases hfull : limit ≤ rest.length + 1
      · rw [if_pos hfull]
        have hcount : (oldest :: rest).length + 1 - limit = rest.length + 1 - limit + 1 := by
          rw [List.length_cons]
          omega
        rw [hcount, List.drop_succ_cons]
        exact ih _
      · rw [if_neg hfull]
        have hcount : (oldest :: rest).length + 1 - limit = 0 := by
          rw [List.length_cons]
          omega
        rw [hcount, List.drop_zero]

theorem makeRoom_holding (limit events bytes : Nat) (replay : List RetainedEvent) :
    (makeRoom limit true replay (holding events bytes replay)).2.2 =
      holding events bytes (makeRoom limit true replay (holding events bytes replay)).1 := by
  induction replay with
  | nil => rfl
  | cons oldest rest ih =>
      rw [makeRoom]
      by_cases hfull : limit ≤ rest.length + 1
      · rw [if_pos hfull, if_pos rfl, giveBack_holding]
        exact ih
      · rw [if_neg hfull]

theorem makeRoom_unaccounted (limit : Nat) (replay : List RetainedEvent)
    (shared : ReplayAccounting) : (makeRoom limit false replay shared).2.2 = shared := by
  induction replay with
  | nil => rfl
  | cons oldest rest ih =>
      rw [makeRoom]
      by_cases hfull : limit ≤ rest.length + 1
      · rw [if_pos hfull, if_neg Bool.false_ne_true]
        exact ih
      · rw [if_neg hfull]

/-- The buffer holds the newest events before and after one more is kept. -/
theorem drop_rtake_append {limit : Nat} (hlimit : limit ≠ 0) (kept : List RetainedEvent)
    (record : RetainedEvent) :
    (kept.rtake limit).drop ((kept.rtake limit).length + 1 - limit) ++ [record] =
      (kept ++ [record]).rtake limit := by
  unfold List.rtake
  rw [List.length_drop, List.drop_drop, List.length_append, List.length_singleton,
    List.drop_append_of_le_length (by omega)]
  congr 2
  omega

theorem retainEvent_cases (x : RequestExchange) (shared : ReplayAccounting)
    (record : RetainedEvent) (hkeeping : x.replay = x.kept.rtake x.retainedEventLimit) :
    ∃ dropped, (x.retainEvent shared record).1 =
      { x with
        replay := (x.kept ++ [record]).rtake x.retainedEventLimit
        droppedEvents := dropped
        kept := x.kept ++ [record] } := by
  unfold retainEvent
  by_cases hlimit : x.retainedEventLimit = 0
  · refine ⟨x.droppedEvents + 1, ?_⟩
    have hnone : (x.kept ++ [record]).rtake x.retainedEventLimit = x.replay := by
      simp [hkeeping, hlimit, List.rtake]
    rw [if_pos hlimit, hnone]
  · refine ⟨x.droppedEvents +
      (makeRoom x.retainedEventLimit x.accounting x.replay shared).2.1, ?_⟩
    rw [if_neg hlimit, ← drop_rtake_append hlimit, ← hkeeping,
      ← makeRoom_fst x.retainedEventLimit x.accounting x.replay shared]

theorem retainEvent_counted (x : RequestExchange) (events bytes : Nat) (record : RetainedEvent) :
    (x.retainEvent (holding events bytes x.counted) record).2 =
      holding events bytes (x.retainEvent (holding events bytes x.counted) record).1.counted := by
  unfold retainEvent
  by_cases hlimit : x.retainedEventLimit = 0
  · rw [if_pos hlimit]
    rfl
  · rw [if_neg hlimit]
    cases haccounting : x.accounting with
    | true => simp [counted, haccounting, makeRoom_holding, charge_holding]
    | false => simp [counted, haccounting, makeRoom_unaccounted]

theorem record_cases (x : RequestExchange) (shared : ReplayAccounting) (event : RetainedEvent)
    (hkeeping : x.replay = x.kept.rtake x.retainedEventLimit) :
    ∃ replay dropped kept observed, (x.record shared event).1 =
        { x with
          replay := replay
          droppedEvents := dropped
          kept := kept
          written := x.written ++ [event]
          observed := observed } ∧
      ((x.streamId ≠ [] ∨ x.detached = true) ∧ kept = x.kept ++ [event] ∧
          replay = kept.rtake x.retainedEventLimit ∨
        (x.streamId = [] ∧ x.detached = false) ∧ kept = x.kept ∧ replay = x.replay) := by
  unfold record
  by_cases hwanted : (x.resumable || x.detached) = true
  · rw [if_pos (by simpa [resumable] using hwanted)]
    obtain ⟨dropped, hretained⟩ := retainEvent_cases
      { x with
        written := x.written ++ [event]
        observed := if x.eventObserver then x.observed ++ [event] else x.observed }
      shared event hkeeping
    refine ⟨_, dropped, _, _, hretained, Or.inl ⟨?_, rfl, rfl⟩⟩
    simpa [resumable] using hwanted
  · rw [if_neg (by simpa [resumable] using hwanted)]
    refine ⟨_, _, _, _, rfl, Or.inr ⟨?_, rfl, rfl⟩⟩
    simpa [resumable] using hwanted

theorem record_counted (x : RequestExchange) (events bytes : Nat) (event : RetainedEvent) :
    (x.record (holding events bytes x.counted) event).2 =
      holding events bytes (x.record (holding events bytes x.counted) event).1.counted := by
  unfold record
  by_cases hwanted : (x.resumable || x.detached) = true
  · rw [if_pos hwanted]
    exact retainEvent_counted _ events bytes event
  · rw [if_neg hwanted]
    rfl

/-- An event is refused, or recorded; what is recorded is then handed over or not. -/
theorem writeEvent_cases (x : RequestExchange) (shared : ReplayAccounting) (event data : Bytes)
    (id : Option Bytes) :
    (x.writeEvent shared event data id).2 = (x, shared) ∨
    x.mode = .stream ∧ ∃ y left,
      (x.nameEvent id).2.record shared ⟨(x.nameEvent id).1, event, data⟩ = (y, left) ∧
      ((x.writeEvent shared event data id).2 = (y, left) ∨
        ∃ writer item, y.streamWriter = some writer ∧ item.isHead = false ∧
          (x.writeEvent shared event data id).2 =
            ({ y with
                firstByteWritten := true
                handed := y.handed ++ (writer.out ++ [item])
                streamWriter := some { writer with out := [] } }, left)) := by
  by_cases hmode : x.mode = .stream
  · refine Or.inr ⟨hmode, ?_⟩
    unfold writeEvent
    rw [if_neg (not_not.mpr hmode)]
    set recorded := (x.nameEvent id).2.record shared ⟨(x.nameEvent id).1, event, data⟩ with hrecorded
    refine ⟨recorded.1, recorded.2, rfl, ?_⟩
    by_cases hdetached : recorded.1.detached = true
    · exact Or.inl (by simp [← hrecorded, hdetached])
    · rcases frame_cases recorded.1 (.event event data
        (if recorded.1.resumable then some (x.nameEvent id).1 else none)) with
        hframe | ⟨writer, hwriter, hframe⟩
      · exact Or.inl (by simp [← hrecorded, hdetached, hframe])
      · refine Or.inr ⟨writer, .event event data
          (if recorded.1.resumable then some (x.nameEvent id).1 else none), hwriter, rfl, ?_⟩
        simp [← hrecorded, hdetached, hframe, handOver, pass]
  · exact Or.inl (by simp [writeEvent, hmode])

/-- Nothing happens, or an open stream hands over one thing more that opens no answer. -/
def Passed (x y : RequestExchange) : Prop :=
  y = x ∨ ∃ writer item, x.mode = .stream ∧ x.streamWriter = some writer ∧ item.isHead = false ∧
    y = { x with
      handed := x.handed ++ (writer.out ++ [item])
      streamWriter := some { writer with out := [] } }

theorem passed_writeComment (x : RequestExchange) (comment : Bytes) :
    Passed x (x.writeComment comment).2 := by
  unfold writeComment
  split_ifs with hclosed hdetached
  · exact Or.inl rfl
  · exact Or.inl rfl
  · have hmode : x.mode = .stream := not_not.mp fun hmode => hclosed (Or.inl hmode)
    rcases frame_cases x (.comment comment) with hframe | ⟨writer, hwriter, hframe⟩
    · exact Or.inl (by rw [hframe])
    · exact Or.inr ⟨writer, .comment comment, hmode, hwriter, rfl, by rw [hframe]; rfl⟩

theorem passed_writeRetry (x : RequestExchange) (milliseconds : Int) :
    Passed x (x.writeRetry milliseconds).2 := by
  unfold writeRetry
  split_ifs with hclosed
  · exact Or.inl rfl
  · have hmode : x.mode = .stream := not_not.mp fun hmode => hclosed (Or.inl hmode)
    rcases frame_cases x (.retry (min milliseconds.toNat 0xffffffff)) with
      hframe | ⟨writer, hwriter, hframe⟩
    · exact Or.inl (by rw [hframe])
    · exact Or.inr ⟨writer, .retry _, hmode, hwriter, rfl, by rw [hframe]; rfl⟩

/-! ### The answer -/

section OneAnswer

variable {mode : Mode} {handed : List Handed} {firstByteWritten : Bool}
  {streamWriter : Option ResponseWriter}

theorem OneAnswer.answer (h : OneAnswer mode handed firstByteWritten streamWriter)
    (hopened : mode = .opened) {answer : Handed} (hanswer : answer.isAnswer = true) :
    OneAnswer .complete (handed ++ [answer]) true none where
  opened hmode := by simp at hmode
  stream hmode := by simp at hmode
  shape := by
    rw [(h.opened hopened).1]
    exact Or.inr (Or.inl ⟨answer, hanswer, rfl⟩)
  begun _ := rfl
  drained := by simp
  told := by simp

theorem OneAnswer.begin (h : OneAnswer mode handed firstByteWritten streamWriter)
    (hopened : mode = .opened) (statusCode : Int) (headers : HeaderList) {writer : ResponseWriter}
    (hout : writer.out = []) (htold : writer.toldFinished = 0) :
    OneAnswer .stream (handed ++ [.streamHead statusCode headers]) true (some writer) := by
  have hstreamed : Streamed (handed ++ [.streamHead statusCode headers]) := by
    rw [(h.opened hopened).1]
    exact ⟨statusCode, headers, [], rfl, by simp⟩
  refine ⟨fun hmode => ?_, fun _ => hstreamed, Or.inr (Or.inr hstreamed), fun _ => rfl, ?_, ?_⟩
  · simp at hmode
  · simpa using hout
  · simp [htold]

theorem Streamed.append (h : Streamed handed) {items : List Handed}
    (hitems : ∀ item ∈ items, item.isHead = false) : Streamed (handed ++ items) := by
  obtain ⟨statusCode, headers, rest, rfl, hrest⟩ := h
  refine ⟨statusCode, headers, rest ++ items, rfl, fun item hitem => ?_⟩
  exact (List.mem_append.mp hitem).elim (hrest item) (hitems item)

/-- More of an open stream, and perhaps the end of it. -/
theorem OneAnswer.more (h : OneAnswer mode handed firstByteWritten streamWriter)
    (hstream : mode = .stream) {items : List Handed} (hitems : ∀ item ∈ items, item.isHead = false)
    {mode' : Mode} (hmode' : mode' = .stream ∨ mode' = .complete) {firstByteWritten' : Bool}
    (hfirst : firstByteWritten = true → firstByteWritten' = true) {writer : ResponseWriter}
    (hout : writer.out = []) (htold : writer.toldFinished ≤ 1)
    (hopen : mode' = .stream → writer.toldFinished = 0) :
    OneAnswer mode' (handed ++ items) firstByteWritten' (some writer) := by
  have hstreamed := h.stream hstream
  refine ⟨fun hmode => ?_, fun _ => hstreamed.append hitems, Or.inr (Or.inr (hstreamed.append hitems)),
    fun _ => hfirst (h.begun ?_), ?_, ?_⟩
  · rcases hmode' with rfl | rfl <;> simp at hmode
  · obtain ⟨statusCode, headers, rest, rfl, -⟩ := hstreamed
    simp
  · simpa using hout
  · simpa using ⟨htold, hopen⟩

theorem OneAnswer.complete (h : OneAnswer mode handed firstByteWritten streamWriter) :
    OneAnswer .complete handed firstByteWritten streamWriter where
  opened hmode := by simp at hmode
  stream hmode := by simp at hmode
  shape := h.shape
  begun := h.begun
  drained := h.drained
  told writer hwriter := ⟨(h.told writer hwriter).1, fun hmode => by simp at hmode⟩

theorem OneAnswer.unobserve (h : OneAnswer mode handed firstByteWritten streamWriter) :
    OneAnswer mode handed firstByteWritten
      (streamWriter.map fun writer => { writer with observer := false }) where
  opened hmode := ⟨(h.opened hmode).1, by simp [(h.opened hmode).2]⟩
  stream := h.stream
  shape := h.shape
  begun := h.begun
  drained writer hwriter := by
    obtain ⟨before, hbefore, rfl⟩ := Option.map_eq_some_iff.mp hwriter
    exact h.drained before hbefore
  told writer hwriter := by
    obtain ⟨before, hbefore, rfl⟩ := Option.map_eq_some_iff.mp hwriter
    exact h.told before hbefore

/-- Nothing opens an answer behind what was answered, and a whole answer stands alone. -/
theorem OneAnswer.once (h : OneAnswer mode handed firstByteWritten streamWriter) :
    handed.countP Handed.isHead ≤ 1 ∧ ∀ answer ∈ handed, answer.isAnswer = true → handed = [answer] := by
  rcases h.shape with rfl | ⟨answer, hanswer, rfl⟩ | ⟨statusCode, headers, rest, rfl, hrest⟩
  · simp
  · refine ⟨List.countP_le_length, fun other hother _ => ?_⟩
    rw [List.mem_singleton.mp hother]
  · have hnone : rest.countP Handed.isHead = 0 :=
      List.countP_eq_zero.mpr fun item hitem => by simp [hrest item hitem]
    refine ⟨?_, fun answer hmem hanswer => ?_⟩
    · rw [List.countP_cons, hnone]
      split_ifs <;> omega
    · rcases List.mem_cons.mp hmem with rfl | hmem
      · simp [Handed.isAnswer] at hanswer
      · have hhead := hrest answer hmem
        cases answer <;> simp_all [Handed.isAnswer, Handed.isHead]

end OneAnswer

/-! ### Numbers and events -/

theorem Numbered.nameEvent (h : Numbered x.minted x.nextSequence) (id : Option Bytes) :
    Numbered (x.nameEvent id).2.minted (x.nameEvent id).2.nextSequence := by
  rcases nameEvent_cases x id with ⟨given, -, hname⟩ | ⟨-, hname⟩
  · rw [hname]
    exact h
  · rw [hname]
    refine ⟨Nat.succ_pos _, ?_, fun entry hentry => ?_⟩
    · have hpositive := h.positive
      have hcount : x.nextSequence + 1 - 1 = x.nextSequence - 1 + 1 := by omega
      rw [List.map_append, h.sequences, hcount, List.range'_concat]
      simp only [List.map_cons, List.map_nil, List.append_cancel_left_eq, List.cons.injEq, and_true]
      omega
    · rcases List.mem_append.mp hentry with hold | hnew
      · exact h.ids entry hold
      · rw [List.mem_singleton.mp hnew]
        exact ⟨x.streamId, rfl⟩

/-- The sequence numbers only go up, and no id is given twice. -/
theorem Numbered.increasing {minted : List (Nat × Bytes)} {nextSequence : Nat}
    (h : Numbered minted nextSequence) :
    (minted.Pairwise fun earlier later => earlier.1 < later.1) ∧ (minted.map Prod.snd).Nodup := by
  have hsorted : (minted.map Prod.fst).Pairwise (· < ·) := by
    rw [h.sequences]
    exact List.pairwise_lt_range'
  have hpairs := List.pairwise_map.mp hsorted
  refine ⟨hpairs, List.pairwise_map.mpr (hpairs.imp_of_mem fun hearlier hlater hlt hsame => ?_)⟩
  obtain ⟨streamId, hid⟩ := h.ids _ hearlier
  obtain ⟨streamId', hid'⟩ := h.ids _ hlater
  rw [hid, hid'] at hsame
  exact hlt.ne (sequence_eq_of_mintedId_eq hsame)

section Keeping

variable {replay kept written : List RetainedEvent} {limit : Nat} {streamId : Bytes}
  {detached released : Bool}

theorem Keeping.add (h : Keeping replay kept written limit streamId detached released)
    (hwanted : streamId ≠ [] ∨ detached = true) (event : RetainedEvent) :
    Keeping ((kept ++ [event]).rtake limit) (kept ++ [event]) (written ++ [event]) limit streamId
      detached released where
  newest := rfl
  suffix := by
    obtain ⟨before, hbefore⟩ := h.suffix
    exact ⟨before, by rw [← List.append_assoc, hbefore]⟩
  wanted _ := hwanted
  whole hname hreleased := by rw [h.whole hname hreleased]

theorem Keeping.skip (h : Keeping replay kept written limit streamId detached released)
    (hunwanted : streamId = [] ∧ detached = false) (event : RetainedEvent) :
    Keeping replay kept (written ++ [event]) limit streamId detached released := by
  have hkept : kept = [] := by
    by_contra hkept
    rcases h.wanted hkept with hname | hdetached
    · exact hname hunwanted.1
    · simp [hunwanted.2] at hdetached
  exact ⟨h.newest, hkept ▸ List.nil_suffix, h.wanted, fun hname => absurd hunwanted.1 hname⟩

theorem Keeping.settle (h : Keeping replay kept [] limit streamId detached released)
    (limit' : Nat) (streamId' : Bytes) :
    Keeping replay kept [] limit' streamId' detached released := by
  have hkept : kept = [] := List.suffix_nil.mp h.suffix
  have hreplay : replay = [] := by simp [h.newest, hkept, List.rtake]
  subst hkept hreplay
  exact ⟨by simp [List.rtake], List.suffix_refl _, fun h => absurd rfl h, fun _ _ => rfl⟩

theorem keeping_released : Keeping [] [] written limit streamId detached true where
  newest := by simp [List.rtake]
  suffix := List.nil_suffix
  wanted hkept := absurd rfl hkept
  whole _ hreleased := by simp at hreleased

theorem Keeping.detach (h : Keeping replay kept written limit streamId detached released) :
    Keeping replay kept written limit streamId true released where
  newest := h.newest
  suffix := h.suffix
  wanted _ := Or.inr rfl
  whole := h.whole

end Keeping

/-! ### Observers -/

theorem Once.of_le {y : RequestExchange} (h : Once x) (hregistered : y.registered = x.registered)
    (htimes : ∀ observer, y.times observer ≤ x.times observer) : Once y := by
  intro observer
  rw [hregistered]
  exact (htimes observer).trans (h observer)

/-- One more observer is registered, and waits in one place or is run. -/
theorem Once.register {y : RequestExchange} (h : Once x)
    (hregistered : y.registered = x.registered + 1)
    (htimes : ∀ observer,
      y.times observer ≤ x.times observer + if observer = x.registered then 1 else 0) :
    Once y := by
  intro observer
  have hbefore := h observer
  have hafter := htimes observer
  rw [hregistered]
  split_ifs at hbefore hafter ⊢ <;> omega

theorem Once.nodup_ran (h : Once x) : x.ran.Nodup := by
  apply List.nodup_iff_count_le_one.mpr
  intro observer
  have hle := h observer
  unfold times at hle
  split_ifs at hle <;> omega

theorem Once.addObserver (h : Once x) : Once x.addObserver := by
  refine h.register rfl fun observer => ?_
  unfold RequestExchange.addObserver CancellationToken.addObserver times
  by_cases hcancelled : x.cancellation.cancelled = true
  · simp only [hcancelled, if_true, List.count_append, List.count_singleton, beq_iff_eq]
    split_ifs <;> omega
  · simp only [hcancelled, Bool.false_eq_true, if_false, List.count_append, List.count_singleton,
      beq_iff_eq, List.append_nil]
    split_ifs <;> omega

theorem Once.cancel (h : Once x) : Once x.cancel := by
  refine h.of_le rfl fun observer => ?_
  unfold RequestExchange.cancel CancellationToken.cancel times
  split_ifs with hcancelled
  · simp
  · simp only [List.count_append, List.count_nil]
    omega

theorem count_newObserver (x : RequestExchange) (given : Bool) (observer : Nat) :
    (x.newObserver given).toList.count observer ≤ if observer = x.registered then 1 else 0 := by
  unfold newObserver
  cases given with
  | false => simp
  | true =>
      simp only [if_true, Option.toList_some, List.count_singleton, beq_iff_eq]
      split_ifs <;> omega

theorem Once.setCompletionObserver (h : Once x) (given : Bool) :
    Once (x.setCompletionObserver given) := by
  refine h.register rfl fun observer => ?_
  have hnew := count_newObserver x given observer
  simp only [RequestExchange.setCompletionObserver, times]
  omega

theorem Once.setConnectionGoneObserver (h : Once x) (given : Bool) :
    Once (x.setConnectionGoneObserver given) := by
  refine h.register rfl fun observer => ?_
  have hnew := count_newObserver x given observer
  simp only [RequestExchange.setConnectionGoneObserver, times]
  omega

theorem Once.announceGone (h : Once x) : Once x.announceGone := by
  refine h.of_le rfl fun observer => ?_
  simp only [RequestExchange.announceGone, runObserver, times, List.count_append, Option.toList_none,
    List.count_nil]
  omega

/-! ### Operations -/

theorem finish_cases (writer : ResponseWriter) :
    writer.finish.2 = writer ∨ ∃ told, told ≤ writer.toldFinished + 1 ∧
      writer.finish.2 =
        { writer with
          mode := .finished, out := writer.out ++ [.streamEnd], toldFinished := told } := by
  unfold ResponseWriter.finish
  by_cases hfinished : writer.mode = .finished
  · exact Or.inl (by rw [if_pos hfinished])
  · by_cases hsse : writer.mode ≠ .sse
    · exact Or.inl (by rw [if_neg hfinished, if_pos hsse])
    · rw [if_neg hfinished, if_neg hsse]
      refine Or.inr ⟨_, ?_, rfl⟩
      split_ifs <;> omega

/-- A stream still open gives what its writer holds and the end of its framing. -/
theorem finishStream_cases (x : RequestExchange) :
    x.finishStream = x ∨ ∃ writer items drained, x.mode = .stream ∧ x.streamWriter = some writer ∧
      (∀ item ∈ items, item ∈ writer.out ∨ item.isHead = false) ∧
      drained.out = [] ∧ drained.toldFinished ≤ writer.toldFinished + 1 ∧
      x.finishStream = { x with handed := x.handed ++ items, streamWriter := some drained } := by
  unfold finishStream
  split
  · next writer hmode hwriter =>
      right
      rcases finish_cases writer with hsame | ⟨told, htold, heq⟩
      · refine ⟨writer, writer.out, { writer with out := [] }, hmode, hwriter,
          fun item hitem => Or.inl hitem, rfl, Nat.le_succ _, ?_⟩
        rw [hsame]
        rfl
      · refine ⟨writer, writer.out ++ [.streamEnd],
          { writer with mode := .finished, out := [], toldFinished := told }, hmode, hwriter,
          fun item hitem => ?_, rfl, htold, ?_⟩
        · rcases List.mem_append.mp hitem with hold | hnew
          · exact Or.inl hold
          · rw [List.mem_singleton.mp hnew]
            exact Or.inr rfl
        · rw [heq]
          rfl
  · exact Or.inl rfl

theorem OneAnswer.finishStream
    (h : OneAnswer x.mode x.handed x.firstByteWritten x.streamWriter) :
    OneAnswer .complete x.finishStream.handed x.finishStream.firstByteWritten
      x.finishStream.streamWriter := by
  rcases finishStream_cases x with
    hsame | ⟨writer, items, drained, hmode, hwriter, hitems, hout, htold, heq⟩
  · rw [hsame]
    exact h.complete
  · rw [heq]
    have hopen := (h.told writer hwriter).2 hmode
    refine h.more hmode (fun item hitem => ?_) (Or.inr rfl) id hout (by omega)
      (fun hmode => by simp at hmode)
    rcases hitems item hitem with hold | hhead
    · rw [h.drained writer hwriter] at hold
      simp at hold
    · exact hhead

theorem Sound.complete (h : Sound x) : Sound x.complete.2 := by
  unfold RequestExchange.complete
  split_ifs with hdone
  · exact h
  · have hanswer := h.answer.finishStream
    rcases finishStream_cases x with
      hsame | ⟨-, items, drained, -, -, -, -, -, heq⟩
    · rw [hsame] at hanswer ⊢
      refine ⟨hanswer, h.numbered, h.keeping, h.once.of_le rfl fun observer => ?_⟩
      simp only [runObserver, times, List.count_append, Option.toList_none, List.count_nil]
      omega
    · rw [heq] at hanswer ⊢
      refine ⟨hanswer, h.numbered, h.keeping, h.once.of_le rfl fun observer => ?_⟩
      simp only [runObserver, times, List.count_append, Option.toList_none, List.count_nil]
      omega

theorem Sound.unobserveStream (h : Sound x) : Sound x.unobserveStream :=
  ⟨h.answer.unobserve, h.numbered, h.keeping, h.once⟩

theorem Sound.cancel (h : Sound x) : Sound x.cancel :=
  ⟨h.answer, h.numbered, h.keeping, h.once.cancel⟩

theorem Sound.settleGone (h : Sound x) : Sound x.settleGone.2 := by
  unfold RequestExchange.settleGone
  split_ifs
  · apply Sound.cancel
    apply Sound.unobserveStream
    exact ⟨h.answer, h.numbered, h.keeping, h.once⟩
  · apply Sound.unobserveStream
    exact ⟨h.answer, h.numbered, h.keeping.detach, h.once⟩

end RequestExchange

end GopherMcp
