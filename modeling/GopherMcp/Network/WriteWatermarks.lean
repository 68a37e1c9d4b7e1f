import GopherMcp.Network.OpenConnection

/-!
# The watermarks of writing

The flag goes up where bytes are put in the buffer, and comes down in the loop that has them taken. A transport
that is not raw takes bytes before the loop as well. What it takes there is looked at only if the loop takes
some more: if nothing is left, or the loop takes none, the flag stays up however little is left.
-/

namespace GopherMcp

namespace OpenConnection

/-! ### What is promised of the flag -/

/-- The note a callback hears in turn, above-high first. -/
def noteAt (turn : Nat) : WatermarkNote := if turn % 2 = 0 then .aboveHigh else .belowLow

/-- A callback heard the notes in turn, and the flag is up between an above-high and a below-low. -/
def Hears (above : Bool) (notes : List WatermarkNote) : Prop :=
  notes = (List.range notes.length).map noteAt ∧ (above = true ↔ notes.length % 2 = 1)

/-- With more than the limit in the buffer the flag is up, with less than half of it the flag is down, and every
callback was told in turn. -/
def Flows (limit : Nat) (s : OpenConnection) : Prop :=
  s.closing = false →
    (limit < s.writeBuffer.length → s.aboveHighWatermark = true) ∧
      (s.writeBuffer.length < limit / 2 → s.aboveHighWatermark = false) ∧
      ∀ notes ∈ s.heard, Hears s.aboveHighWatermark notes

/-! ### The condition -/

/-- The loop takes something, or closes the connection. -/
def LoopMoves : List WriteAnswer → Prop
  | [] => False
  | .fails :: _ => True
  | .takes bytes :: _ => bytes ≠ 0

/-- What the transport takes before the loop, while the flag is up, leaves at least half of the limit, or something
that the loop takes from. -/
def LowSeen (above : Bool) (length limit : Nat) : List WriteAnswer → Prop
  | .takes bytes :: rest => above = true → length - bytes < limit / 2 → length - bytes ≠ 0 ∧ LoopMoves rest
  | _ => True

/-- A raw transport takes nothing before the loop. -/
def FlushSeen (s : OpenConnection) (above : Bool) (length : Nat) (answers : List WriteAnswer) : Prop :=
  s.transport ≠ .raw → LowSeen above length s.highWatermark.toNat answers

/-- Whenever bytes are asked to be taken, it is seen if the flag is to come down. -/
def Seen (s : OpenConnection) : Op → Prop
  | .leaveWrite (some data) answers =>
      s.entered ≠ 0 → (s.writeReady || s.transport == .stdio) = true →
        FlushSeen s (s.aboveHighWatermark || s.highWatermark.toNat < (s.writeBuffer ++ data).length)
          (s.writeBuffer ++ data).length answers
  | .writeEvent answers | .raiseConnected answers | .flushWriteBuffer answers =>
      FlushSeen s s.aboveHighWatermark s.writeBuffer.length answers
  | .enterWrite _ | .leaveWrite none _ | .readDisable _ | .close => True

variable {s t : OpenConnection} {limit : Nat} {answers : List WriteAnswer}

/-! ### Telling the callbacks -/

theorem hears_tell {above : Bool} {notes : List WatermarkNote} (h : Hears above notes) :
    Hears (!above) (notes ++ [if above then .belowLow else .aboveHigh]) := by
  obtain ⟨hnotes, hflag⟩ := h
  have hturn : noteAt notes.length = if above then .belowLow else .aboveHigh := by
    unfold noteAt
    cases above with
    | true =>
        have hodd := hflag.mp rfl
        rw [if_neg (by omega), if_pos rfl]
    | false =>
        have heven : ¬ notes.length % 2 = 1 := fun hodd => Bool.noConfusion (hflag.mpr hodd)
        rw [if_pos (by omega), if_neg Bool.false_ne_true]
  constructor
  · rw [List.length_append, List.length_singleton, List.range_succ, List.map_append, ← hnotes, List.map_singleton,
      hturn]
  · rw [List.length_append, List.length_singleton, Bool.not_eq_true', ← Bool.not_eq_true, hflag]
    omega

/-- The flag is up with more than the high mark in the buffer, and the callbacks were told in turn. -/
structure Raised (limit : Nat) (s : OpenConnection) : Prop where
  marks : s.highWatermark.toNat = limit ∧ s.lowWatermark.toNat = limit / 2
  high : limit < s.writeBuffer.length → s.aboveHighWatermark = true
  heard : ∀ notes ∈ s.heard, Hears s.aboveHighWatermark notes

/-- And it is down with less than the low mark. -/
structure Right (limit : Nat) (s : OpenConnection) : Prop extends Raised limit s where
  low : s.writeBuffer.length < limit / 2 → s.aboveHighWatermark = false

theorem heard_tell {note : WatermarkNote} (hheard : ∀ notes ∈ s.heard, Hears s.aboveHighWatermark notes)
    (hnote : note = if s.aboveHighWatermark then .belowLow else .aboveHigh) :
    ∀ notes ∈ (s.tell (!s.aboveHighWatermark) note).heard, Hears (!s.aboveHighWatermark) notes := by
  intro notes hnotes
  obtain ⟨before, hbefore, rfl⟩ := List.mem_map.mp hnotes
  rw [hnote]
  exact hears_tell (hheard before hbefore)

theorem right_checkLow (h : Raised limit s) : Right limit s.checkLow := by
  unfold checkLow
  by_cases hlow : (s.aboveHighWatermark && s.writeBuffer.length < s.lowWatermark.toNat) = true
  · rw [if_pos hlow]
    rw [Bool.and_eq_true, decide_eq_true_eq, h.marks.2] at hlow
    have hdown : (!s.aboveHighWatermark) = false := by rw [hlow.1]; rfl
    have htold := @heard_tell s .belowLow h.heard (by rw [hlow.1]; rfl)
    rw [hdown] at htold
    refine ⟨⟨h.marks, fun hmore => ?_, htold⟩, fun _ => rfl⟩
    have hlength : limit < s.writeBuffer.length := hmore
    omega
  · rw [if_neg hlow]
    refine ⟨h, fun hless => ?_⟩
    rw [Bool.and_eq_true, decide_eq_true_eq, h.marks.2, not_and] at hlow
    cases habove : s.aboveHighWatermark with
    | false => rfl
    | true => exact absurd hless (hlow habove)

theorem raised_drain (h : Raised limit s) (bytes : Nat) : Raised limit (s.drain bytes) := by
  refine ⟨h.marks, fun hmore => h.high ?_, h.heard⟩
  rw [length_drain] at hmore
  omega

theorem Right.enableFileEvents (h : Right limit s) (events : FileInterest) :
    Right limit (s.enableFileEvents events) := { h with }

/-! ### Asking for bytes to be taken -/

/-- The loop looks after what it takes; the induction is on the answers. -/
theorem right_writeLoop (h : Right limit s) : Right limit (s.writeLoop answers) := by
  induction answers generalizing s with
  | nil => exact h.enableFileEvents _
  | cons answer rest ih =>
      cases answer with
      | fails => exact { h with }
      | takes bytes =>
          have htaken := right_checkLow (raised_drain h.toRaised bytes)
          unfold writeLoop
          dsimp only
          split_ifs
          · exact h.enableFileEvents _
          · exact htaken
          · exact ih htaken

/-- If the loop moves, what was taken before it is seen as well. -/
theorem right_writeLoop_of_moves (h : Raised limit s) (hmoves : LoopMoves answers)
    (hopen : (s.writeLoop answers).closing = false) : Right limit (s.writeLoop answers) := by
  cases answers with
  | nil => exact hmoves.elim
  | cons answer rest =>
      cases answer with
      | fails => exact Bool.noConfusion hopen
      | takes bytes =>
          have htaken := right_checkLow (raised_drain h bytes)
          unfold writeLoop
          rw [if_neg hmoves]
          dsimp only
          split_ifs
          · exact htaken
          · exact right_writeLoop htaken

theorem right_writeRest (h : Right limit s) : Right limit (s.writeRest answers) := by
  unfold writeRest
  dsimp only
  split_ifs
  · exact h.enableFileEvents _
  · exact (right_writeLoop h).enableFileEvents _
  · exact right_writeLoop h

/-- What the loop finds below the low mark with the flag up stays so if it does not move. -/
theorem writeLoop_of_not_moves (hmoves : ¬ LoopMoves answers) :
    s.writeLoop answers = s.enableFileEvents ⟨false, true⟩ := by
  cases answers with
  | nil => rfl
  | cons answer rest =>
      cases answer with
      | fails => exact absurd trivial hmoves
      | takes bytes =>
          unfold writeLoop
          exact if_pos (not_not.mp hmoves)

/-- **What is left below the low mark with the flag up** before the loop is seen just if there is something left,
and the loop moves. -/
theorem right_writeRest_iff (h : Raised limit s) (hopen : s.closing = false)
    (hlow : s.writeBuffer.length < limit / 2) (habove : s.aboveHighWatermark = true) :
    ((s.writeRest answers).closing = false → Right limit (s.writeRest answers)) ↔
      s.writeBuffer.length ≠ 0 ∧ LoopMoves answers := by
  have hwrong (events : FileInterest) : ¬ Right limit (s.enableFileEvents events) := fun hright =>
    Bool.noConfusion (habove.symm.trans (hright.low hlow))
  unfold writeRest
  by_cases hempty : s.writeBuffer.isEmpty = true
  · have hzero : s.writeBuffer.length = 0 := List.isEmpty_iff_length_eq_zero.mp hempty
    rw [if_pos hempty]
    exact iff_of_false (fun hright => hwrong _ (hright hopen)) fun hsome => hsome.1 hzero
  · have hsome : s.writeBuffer.length ≠ 0 := fun hzero => hempty (List.isEmpty_iff_length_eq_zero.mpr hzero)
    rw [if_neg hempty, and_iff_right hsome]
    dsimp only
    by_cases hmoves : LoopMoves answers
    · refine iff_of_true (fun hstays => ?_) hmoves
      split_ifs at hstays ⊢
      · exact (right_writeLoop_of_moves h hmoves hstays).enableFileEvents _
      · exact right_writeLoop_of_moves h hmoves hstays
    · rw [writeLoop_of_not_moves hmoves]
      have hmore : ¬ ((s.enableFileEvents ⟨false, true⟩).writeBuffer.isEmpty &&
          !(s.enableFileEvents ⟨false, true⟩).closing) = true := by
        rw [Bool.and_eq_true]
        exact fun hboth => hempty hboth.1
      rw [if_neg hmore]
      exact iff_of_false (fun hright => hwrong _ (hright hopen)) hmoves

/-- **The flag after the transport and the socket were asked** is right just if it is seen that it is to come
down. -/
theorem right_doWrite_iff (h : Right limit s) (hopen : s.closing = false) :
    ((s.doWrite answers).closing = false → Right limit (s.doWrite answers)) ↔
      FlushSeen s s.aboveHighWatermark s.writeBuffer.length answers := by
  have hfirst : ((s.askFirst answers).closing = false → Right limit (s.askFirst answers)) ↔
      LowSeen s.aboveHighWatermark s.writeBuffer.length limit answers := by
    cases answers with
    | nil => exact iff_of_true (fun _ => right_writeRest h) trivial
    | cons answer rest =>
        cases answer with
        | fails => exact iff_of_true (fun hstays => Bool.noConfusion hstays) trivial
        | takes bytes =>
            by_cases hlow : s.aboveHighWatermark = true ∧ s.writeBuffer.length - bytes < limit / 2
            · have hless : (s.drain bytes).writeBuffer.length < limit / 2 := by
                rw [length_drain]
                exact hlow.2
              have hrest := @right_writeRest_iff (s.drain bytes) limit rest (raised_drain h.toRaised bytes)
                hopen hless hlow.1
              rw [length_drain] at hrest
              exact hrest.trans ⟨fun hseen _ _ => hseen, fun hseen => hseen hlow.1 hlow.2⟩
            · refine iff_of_true (fun _ => right_writeRest ⟨raised_drain h.toRaised bytes, fun hless => ?_⟩) ?_
              · rw [length_drain] at hless
                cases habove : s.aboveHighWatermark with
                | false => exact habove
                | true => exact absurd ⟨habove, hless⟩ hlow
              · exact fun habove hless => absurd ⟨habove, hless⟩ hlow
  unfold doWrite FlushSeen
  rw [h.marks.1]
  cases s.transport with
  | raw => exact iff_of_true (fun _ => right_writeRest h) fun hnot => absurd rfl hnot
  | stdio => rw [hfirst, forall_prop_of_true (by decide)]
  | other => rw [hfirst, forall_prop_of_true (by decide)]

/-! ### One operation -/

/-- More in the buffer, and the flag is up if it is to be. -/
theorem right_put (h : Right limit s) (data : Bytes) :
    Right limit (s.put data) ∧
      (s.put data).aboveHighWatermark =
        (s.aboveHighWatermark || s.highWatermark.toNat < (s.writeBuffer ++ data).length) := by
  have hlength : (s.writeBuffer ++ data).length = s.writeBuffer.length + data.length := List.length_append
  let more : OpenConnection := { s with writeBuffer := s.writeBuffer ++ data }
  unfold put checkHigh
  by_cases hraise : (more.highWatermark.toNat < more.writeBuffer.length && !more.aboveHighWatermark) = true
  · rw [if_pos hraise]
    rw [Bool.and_eq_true, decide_eq_true_eq, Bool.not_eq_true'] at hraise
    obtain ⟨hmore, hdown⟩ := hraise
    have hup : (!more.aboveHighWatermark) = true := by rw [hdown]; rfl
    have htold := @heard_tell more .aboveHigh h.heard (by rw [hdown]; rfl)
    rw [hup] at htold
    refine ⟨⟨⟨h.marks, fun _ => rfl, htold⟩, fun hless => ?_⟩, ?_⟩
    · have hhigh : limit < (s.writeBuffer ++ data).length := h.marks.1 ▸ hmore
      have hlow : (s.writeBuffer ++ data).length < limit / 2 := hless
      omega
    · have hover : decide (s.highWatermark.toNat < (s.writeBuffer ++ data).length) = true := decide_eq_true hmore
      rw [hover, Bool.or_true]
      rfl
  · rw [if_neg hraise]
    rw [Bool.and_eq_true, decide_eq_true_eq, Bool.not_eq_true', not_and, Bool.not_eq_false] at hraise
    refine ⟨⟨⟨h.marks, fun hmore => hraise (h.marks.1.symm ▸ hmore), h.heard⟩, fun hless => h.low ?_⟩, ?_⟩
    · have hlow : (s.writeBuffer ++ data).length < limit / 2 := hless
      omega
    · cases habove : s.aboveHighWatermark with
      | true => rfl
      | false =>
          have hfew : decide (s.highWatermark.toNat < (s.writeBuffer ++ data).length) = false :=
            decide_eq_false fun hmore => Bool.noConfusion (habove.symm.trans (hraise hmore))
          rw [hfew]
          rfl

/-- With nothing in the buffer the flag is down. -/
theorem Right.down_of_empty (h : Right limit s) (hlimit : 2 ≤ limit) (hempty : s.writeBuffer.isEmpty = true) :
    s.aboveHighWatermark = false := by
  have hzero : s.writeBuffer.length = 0 := List.isEmpty_iff_length_eq_zero.mp hempty
  exact h.low (by omega)

/-- A flag that is down is not to come down. -/
theorem lowSeen_of_down {above : Bool} {length : Nat} (hdown : above = false) :
    LowSeen above length limit answers := by
  unfold LowSeen
  split
  · exact fun hup => Bool.noConfusion (hdown.symm.trans hup)
  · trivial

theorem right_writeData_iff (h : Right limit s) (hlimit : 2 ≤ limit) (hopen : s.closing = false) (data : Bytes) :
    ((s.writeData data answers).closing = false → Right limit (s.writeData data answers)) ↔
      ((s.writeReady || s.transport == .stdio) = true →
        FlushSeen s (s.aboveHighWatermark || s.highWatermark.toNat < (s.writeBuffer ++ data).length)
          (s.writeBuffer ++ data).length answers) := by
  obtain ⟨hbuffer, hclosing, -, -, hsame⟩ := put_eq s data
  obtain ⟨hput, habove⟩ := right_put h data
  rw [← habove, ← hbuffer]
  unfold writeData
  dsimp only
  by_cases hempty : (s.put data).writeBuffer.isEmpty = true
  · rw [if_pos hempty]
    refine iff_of_true (fun _ => hput) fun _ hkind => ?_
    exact lowSeen_of_down (hput.down_of_empty hlimit hempty)
  · rw [if_neg hempty, asks_put]
    by_cases hnow : (s.writeReady || s.transport == .stdio) = true
    · have hdone := @right_doWrite_iff ((s.put data).enableFileEvents ⟨false, true⟩) limit answers
        (hput.enableFileEvents _) (hclosing.trans hopen)
      rw [if_pos hnow, forall_prop_of_true hnow]
      refine hdone.trans ?_
      unfold FlushSeen
      show ((s.put data).transport ≠ .raw → LowSeen _ _ (s.put data).highWatermark.toNat answers) ↔ _
      rw [hsame.transport, hsame.highWatermark]
      exact Iff.rfl
    · rw [if_neg hnow]
      exact iff_of_true (fun _ => hput.enableFileEvents _) fun hready => absurd hready hnow

theorem right_onWriteReady_iff (h : Right limit s) (hlimit : 2 ≤ limit) (hopen : s.closing = false) :
    ((s.onWriteReady answers).closing = false → Right limit (s.onWriteReady answers)) ↔
      FlushSeen s s.aboveHighWatermark s.writeBuffer.length answers := by
  have hready : Right limit { s with writeReady := true } := { h with }
  unfold onWriteReady
  dsimp only
  by_cases hidle : (s.writeBuffer.isEmpty && !s.writeHalfClosed && s.initialWriteDone) = true
  · rw [if_pos hidle]
    rw [Bool.and_eq_true, Bool.and_eq_true] at hidle
    exact iff_of_true (fun _ => hready) fun _ => lowSeen_of_down (h.down_of_empty hlimit hidle.1.1)
  · have hasked := @right_doWrite_iff { s with writeReady := true } limit answers hready hopen
    rw [if_neg hidle]
    refine Iff.trans ?_ hasked
    by_cases hclosed : ({ s with writeReady := true }.doWrite answers).closing = true
    · have hnot : ¬ ({ s with writeReady := true }.doWrite answers).closing = false := by
        rw [hclosed]
        exact Bool.noConfusion
      rw [if_pos hclosed]
      exact iff_of_true (fun hstays => absurd hstays hnot) fun hstays => absurd hstays hnot
    · rw [if_neg hclosed]
      exact ⟨fun hright hstays => { hright hstays with }, fun hright hstays => { hright hstays with }⟩

/-- The operation is seen, if it does anything. -/
def SeenIfOpen (s : OpenConnection) (op : Op) : Prop := s.closing = false → Seen s op

/-- **One operation** leaves the flag right just if it is seen that it is to come down. -/
theorem right_step_iff (h : Right limit s) (hlimit : 2 ≤ limit) (op : Op) :
    ((step s op).closing = false → Right limit (step s op)) ↔ SeenIfOpen s op := by
  unfold step SeenIfOpen
  cases hclosing : s.closing with
  | true =>
      rw [if_pos rfl]
      exact iff_of_true (fun _ => h) fun hopen => Bool.noConfusion hopen
  | false =>
      rw [if_neg Bool.false_ne_true, forall_prop_of_true rfl]
      have hready : Right limit { s with writeReady := true } := { h with }
      cases op with
      | enterWrite endStream =>
          refine iff_of_true (fun _ => ?_) trivial
          show Right limit (s.enterWrite endStream)
          unfold enterWrite
          split_ifs
          · exact h
          · exact { h with }
      | leaveWrite data answers =>
          show ((s.leaveWrite data answers).closing = false → Right limit (s.leaveWrite data answers)) ↔ _
          unfold leaveWrite
          by_cases hentered : s.entered = 0
          · rw [if_pos hentered]
            refine iff_of_true (fun _ => h) ?_
            cases data with
            | none => trivial
            | some data => exact fun hnot => absurd hentered hnot
          · have hleft : Right limit { s with entered := s.entered - 1 } := { h with }
            rw [if_neg hentered]
            cases data with
            | none => exact iff_of_true (fun _ => hleft) trivial
            | some data =>
                exact (@right_writeData_iff { s with entered := s.entered - 1 } limit answers hleft hlimit
                  hclosing data).trans ⟨fun hseen _ => hseen, fun hseen => hseen hentered⟩
      | readDisable disable =>
          refine iff_of_true (fun _ => ?_) trivial
          show Right limit (s.readDisable disable)
          unfold readDisable
          dsimp only
          split_ifs
          · exact { h with }
          · exact { h with }
          · exact h
          · exact { h with }
          · exact { h with }
      | writeEvent answers => exact right_onWriteReady_iff h hlimit hclosing
      | raiseConnected answers =>
          show ((s.raiseConnected answers).closing = false → Right limit (s.raiseConnected answers)) ↔ _
          unfold raiseConnected
          dsimp only
          by_cases hempty : s.writeBuffer.isEmpty = true
          · rw [if_pos hempty]
            exact iff_of_true (fun _ => hready) fun _ => lowSeen_of_down (h.down_of_empty hlimit hempty)
          · rw [if_neg hempty]
            exact right_doWrite_iff hready hclosing
      | flushWriteBuffer answers => exact right_doWrite_iff h hclosing
      | close => exact iff_of_true (fun hopen => Bool.noConfusion hopen) trivial

/-! ### Whole runs -/

theorem right_new {transport : TransportKind} {limit : UInt32} {callbacks : Nat} {ready : Bool} :
    Right limit.toNat (new transport limit callbacks ready) := by
  refine
    ⟨⟨⟨rfl, UInt32.toNat_div limit 2⟩, fun hmore => absurd hmore (Nat.not_lt_zero _), fun notes hnotes => ?_⟩,
      fun _ => rfl⟩
  rw [List.eq_of_mem_replicate hnotes]
  exact ⟨rfl, iff_of_false Bool.false_ne_true (by decide)⟩

/-- The marks stay. -/
theorem marks_step (s : OpenConnection) (op : Op) :
    (step s op).highWatermark = s.highWatermark ∧ (step s op).lowWatermark = s.lowWatermark := by
  by_cases hop : ∃ disable, op = .readDisable disable
  · obtain ⟨disable, rfl⟩ := hop
    unfold step
    split_ifs
    · exact ⟨rfl, rfl⟩
    · show (s.readDisable disable).highWatermark = _ ∧ (s.readDisable disable).lowWatermark = _
      unfold readDisable enableFileEvents
      dsimp only
      split_ifs <;> exact ⟨rfl, rfl⟩
  · have hsame := @same_step s op fun disable heq => hop ⟨disable, heq⟩
    exact ⟨hsame.highWatermark, hsame.lowWatermark⟩

/-- What is promised is what is kept. -/
theorem flows_iff (hmarks : s.highWatermark.toNat = limit ∧ s.lowWatermark.toNat = limit / 2) :
    Flows limit s ↔ (s.closing = false → Right limit s) :=
  ⟨fun h hopen => ⟨⟨hmarks, (h hopen).1, (h hopen).2.2⟩, (h hopen).2.1⟩,
    fun h hopen => ⟨(h hopen).high, (h hopen).low, (h hopen).heard⟩⟩

/-- **Write flow control.** For a buffer limit of at least 2, and any transport, the flag is up with more than
the limit in the buffer and down with less than half of it, and every watermark callback is told in turn, in every
state of the run in which the connection is open, exactly if what the transport takes before the loop is always
seen. -/
theorem flows_everywhere_iff (transport : TransportKind) (limit : UInt32) (callbacks : Nat) (ready : Bool)
    (ops : List Op) (hlimit : 2 ≤ limit.toNat) :
    (∀ before after, ops = before ++ after →
        Flows limit.toNat (Runs.run step (new transport limit callbacks ready) before)) ↔
      Runs.Guarded step SeenIfOpen (new transport limit callbacks ready) ops := by
  let inv (s : OpenConnection) : Prop :=
    (s.highWatermark.toNat = limit.toNat ∧ s.lowWatermark.toNat = limit.toNat / 2) ∧ Flows limit.toNat s
  have hsteps (s : OpenConnection) (op : Op) (h : inv s) :
      Flows limit.toNat (step s op) ↔ SeenIfOpen s op := by
    have hmarks := marks_step s op
    have hkept : (step s op).highWatermark.toNat = limit.toNat ∧
        (step s op).lowWatermark.toNat = limit.toNat / 2 := by
      rw [hmarks.1, hmarks.2]
      exact h.1
    rw [flows_iff hkept]
    cases hclosing : s.closing with
    | false => exact right_step_iff ((flows_iff h.1).mp h.2 hclosing) hlimit op
    | true =>
        have hstays : step s op = s := if_pos hclosing
        rw [hstays, hclosing]
        exact iff_of_true (fun hopen => Bool.noConfusion hopen) fun hopen =>
          Bool.noConfusion (hclosing.symm.trans hopen)
  refine @Runs.everywhere_iff_of_inv _ _ step (fun _ _ => True) SeenIfOpen inv (Flows limit.toNat) ?_
    (fun _ h => h.2) ?_ _ ?_ ops (Runs.guarded_of_forall step (fun _ _ => trivial) _)
  · intro s op _ hok h
    have hmarks := marks_step s op
    refine ⟨?_, (hsteps s op h).mpr hok⟩
    rw [hmarks.1, hmarks.2]
    exact h.1
  · exact fun s op _ h hnot hflows => hnot ((hsteps s op h).mp hflows)
  · exact ⟨right_new.marks, (flows_iff right_new.marks).mpr fun _ => right_new⟩

/-- Five bytes over a raw transport with a limit of 4, taken in two parts. -/
theorem flows_everywhere_raw :
    Flows 4 (Runs.run step (new .raw 4 1 true)
      [.enterWrite false, .leaveWrite (some [1, 2, 3, 4, 5]) [.takes 2, .takes 3]]) := by
  refine (flows_everywhere_iff .raw 4 1 true _ (by decide)).mpr ?_ _ [] rfl
  exact ⟨fun _ => trivial, fun _ _ _ hraw => absurd rfl hraw, trivial⟩

/-- The same bytes over another transport, which takes all of them when it is asked first: nothing is left, and
the flag stays up. -/
theorem not_flows_first_taken :
    ¬ Flows 4 (Runs.run step (new .other 4 1 true)
      [.enterWrite false, .leaveWrite (some [1, 2, 3, 4, 5]) [.takes 5]]) := by
  intro h
  exact absurd ((h rfl).2.1 (by decide)) (by decide)

end OpenConnection

end GopherMcp
