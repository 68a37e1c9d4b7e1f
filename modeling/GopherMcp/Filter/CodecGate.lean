import GopherMcp.Core.Bytes
import GopherMcp.Lib.Runs

/-!
# The gate of the HTTP codec

While a response goes out no further request is parsed. Input that comes meanwhile is held, and so is what
the parser left of a buffer when it stopped: the gate may be shut by what a parser callback leads to, and the
callbacks at the end of the headers and of the message stop the parser then. Once the gate opens, what was
held goes the way of new input, and may be held again in part. Every byte is in one place at a time.
-/

namespace GopherMcp

inductive ParserStatus
  | ok | paused | error
  deriving DecidableEq

/-- What a callback leads to. -/
inductive GateAct
  | pause | resume
  deriving DecidableEq

/-- A callback of the parser. `position` is how many bytes of the buffer were parsed before it, and
`reported` how many the parser says were, should it stop there; `asksGate` is whether the callback stops the
parser when it finds the gate shut. -/
structure ParserVisit where
  position : Nat
  reported : Nat
  asksGate : Bool
  acts : List GateAct
  deriving DecidableEq

/-- What the parser does with a buffer, unless it is stopped on the way. -/
structure ParserWork where
  visits : List ParserVisit
  fails : Bool
  deriving DecidableEq

/-- One shutting of the gate: whether the input that was held exceeded the limit, and how often that was
called back. -/
structure GatePause where
  exceeded : Bool
  callbacks : Nat
  deriving DecidableEq

/-- The gate, and beside it: the bytes that came in and those handed to the parser; the pauses before the
last; and whether input was taken up from within a callback of the parser. -/
structure CodecGate where
  paused : Bool
  overflowed : Bool
  limit : Nat
  gatedInput : Bytes
  status : ParserStatus
  received : Bytes
  handed : Bytes
  earlier : List GatePause
  current : GatePause
  reentered : Bool

inductive GateOp
  | read (data : Bytes) (work : ParserWork)
  | pause
  | resume (work : ParserWork)
  | setLimit (bytes : Nat)

namespace CodecGate

def new (limit : Nat) : CodecGate where
  paused := false
  overflowed := false
  limit := limit
  gatedInput := []
  status := .ok
  received := []
  handed := []
  earlier := []
  current := ⟨false, 0⟩
  reentered := false

/-- Every shutting of the gate up to now, after one that stands for the time before the first. -/
def pauses (s : CodecGate) : List GatePause := s.earlier ++ [s.current]

def pauseRequestProcessing (s : CodecGate) : CodecGate :=
  if s.paused then s
  else
    { s with
      paused := true
      overflowed := false
      earlier := s.earlier ++ [s.current]
      current := ⟨false, 0⟩ }

/-- Input that goes beyond the limit is dropped, and told once. -/
def bufferGatedInput (s : CodecGate) (data : Bytes) : CodecGate :=
  if data.length = 0 then s
  else if s.limit < s.gatedInput.length + data.length then
    { s with
      overflowed := true
      current := ⟨true, if s.overflowed then s.current.callbacks else s.current.callbacks + 1⟩ }
  else { s with gatedInput := s.gatedInput ++ data }

/-- The gate opens, and the parser may go on. -/
def openGate (s : CodecGate) : CodecGate :=
  { s with paused := false, status := if s.status = .paused then .ok else s.status }

/-! ### Parsing -/

/-- What a callback leads to. Opening the gate would take up input that is held, from within the parser. -/
def act (s : CodecGate) : GateAct → CodecGate
  | .pause => s.pauseRequestProcessing
  | .resume =>
      if s.paused then { s.openGate with reentered := s.reentered || !s.gatedInput.isEmpty } else s

/-- The callbacks up to the one that stops the parser, if one does. -/
def visit (s : CodecGate) : List ParserVisit → CodecGate × Option ParserVisit
  | [] => (s, none)
  | next :: rest =>
      let after := next.acts.foldl act s
      if next.asksGate && after.paused then ({ after with status := .paused }, some next)
      else after.visit rest

def hand (s : CodecGate) (data : Bytes) : CodecGate := { s with handed := s.handed ++ data }

/-- A parser in error takes nothing up any more. -/
def dispatch (s : CodecGate) (data : Bytes) (work : ParserWork) : CodecGate :=
  if data.length = 0 then s
  else if s.status = .error then s.hand data
  else
    match s.visit work.visits with
    | (after, some stop) =>
        (after.hand (data.take stop.position)).bufferGatedInput (data.drop stop.reported)
    | (after, none) => { after.hand data with status := if work.fails then .error else .ok }

def onData (s : CodecGate) (data : Bytes) (work : ParserWork) : CodecGate :=
  if s.paused then s.bufferGatedInput data else s.dispatch data work

def resumeRequestProcessing (s : CodecGate) (work : ParserWork) : CodecGate :=
  if !s.paused then s
  else if s.gatedInput.length = 0 then s.openGate
  else { s.openGate with gatedInput := [] }.onData s.gatedInput work

def step (s : CodecGate) : GateOp → CodecGate
  | .read data work => { s with received := s.received ++ data }.onData data work
  | .pause => s.pauseRequestProcessing
  | .resume work => s.resumeRequestProcessing work
  | .setLimit bytes => { s with limit := bytes }

end CodecGate

/-- A parser that says as parsed what it did parse. -/
def ParserWork.Honest (work : ParserWork) : Prop := ∀ visit ∈ work.visits, visit.reported = visit.position

def GateOp.Honest : GateOp → Prop
  | .read _ work => work.Honest
  | .resume work => work.Honest
  | .pause => True
  | .setLimit _ => True

namespace CodecGate

/-! ### What is held, and how often the limit was exceeded -/

/-- The callback of a pause was called once if the limit was exceeded, and not at all otherwise. -/
def GatePauseOk (pause : GatePause) : Prop := pause.callbacks = if pause.exceeded then 1 else 0

/-- What holds at every moment, also while the parser is at work. -/
structure Counted (s : CodecGate) : Prop where
  earlier : ∀ pause ∈ s.earlier, GatePauseOk pause
  current : GatePauseOk s.current
  overflowed : s.overflowed = s.current.exceeded

/-- What holds between the operations. Nothing is lost while the limit is not exceeded. -/
structure Sound (s : CodecGate) : Prop where
  counted : Counted s
  reentered : s.reentered = false
  opened : s.paused = false → s.gatedInput = [] ∧ s.status ≠ .paused
  stream : (∀ pause ∈ s.pauses, pause.exceeded = false) → s.received = s.handed ++ s.gatedInput

theorem counted_pause {s : CodecGate} (h : Counted s) : Counted s.pauseRequestProcessing := by
  unfold pauseRequestProcessing
  split
  · exact h
  · refine ⟨fun pause hpause => ?_, rfl, rfl⟩
    rcases List.mem_append.mp hpause with hold | hlast
    · exact h.earlier pause hold
    · rw [List.mem_singleton.mp hlast]
      exact h.current

theorem counted_bufferGatedInput {s : CodecGate} (h : Counted s) (data : Bytes) :
    Counted (s.bufferGatedInput data) := by
  unfold bufferGatedInput
  split
  · exact h
  · split
    · refine ⟨h.earlier, ?_, rfl⟩
      have hcurrent : s.current.callbacks = if s.overflowed then 1 else 0 := by
        rw [h.overflowed]
        exact h.current
      show (if s.overflowed then s.current.callbacks else s.current.callbacks + 1) = 1
      rw [hcurrent]
      cases s.overflowed <;> rfl
    · exact ⟨h.earlier, h.current, h.overflowed⟩

/-! ### While the parser is at work -/

/-- What the callbacks leave alone when nothing is held. -/
structure Undisturbed (s t : CodecGate) : Prop where
  gatedInput : t.gatedInput = s.gatedInput
  reentered : t.reentered = s.reentered
  received : t.received = s.received
  handed : t.handed = s.handed
  counted : Counted s → Counted t
  pauses : ∀ pause ∈ s.pauses, pause ∈ t.pauses

theorem Undisturbed.refl (s : CodecGate) : Undisturbed s s :=
  ⟨rfl, rfl, rfl, rfl, id, fun _ => id⟩

theorem Undisturbed.trans {s t u : CodecGate} (h : Undisturbed s t) (h' : Undisturbed t u) :
    Undisturbed s u :=
  ⟨h'.gatedInput.trans h.gatedInput, h'.reentered.trans h.reentered, h'.received.trans h.received,
    h'.handed.trans h.handed, h'.counted ∘ h.counted, fun pause hpause => h'.pauses pause (h.pauses pause hpause)⟩

theorem undisturbed_pause (s : CodecGate) : Undisturbed s s.pauseRequestProcessing := by
  have hcounted : Counted s → Counted s.pauseRequestProcessing := counted_pause
  revert hcounted
  unfold pauseRequestProcessing
  split
  · exact fun _ => Undisturbed.refl s
  · intro hcounted
    exact ⟨rfl, rfl, rfl, rfl, hcounted, fun pause hpause => List.mem_append_left _ hpause⟩

theorem undisturbed_act {s : CodecGate} (h : s.gatedInput = []) (next : GateAct) :
    Undisturbed s (s.act next) := by
  cases next with
  | pause => exact undisturbed_pause s
  | resume =>
      show Undisturbed s
        (if s.paused then { s.openGate with reentered := s.reentered || !s.gatedInput.isEmpty } else s)
      split
      · refine ⟨rfl, ?_, rfl, rfl, fun hs => ⟨hs.earlier, hs.current, hs.overflowed⟩, fun _ => id⟩
        show (s.reentered || !s.gatedInput.isEmpty) = s.reentered
        rw [h]
        exact Bool.or_false _
      · exact Undisturbed.refl s

theorem undisturbed_acts {s : CodecGate} (h : s.gatedInput = []) (acts : List GateAct) :
    Undisturbed s (acts.foldl act s) := by
  induction acts generalizing s with
  | nil => exact Undisturbed.refl s
  | cons next rest ih =>
      have hnext := undisturbed_act h next
      exact hnext.trans (ih (hnext.gatedInput.trans h))

theorem undisturbed_visit {s : CodecGate} (h : s.gatedInput = []) (visits : List ParserVisit) :
    Undisturbed s (s.visit visits).1 := by
  induction visits generalizing s with
  | nil => exact Undisturbed.refl s
  | cons next rest ih =>
      have hacts := undisturbed_acts h next.acts
      unfold visit
      dsimp only
      split
      · exact ⟨hacts.gatedInput, hacts.reentered, hacts.received, hacts.handed,
          fun hs => ⟨(hacts.counted hs).earlier, (hacts.counted hs).current, (hacts.counted hs).overflowed⟩,
          hacts.pauses⟩
      · exact hacts.trans (ih (hacts.gatedInput.trans h))

/-- A callback that stops the parser found the gate shut. -/
theorem visit_stop {s : CodecGate} {visits : List ParserVisit} {stop : ParserVisit}
    (h : (s.visit visits).2 = some stop) :
    stop ∈ visits ∧ (s.visit visits).1.paused = true ∧ (s.visit visits).1.status = .paused := by
  induction visits generalizing s with
  | nil => cases h
  | cons next rest ih =>
      unfold visit at h ⊢
      dsimp only at h ⊢
      split at h
      case isTrue hshut =>
        rw [if_pos hshut]
        obtain rfl := Option.some.inj h
        rw [Bool.and_eq_true] at hshut
        exact ⟨List.mem_cons_self, hshut.2, rfl⟩
      case isFalse hopen =>
        rw [if_neg hopen]
        obtain ⟨hmem, hrest⟩ := ih h
        exact ⟨List.mem_cons_of_mem _ hmem, hrest⟩

/-! ### One operation -/

/-- Input on its way to where it is held. -/
theorem sound_bufferGatedInput {s : CodecGate} {data : Bytes} (counted : Counted s)
    (reentered : s.reentered = false) (shut : s.paused = true)
    (stream : (∀ pause ∈ s.pauses, pause.exceeded = false) →
      s.received = s.handed ++ (s.gatedInput ++ data)) :
    Sound (s.bufferGatedInput data) := by
  have hcounted := counted_bufferGatedInput counted data
  have hopened {t : CodecGate} (h : t.paused = true) :
      t.paused = false → t.gatedInput = [] ∧ t.status ≠ .paused := by
    intro hopen
    rw [h] at hopen
    cases hopen
  revert hcounted
  unfold bufferGatedInput
  split
  case isTrue hempty =>
    refine fun hcounted => ⟨hcounted, reentered, hopened shut, fun hnone => ?_⟩
    rw [stream hnone, List.length_eq_zero_iff.mp hempty, List.append_nil]
  case isFalse =>
    split
    case isTrue =>
      refine fun hcounted => ⟨hcounted, reentered, hopened shut, fun hnone => ?_⟩
      -- the pause in which the limit was exceeded is one of them
      exact absurd (hnone _ (List.mem_append_right _ (List.mem_singleton_self _))) (by simp)
    case isFalse =>
      exact fun hcounted => ⟨hcounted, reentered, hopened shut, stream⟩

/-- Input on its way to the parser, with nothing held. -/
theorem sound_dispatch {s : CodecGate} {data : Bytes} {work : ParserWork} (honest : work.Honest)
    (counted : Counted s) (reentered : s.reentered = false) (held : s.gatedInput = [])
    (notPaused : s.status ≠ .paused)
    (stream : (∀ pause ∈ s.pauses, pause.exceeded = false) → s.received = s.handed ++ data) :
    Sound (s.dispatch data work) := by
  unfold dispatch
  split
  case isTrue hempty =>
    refine ⟨counted, reentered, fun _ => ⟨held, notPaused⟩, fun hnone => ?_⟩
    rw [stream hnone, List.length_eq_zero_iff.mp hempty, held]
  case isFalse =>
    split
    case isTrue herror =>
      refine ⟨⟨counted.earlier, counted.current, counted.overflowed⟩, reentered,
        fun _ => ⟨held, notPaused⟩, fun hnone => ?_⟩
      show s.received = s.handed ++ data ++ s.gatedInput
      rw [stream hnone, held, List.append_nil]
    case isFalse =>
      have hvisit := undisturbed_visit held work.visits
      have hstream : (∀ pause ∈ (s.visit work.visits).1.pauses, pause.exceeded = false) →
          s.received = s.handed ++ data :=
        fun hnone => stream fun pause hpause => hnone pause (hvisit.pauses pause hpause)
      have hcounted := hvisit.counted counted
      split
      case h_1 after stop heq =>
        rw [heq] at hvisit hstream hcounted
        obtain ⟨hmem, hshut, _⟩ := visit_stop (congrArg Prod.snd heq)
        rw [heq] at hshut
        refine sound_bufferGatedInput ⟨hcounted.earlier, hcounted.current, hcounted.overflowed⟩
          (hvisit.reentered.trans reentered) hshut fun hnone => ?_
        show after.received = after.handed ++ data.take stop.position ++
          (after.gatedInput ++ data.drop stop.reported)
        rw [hvisit.received, hvisit.handed, hvisit.gatedInput, held, hstream hnone, honest stop hmem,
          List.nil_append, List.append_assoc, List.take_append_drop]
      case h_2 after heq =>
        rw [heq] at hvisit hstream hcounted
        refine ⟨⟨hcounted.earlier, hcounted.current, hcounted.overflowed⟩,
          hvisit.reentered.trans reentered, fun _ => ⟨hvisit.gatedInput.trans held, ?_⟩, fun hnone => ?_⟩
        · show (if work.fails then ParserStatus.error else ParserStatus.ok) ≠ .paused
          cases work.fails <;> decide
        · show after.received = after.handed ++ data ++ after.gatedInput
          rw [hvisit.received, hvisit.handed, hvisit.gatedInput, held, hstream hnone, List.append_nil]

theorem status_openGate (s : CodecGate) : s.openGate.status ≠ .paused := by
  show (if s.status = .paused then ParserStatus.ok else s.status) ≠ .paused
  split
  · decide
  · assumption

theorem sound_step {s : CodecGate} (h : Sound s) {op : GateOp} (honest : op.Honest) :
    Sound (s.step op) := by
  obtain ⟨hcounted, hreentered, hopened, hstream⟩ := h
  cases op with
  | read data work =>
      show Sound ({ s with received := s.received ++ data }.onData data work)
      unfold onData
      split
      case isTrue hshut =>
        refine sound_bufferGatedInput ⟨hcounted.earlier, hcounted.current, hcounted.overflowed⟩ hreentered
          hshut fun hnone => ?_
        show s.received ++ data = s.handed ++ (s.gatedInput ++ data)
        rw [hstream hnone, List.append_assoc]
      case isFalse hopen =>
        obtain ⟨hheld, hstatus⟩ := hopened (Bool.eq_false_of_not_eq_true hopen)
        refine sound_dispatch honest ⟨hcounted.earlier, hcounted.current, hcounted.overflowed⟩ hreentered
          hheld hstatus fun hnone => ?_
        show s.received ++ data = s.handed ++ data
        rw [hstream hnone, hheld, List.append_nil]
  | pause =>
      have hpause := undisturbed_pause s
      refine ⟨hpause.counted hcounted, hpause.reentered.trans hreentered, fun hopen => ?_, fun hnone => ?_⟩
      · exfalso
        revert hopen
        show s.pauseRequestProcessing.paused = false → False
        unfold pauseRequestProcessing
        split
        case isTrue hshut => exact fun hopen => absurd (hshut.symm.trans hopen) (by decide)
        case isFalse => exact fun hopen => Bool.noConfusion hopen
      · show s.pauseRequestProcessing.received = s.pauseRequestProcessing.handed ++ s.pauseRequestProcessing.gatedInput
        rw [hpause.received, hpause.handed, hpause.gatedInput]
        exact hstream fun pause hin => hnone pause (hpause.pauses pause hin)
  | resume work =>
      show Sound (s.resumeRequestProcessing work)
      unfold resumeRequestProcessing
      split
      case isTrue => exact ⟨hcounted, hreentered, hopened, hstream⟩
      case isFalse =>
        split
        case isTrue hempty =>
          exact ⟨⟨hcounted.earlier, hcounted.current, hcounted.overflowed⟩, hreentered,
            fun _ => ⟨List.length_eq_zero_iff.mp hempty, s.status_openGate⟩, hstream⟩
        case isFalse =>
          exact sound_dispatch honest ⟨hcounted.earlier, hcounted.current, hcounted.overflowed⟩ hreentered
            rfl s.status_openGate hstream
  | setLimit bytes =>
      exact ⟨⟨hcounted.earlier, hcounted.current, hcounted.overflowed⟩, hreentered, hopened, hstream⟩

/-! ### Runs -/

theorem sound_new (limit : Nat) : Sound (new limit) :=
  ⟨⟨fun _ hin => absurd hin List.not_mem_nil, rfl, rfl⟩, rfl, fun _ => ⟨rfl, by rintro ⟨⟩⟩, fun _ => rfl⟩

/-- While the gate is shut nothing that comes in is handed to the parser. -/
theorem handed_read_of_paused {s : CodecGate} (h : s.paused = true) (data : Bytes) (work : ParserWork) :
    (s.step (.read data work)).handed = s.handed := by
  show ({ s with received := s.received ++ data }.onData data work).handed = s.handed
  unfold onData
  rw [if_pos h]
  unfold bufferGatedInput
  split
  · rfl
  · split <;> rfl

end CodecGate

end GopherMcp
