import GopherMcp.Network.ClosesOnce

/-!
# What a flush promises

When the first close of a connection flushes, and nothing comes in between, the bytes that were pending are handed
to the socket in order and nothing else is. Once the last of them was taken, and the end of the peer's stream was
read if the close waits for that, a close is under way: the connection is closed, or one is posted. What carries
this through every step is that a flush with nothing left has somebody on the stack who will see that it is done.
-/

namespace GopherMcp

/-! ### What is promised -/

/-- The end of the peer's stream is waited for. -/
def FirstClose.waits (first : FirstClose) : Bool := first.type = .flushWriteAndDelay && 0 < first.timeout

/-- The close of a flush that was put off. -/
def Frame.defers : Frame → Bool
  | .returnTo (.deferClose _) => true
  | _ => false

def CallOut.finishes : CallOut → Bool
  | .transportWrite | .socketWrite _ => true
  | _ => false

/-- What sees that a flush is done before it returns. -/
def Frame.finishes : Frame → Bool
  | .callOut call => call.finishes
  | .returnTo (.deferClose _) => true
  | .returnTo _ => false

namespace ConnectionImpl

/-- What was handed to the socket. -/
def sent (s : ConnectionImpl) : Bytes := Happening.sentBytes s.happened

def CloseUnderWay (s : ConnectionImpl) : Prop := s.state = .closed ∨ s.posted ≠ []

/-- Nothing but what was pending is handed to the socket, all of it before the close event; then a close follows. -/
structure Flushes (s : ConnectionImpl) (first : FirstClose) : Prop where
  inOrder : ∃ taken, s.sent = first.sent ++ taken ∧ taken ++ s.writeBuffer = first.pending
  beforeClose : s.raised = true → s.sent = first.sent ++ first.pending
  thenCloses :
    s.frames = [] → s.sent = first.sent ++ first.pending → (first.waits = true → s.peerEnded = true) →
      s.CloseUnderWay

/-- A close closes once, flushes what it promised, and keeps its timer while it is pending. -/
structure ClosesWell (s : ConnectionImpl) : Prop where
  once : Happening.ClosesOnce s.happened
  flushes :
    ∀ first, s.firstClose = some first → first.type.flushes = true → s.disturbed = false → s.Flushes first
  armed : s.timerArmed = true ↔ s.FlushPending ∧ 0 < s.delayedCloseTimeout

def deferring (s : ConnectionImpl) : Bool := s.frames.any Frame.defers

def finishing (s : ConnectionImpl) : Bool := s.frames.any Frame.finishes

/-! ### What every calm step keeps -/

/-- Nothing came in between so far. Before the first close nothing is under way. From then on the connection is shut,
and what puts an end to it only exists once everything was handed over. -/
structure Promised (s : ConnectionImpl) : Prop where
  before :
    s.firstClose = none →
      s.flushAsked = false ∧ s.posted = [] ∧ s.deferredDelete = false ∧ s.peerEnded = false ∧
        s.deferring = false
  flushes : ∀ first, s.firstClose = some first → first.type.flushes = true
  inOrder :
    ∀ first, s.firstClose = some first →
      ∃ taken, s.sent = first.sent ++ taken ∧ taken ++ s.writeBuffer = first.pending
  shut :
    s.firstClose ≠ none →
      s.state = .closed ∨ s.socketCloseInProgress = true ∨ s.delayedCloseState ≠ .none
  drained :
    s.posted ≠ [] ∨ s.deferredDelete = true ∨ s.deferring = true ∨ s.socketCloseInProgress = true →
      s.writeBuffer = []
  waits :
    s.delayedCloseState = .closeAfterFlushAndWait → ∀ first, s.firstClose = some first → first.waits = true
  ended :
    s.peerEnded = true →
      s.deferredDelete = true ∨ s.deferring = true ∨ s.socketCloseInProgress = true ∨ s.state = .closed
  underWay : s.deferredDelete = true → s.posted ≠ [] ∨ s.socketCloseInProgress = true ∨ s.state = .closed
  failed : s.immediateErrorEvent ≠ none → s.state = .closed
  socket : s.socketOpen = false → s.state = .closed

/-- A flush with nothing left has been seen to, or will be. -/
def Due (s : ConnectionImpl) : Prop :=
  s.state ≠ .closed → s.socketCloseInProgress = false → s.writeBuffer = [] →
    s.delayedCloseState = .closeAfterFlush → s.deferredDelete = true ∨ s.finishing = true

/-- Between two states nothing happened that a flush depends on. -/
structure Aside (s t : ConnectionImpl) : Prop where
  firstClose : t.firstClose = s.firstClose
  flushAsked : t.flushAsked = s.flushAsked
  posted : t.posted = s.posted
  deferredDelete : t.deferredDelete = s.deferredDelete
  peerEnded : t.peerEnded = s.peerEnded
  deferring : t.deferring = s.deferring
  sent : t.sent = s.sent
  writeBuffer : t.writeBuffer = s.writeBuffer
  state : t.state = s.state
  progress : t.socketCloseInProgress = s.socketCloseInProgress
  delayed : t.delayedCloseState = s.delayedCloseState
  failed : t.immediateErrorEvent = s.immediateErrorEvent
  socket : t.socketOpen = s.socketOpen
  finishing : s.finishing = true → t.finishing = true

namespace Aside

variable {s t u : ConnectionImpl}

theorem refl (s : ConnectionImpl) : Aside s s :=
  ⟨rfl, rfl, rfl, rfl, rfl, rfl, rfl, rfl, rfl, rfl, rfl, rfl, rfl, id⟩

theorem trans (h : Aside s t) (h' : Aside t u) : Aside s u where
  firstClose := h'.firstClose.trans h.firstClose
  flushAsked := h'.flushAsked.trans h.flushAsked
  posted := h'.posted.trans h.posted
  deferredDelete := h'.deferredDelete.trans h.deferredDelete
  peerEnded := h'.peerEnded.trans h.peerEnded
  deferring := h'.deferring.trans h.deferring
  sent := h'.sent.trans h.sent
  writeBuffer := h'.writeBuffer.trans h.writeBuffer
  state := h'.state.trans h.state
  progress := h'.progress.trans h.progress
  delayed := h'.delayed.trans h.delayed
  failed := h'.failed.trans h.failed
  socket := h'.socket.trans h.socket
  finishing hfinishing := h'.finishing (h.finishing hfinishing)

theorem promised (h : Aside s t) (hs : Promised s) : Promised t where
  before := by
    rw [h.firstClose, h.flushAsked, h.posted, h.deferredDelete, h.peerEnded, h.deferring]
    exact hs.before
  flushes := by
    rw [h.firstClose]
    exact hs.flushes
  inOrder := by
    rw [h.firstClose, h.sent, h.writeBuffer]
    exact hs.inOrder
  shut := by
    rw [h.firstClose, h.state, h.progress, h.delayed]
    exact hs.shut
  drained := by
    rw [h.posted, h.deferredDelete, h.deferring, h.progress, h.writeBuffer]
    exact hs.drained
  waits := by
    rw [h.delayed, h.firstClose]
    exact hs.waits
  ended := by
    rw [h.peerEnded, h.deferredDelete, h.deferring, h.progress, h.state]
    exact hs.ended
  underWay := by
    rw [h.deferredDelete, h.posted, h.progress, h.state]
    exact hs.underWay
  failed := by
    rw [h.failed, h.state]
    exact hs.failed
  socket := by
    rw [h.socket, h.state]
    exact hs.socket

theorem due (h : Aside s t) (hs : Due s) : Due t := by
  unfold Due
  rw [h.state, h.progress, h.writeBuffer, h.delayed, h.deferredDelete]
  intro hclosed hprogress hempty hmode
  exact (hs hclosed hprogress hempty hmode).imp_right h.finishing

theorem keeps (h : Aside s t) (hs : Promised s) (hdue : Due s) : Promised t ∧ Due t :=
  ⟨h.promised hs, h.due hdue⟩

/-! ### What is aside -/

theorem callOut (s : ConnectionImpl) (call : CallOut) : Aside s (s.callOut call) :=
  { refl s with finishing := fun hfinishing => (Bool.or_eq_true _ _).mpr (.inr hfinishing) }

theorem returnTo (s : ConnectionImpl) {point : ReturnPoint} (hdefers : (Frame.returnTo point).defers = false) :
    Aside s (s.returnTo point) :=
  { refl s with
    deferring := by simp [ConnectionImpl.deferring, ConnectionImpl.returnTo, hdefers]
    finishing := fun hfinishing => (Bool.or_eq_true _ _).mpr (.inr hfinishing) }

/-- A call that is not one to write, or a place that puts off no close, leaves the stack. -/
theorem pop {frame : Frame} {rest : List Frame} (hframes : s.frames = frame :: rest)
    (hdefers : frame.defers = false) (hfinishes : frame.finishes = false) : Aside s { s with frames := rest } :=
  { refl s with
    deferring := by simp [ConnectionImpl.deferring, hframes, hdefers]
    finishing := fun hfinishing => by simpa [ConnectionImpl.finishing, hframes, hfinishes] using hfinishing }

theorem given (s : ConnectionImpl) (bytes : Bytes) :
    Aside s { s with happened := s.happened ++ [.given bytes] } :=
  { refl s with sent := by simp [ConnectionImpl.sent, Happening.sentBytes_append, Happening.sentBytes] }

theorem onData (s : ConnectionImpl) (entry : Nat) (endStream : Bool) : Aside s (s.onData entry endStream) :=
  (given s _).trans (callOut _ _)

theorem onInjected (s : ConnectionImpl) (entry saved : Nat) (data : Bytes) :
    Aside s (s.onInjected entry saved data) :=
  (given s _).trans (callOut _ _)

theorem onContinueReading (s : ConnectionImpl) : Aside s s.onContinueReading := by
  unfold ConnectionImpl.onContinueReading
  split
  · exact (show Aside s { s with currentReadFilter := s.readFilters } from { refl s with }).trans (onData ..)
  · exact refl s

theorem onRead (s : ConnectionImpl) : Aside s s.onRead := by
  unfold ConnectionImpl.onRead
  split
  · exact (show Aside s { s with currentReadFilter := 0 } from { refl s with }).trans (onContinueReading _)
  · exact refl s

theorem processReadBuffer (s : ConnectionImpl) : Aside s s.processReadBuffer := by
  unfold ConnectionImpl.processReadBuffer
  split
  · exact refl s
  · split
    · exact onRead s
    · exact (show Aside s { s with processingReadBuffer := true } from { refl s with }).trans
        ((returnTo _ rfl).trans (onRead _))

theorem injectReadDataToFilterChain (s : ConnectionImpl) (data : Bytes) :
    Aside s (s.injectReadDataToFilterChain data) := by
  unfold ConnectionImpl.injectReadDataToFilterChain
  split
  · exact (show Aside s { s with currentReadFilter := s.readFilters } from { refl s with }).trans (onInjected ..)
  · exact refl s

theorem injectedReturned (s : ConnectionImpl) (entry saved : Nat) (status : FilterStatus) (rest : Bytes) :
    Aside s (s.injectedReturned entry saved status rest) := by
  unfold ConnectionImpl.injectedReturned
  split
  · exact { refl s with }
  · exact onInjected ..

theorem readMore (s : ConnectionImpl) : Aside s s.readMore := by
  unfold ConnectionImpl.readMore
  split
  · exact callOut ..
  · exact refl s

theorem doRead (s : ConnectionImpl) : Aside s s.doRead := by
  unfold ConnectionImpl.doRead
  split
  · exact refl s
  · exact readMore s

theorem handleEvent {event : ConnectionStateMachineEvent} (hstate : (s.handleEvent event).state = s.state) :
    Aside s (s.handleEvent event) :=
  { refl s with state := hstate }

theorem rearm (s : ConnectionImpl) (bytesWritten : Nat) : Aside s (s.rearm bytesWritten) := by
  unfold ConnectionImpl.rearm
  split
  · exact { refl s with }
  · exact refl s

theorem transportWasTold (s : ConnectionImpl) (flush : Bool) : Aside s (s.transportWasTold flush) := by
  have hevent (s : ConnectionImpl) :
      Aside s (if s.defersConnectedEvent = true then s else s.raiseConnectionEvent .connected) := by
    split
    · exact refl s
    · exact callOut s .callbacks
  cases flush with
  | true => exact (returnTo s rfl).trans (hevent _)
  | false => exact hevent s

end Aside

namespace Promised

variable {s : ConnectionImpl}

theorem new (transport : TransportKind) (defers initialized : Bool) (readFilters writeFilters : Nat)
    (connected : Bool) (timeout : Nat) :
    Promised (.new transport defers initialized readFilters writeFilters connected timeout) := by
  constructor <;> simp [ConnectionImpl.new, ConnectionImpl.deferring]

/-- While a flush is pending there was a first close. -/
theorem first_ne_none (h : Promised s) (hs : Sound s) (hflush : s.delayedCloseState ≠ .none) :
    s.firstClose ≠ none := by
  intro hnone
  have hasked := (hs.pending.mp hflush).1
  rw [(h.before hnone).1] at hasked
  cases hasked

theorem first_eq_none_of_open (h : Promised s) (hs : Sound s) (hopen : s.state = .open) : s.firstClose = none := by
  by_contra hfirst
  obtain hclosed | hprogress | hflush := h.shut hfirst
  · rw [hclosed] at hopen
    cases hopen
  · exact hs.closing hprogress hopen
  · exact hflush (hs.no_flush_of_open hopen)

theorem not_failed (h : Promised s) (hclosed : s.state ≠ .closed) : s.immediateErrorEvent = none := by
  by_contra hfailed
  exact hclosed (h.failed hfailed)

/-- What is on the stack matters to a flush only as far as it puts a close off. -/
theorem pop (h : Promised s) {frame : Frame} {rest : List Frame} (hframes : s.frames = frame :: rest)
    (hdefers : frame.defers = false) : Promised { s with frames := rest } := by
  have hdeferring : rest.any Frame.defers = s.deferring := by simp [ConnectionImpl.deferring, hframes, hdefers]
  exact
    { h with
      before := fun hfirst => by
        obtain ⟨hasked, hposted, hdeferred, hended, hnot⟩ := h.before hfirst
        exact ⟨hasked, hposted, hdeferred, hended, hdeferring.trans hnot⟩
      drained := by
        rw [show ({ s with frames := rest } : ConnectionImpl).deferring = s.deferring from hdeferring]
        exact h.drained
      ended := by
        rw [show ({ s with frames := rest } : ConnectionImpl).deferring = s.deferring from hdeferring]
        exact h.ended }

/-! ### The teardown -/

/-- The socket is closed once nothing is left to hand over; what was posted for it may be taken off before. -/
theorem closeSocket_of (h : Promised s) {posted : List ConnectionEvent} (hposted : s.posted = [] → posted = [])
    (hempty : s.writeBuffer = []) (hclosed : s.state ≠ .closed) (hprogress : s.socketCloseInProgress = false)
    (event : ConnectionEvent) :
    Promised ({ s with posted := posted }.closeSocket event) ∧
      Due ({ s with posted := posted }.closeSocket event) := by
  have hguard : ¬ (s.state = .closed ∨ s.socketCloseInProgress = true) := by simp [hclosed, hprogress]
  unfold ConnectionImpl.closeSocket
  rw [if_neg hguard, transitionDelayedCloseState_eq]
  refine
    ⟨{ h with
        before := fun hfirst => ?_
        shut := fun _ => .inr (.inl rfl)
        drained := fun _ => hempty
        waits := by simp [ConnectionImpl.callOut]
        ended := fun _ => .inr (.inr (.inl rfl))
        underWay := fun _ => .inr (.inl rfl)
        failed := fun hfailed => absurd (h.not_failed hclosed) hfailed
        socket := fun hsocket => absurd (h.socket hsocket) hclosed },
      fun _ hagain => absurd hagain.symm Bool.false_ne_true⟩
  obtain ⟨hasked, hnone, hdeferred, hended, hdeferring⟩ := h.before hfirst
  exact ⟨hasked, hposted hnone, hdeferred, hended, hdeferring⟩

theorem closeSocket (h : Promised s) (hdue : Due s) (hempty : s.writeBuffer = []) (event : ConnectionEvent) :
    Promised (s.closeSocket event) ∧ Due (s.closeSocket event) := by
  by_cases hguard : s.state = .closed ∨ s.socketCloseInProgress = true
  · have hnothing : s.closeSocket event = s := if_pos hguard
    rw [hnothing]
    exact ⟨h, hdue⟩
  · obtain ⟨hclosed, hprogress⟩ := Sound.going_on hguard
    exact h.closeSocket_of id hempty hclosed hprogress event

theorem finishClose (h : Promised s) (hs : Sound s) {event : ConnectionEvent} {rest : List Frame}
    (hframes : s.frames = .callOut (.transportClose event) :: rest) :
    Promised ({ s with frames := rest }.finishClose event) ∧ Due ({ s with frames := rest }.finishClose event) := by
  have hempty := h.drained (.inr (.inr (.inr (hs.progress_of_tears hframes rfl))))
  have hsent : ({ s with frames := rest }.finishClose event).sent = s.sent := by
    simp only [ConnectionImpl.finishClose, raiseConnectionEvent, ConnectionImpl.callOut, ConnectionImpl.sent]
    split
    · simp [Happening.sentBytes_append, Happening.sentBytes]
    · rfl
  refine
    ⟨{ h.pop hframes rfl with
        inOrder := fun first hfirst => ?_
        shut := fun _ => .inl rfl
        drained := fun _ => rfl
        ended := fun _ => .inr (.inr (.inr rfl))
        underWay := fun _ => .inr (.inr rfl)
        failed := fun _ => rfl
        socket := fun _ => rfl },
      fun hclosed => absurd rfl hclosed⟩
  rw [hsent]
  have hall := h.inOrder first hfirst
  rw [hempty] at hall
  exact hall

/-! ### Putting a close off -/

/-- A close is put off once everything was handed over, and the end of the peer's stream read if it is waited for. -/
theorem closeThroughFilterManager (h : Promised s) (hclosed : s.state ≠ .closed) (hfirst : s.firstClose ≠ none)
    (hempty : s.writeBuffer = []) (peerEnded readHalfClosed : Bool) (event : ConnectionEvent) :
    Promised ({ s with peerEnded := peerEnded, readHalfClosed := readHalfClosed }.closeThroughFilterManager event) ∧
      Due ({ s with peerEnded := peerEnded, readHalfClosed := readHalfClosed }.closeThroughFilterManager event) := by
  have hdefers : Promised ({ s with peerEnded := peerEnded, readHalfClosed := readHalfClosed }.returnTo
      (.deferClose event)) :=
    { h with
      before := fun hnone => absurd hnone hfirst
      drained := fun _ => hempty
      ended := fun _ => .inr (.inl rfl) }
  have hseen : Due ({ s with peerEnded := peerEnded, readHalfClosed := readHalfClosed }.returnTo
      (.deferClose event)) := fun _ _ _ _ => .inr rfl
  unfold ConnectionImpl.closeThroughFilterManager
  rw [if_neg hclosed]
  simp only
  split
  · exact ⟨hdefers, hseen⟩
  · exact (Aside.processReadBuffer _).keeps hdefers hseen

theorem deferClose (h : Promised s) {event : ConnectionEvent} {rest : List Frame}
    (hframes : s.frames = .returnTo (.deferClose event) :: rest) :
    Promised ({ s with frames := rest }.proceed (.deferClose event)) ∧
      Due ({ s with frames := rest }.proceed (.deferClose event)) := by
  have hdeferring : s.deferring = true := by simp [ConnectionImpl.deferring, hframes, Frame.defers]
  have hempty := h.drained (.inr (.inr (.inl hdeferring)))
  have hfirst : s.firstClose ≠ none := by
    intro hnone
    rw [(h.before hnone).2.2.2.2] at hdeferring
    cases hdeferring
  simp only [ConnectionImpl.proceed]
  split
  · next hdeferred =>
      exact
        ⟨{ h with
            before := fun hnone => absurd hnone hfirst
            drained := fun _ => hempty
            ended := fun _ => .inl hdeferred },
          fun _ _ _ _ => .inl hdeferred⟩
  · exact
      ⟨{ h with
          before := fun hnone => absurd hnone hfirst
          drained := fun _ => hempty
          ended := fun _ => .inl rfl
          underWay := fun _ => .inl (by simp) },
        fun _ _ _ _ => .inl rfl⟩

/-! ### Writing -/

/-- A flush that is drained is seen to here. -/
theorem finishFlushIfDrained (h : Promised s) (hs : Sound s) (bytesWritten : Nat) :
    Promised (s.finishFlushIfDrained bytesWritten) ∧ Due (s.finishFlushIfDrained bytesWritten) := by
  unfold ConnectionImpl.finishFlushIfDrained
  split
  · next hnone =>
      refine ⟨h, fun _ _ _ hmode => ?_⟩
      have hflush : s.delayedCloseState ≠ .none := by
        rw [hmode]
        decide
      obtain hclosing | hnone := hnone
      · exact absurd (hs.flushing hflush).1 hclosing
      · exact absurd hnone hflush
  · next hflush =>
      push Not at hflush
      have haside := Aside.rearm s bytesWritten
      have hrearmed := haside.promised h
      simp only
      split
      · next hwaits =>
          refine ⟨hrearmed, fun _ _ hempty hmode => ?_⟩
          have hwaiting := hwaits.resolve_left (not_not.mpr hempty)
          simp only [waitingForPeerClose, hmode] at hwaiting
          simp at hwaiting
      · next hempty =>
          push Not at hempty
          refine hrearmed.closeThroughFilterManager ?_ ?_ hempty.1 _ _ _
          · rw [haside.state, hflush.1]
            decide
          · rw [haside.firstClose]
            exact h.first_ne_none hs hflush.2

theorem writeMore (h : Promised s) (hs : Sound s) (bytesWritten : Nat) :
    Promised (s.writeMore bytesWritten) ∧ Due (s.writeMore bytesWritten) := by
  unfold ConnectionImpl.writeMore
  split
  · exact h.finishFlushIfDrained hs _
  · exact ⟨(Aside.callOut ..).promised h, fun _ _ _ _ => .inr rfl⟩

theorem doWrite (h : Promised s) (hs : Sound s) : Promised s.doWrite ∧ Due s.doWrite := by
  unfold ConnectionImpl.doWrite
  split
  · next hclosed => exact ⟨h, fun hnot => absurd hclosed hnot⟩
  · split
    · exact h.writeMore hs _
    · exact ⟨(Aside.callOut ..).promised h, fun _ _ _ _ => .inr rfl⟩

theorem transportWrote (h : Promised s) (hs : Sound s) {result : TransportIoResult} (hcalm : result.fails = false) :
    Promised (s.transportWrote result) ∧ Due (s.transportWrote result) := by
  simp only [ConnectionImpl.transportWrote, hcalm, Bool.false_eq_true, if_false]
  exact h.writeMore hs _

theorem socketWrote (h : Promised s) (hs : Sound s) (bytesWritten : Nat) {result : TransportIoResult}
    (hcalm : result.fails = false) :
    Promised (s.socketWrote bytesWritten result) ∧ Due (s.socketWrote bytesWritten result) := by
  simp only [ConnectionImpl.socketWrote, hcalm, Bool.false_eq_true, if_false]
  split
  · exact h.finishFlushIfDrained hs _
  · exact h.writeMore hs _

/-- Bytes are put in the buffer only before the first close. -/
theorem put (h : Promised s) (hdue : Due s) (hs : Sound s) {data : Bytes} (hdata : data = [] ∨ s.state = .open) :
    Promised (s.put data) ∧ Due (s.put data) := by
  have hput : Promised { s with writeBuffer := s.writeBuffer ++ data } := by
    obtain rfl | hopen := hdata
    · rw [List.append_nil]
      exact h
    · have hnone := h.first_eq_none_of_open hs hopen
      obtain ⟨-, hposted, hdeferred, -, hdeferring⟩ := h.before hnone
      exact
        { h with
          inOrder := fun first hfirst => absurd (hnone.symm.trans hfirst) (Option.some_ne_none first).symm
          drained := fun hlate => by
            obtain hlate | hlate | hlate | hlate := hlate
            · exact absurd hposted hlate
            · exact absurd hlate (Bool.eq_false_iff.mp hdeferred)
            · exact absurd hlate (Bool.eq_false_iff.mp hdeferring)
            · exact absurd hopen (hs.closing hlate) }
  unfold ConnectionImpl.put
  simp only
  split
  · exact hput.doWrite (hs.putBuffer hdata)
  · exact ⟨hput, fun hclosed hprogress hempty => hdue hclosed hprogress (List.append_eq_nil_iff.mp hempty).1⟩

theorem write (h : Promised s) (hdue : Due s) (hs : Sound s) (data : Bytes) (endStream : Bool) :
    Promised (s.write data endStream) ∧ Due (s.write data endStream) := by
  unfold ConnectionImpl.write
  split
  · exact ⟨h, hdue⟩
  · next hguard =>
      push Not at hguard
      have hwrites : Aside s ({ s with writeHalfClosed := endStream }.returnTo .writing) :=
        (show Aside s { s with writeHalfClosed := endStream } from { Aside.refl s with }).trans (Aside.returnTo _ rfl)
      have hs' : Sound { s with writeHalfClosed := endStream } := { hs with }
      simp only
      split
      · have hcalls := hwrites.trans (Aside.callOut _ (.onWrite (s.writeFilters - 1)))
        exact hcalls.keeps h hdue
      · exact (hwrites.promised h).put (hwrites.due hdue) (hs'.returnTo _) (.inr hguard.1)

theorem wroteThrough (h : Promised s) (hdue : Due s) (hs : Sound s) {left : Nat} {status : FilterStatus}
    {rest : Bytes} (htime : 0 < left ∨ status = .stopIteration ∨ rest = [] ∨ s.state = .open) :
    Promised (s.wroteThrough left status rest) ∧ Due (s.wroteThrough left status rest) := by
  unfold ConnectionImpl.wroteThrough
  split
  · exact ⟨h, hdue⟩
  · next hgoes =>
      cases left with
      | zero => exact h.put hdue hs ((htime.resolve_left (Nat.lt_irrefl 0)).resolve_left hgoes)
      | succ left => exact (Aside.callOut ..).keeps h hdue

/-! ### Closing -/

/-- A flush begins: what is pending is what the first close call found, or what is left of it. -/
theorem beginFlush (h : Promised s) (hclosed : s.state ≠ .closed) (hprogress : s.socketCloseInProgress = false)
    {type : ConnectionCloseType} (hflushes : type.flushes = true) {state : DelayedCloseState} (hflush : state ≠ .none)
    (hwaits :
      state = .closeAfterFlushAndWait →
        type = .flushWriteAndDelay ∧ 0 < s.delayedCloseTimeout ∧ s.delayedCloseState ≠ .closeAfterFlush) :
    Promised (((s.noteClose type).handleEvent .closeRequested).startFlush state) := by
  unfold startFlush
  rw [transitionDelayedCloseState_eq]
  have hnoted (first : FirstClose) (hfirst : (s.noteClose type).firstClose = some first) :
      s.firstClose = some first ∨
        s.firstClose = none ∧ first = ⟨type, s.delayedCloseTimeout, s.sent, s.writeBuffer⟩ := by
    cases hcase : s.firstClose with
    | some earlier =>
        simp only [noteClose, hcase, Option.some_or, Option.some.injEq] at hfirst
        exact .inl (by rw [hfirst])
    | none =>
        simp only [noteClose, hcase, Option.none_or, Option.some.injEq] at hfirst
        exact .inr ⟨rfl, hfirst.symm⟩
  exact
    { h with
      before := fun hnone => by
        simp [ConnectionImpl.handleEvent, noteClose] at hnone
      flushes := fun first hfirst => by
        obtain hfirst | ⟨-, rfl⟩ := hnoted first hfirst
        · exact h.flushes first hfirst
        · exact hflushes
      inOrder := fun first hfirst => by
        obtain hfirst | ⟨-, rfl⟩ := hnoted first hfirst
        · exact h.inOrder first hfirst
        · exact ⟨[], (List.append_nil _).symm, rfl⟩
      shut := fun _ => .inr (.inr hflush)
      waits := fun hmode first hfirst => by
        obtain ⟨rfl, htimeout, hmode'⟩ := hwaits hmode
        obtain hfirst | ⟨-, rfl⟩ := hnoted first hfirst
        · refine h.waits ?_ first hfirst
          obtain hagain | hagain | hagain := h.shut (by simp [hfirst])
          · exact absurd hagain hclosed
          · exact absurd hagain (Bool.eq_false_iff.mp hprogress)
          · cases hcase : s.delayedCloseState <;> simp_all
        · simpa [FirstClose.waits] using htimeout
      ended := fun hended => by
        obtain hlate | hlate | hlate | hlate := h.ended hended
        · exact .inl hlate
        · exact .inr (.inl hlate)
        · exact absurd hlate (Bool.eq_false_iff.mp hprogress)
        · exact absurd hlate hclosed
      underWay := fun hdeferred => by
        obtain hlate | hlate | hlate := h.underWay hdeferred
        · exact .inl hlate
        · exact absurd hlate (Bool.eq_false_iff.mp hprogress)
        · exact absurd hlate hclosed
      failed := fun hfailed => absurd (h.failed hfailed) hclosed
      socket := fun hsocket => absurd (h.socket hsocket) hclosed }

theorem close (h : Promised s) (hdue : Due s) (hs : Sound s) {type : ConnectionCloseType}
    (hflushes : type.flushes = true)
    (hmode : type = .flushWriteAndDelay → 0 < s.delayedCloseTimeout → s.delayedCloseState ≠ .closeAfterFlush) :
    Promised (s.close type) ∧ Due (s.close type) := by
  unfold ConnectionImpl.close
  split
  · exact ⟨h, hdue⟩
  · next hguard =>
      obtain ⟨hclosed, hprogress⟩ := Sound.going_on hguard
      cases type with
      | noFlush => exact absurd hflushes (by decide)
      | abort => exact absurd hflushes (by decide)
      | abortReset => exact absurd hflushes (by decide)
      | flushWrite =>
          have hbegun : Promised
              (((s.noteClose .flushWrite).handleEvent .closeRequested).startFlush .closeAfterFlush) :=
            h.beginFlush hclosed hprogress rfl (by decide) (by simp)
          simp only
          split
          · next hempty =>
              refine hbegun.closeSocket_of id (List.isEmpty_iff.mp hempty) ?_ ?_ _
              · simp [startFlush, transitionDelayedCloseState_eq]
              · rw [startFlush, transitionDelayedCloseState_eq]
                exact hprogress
          · exact hbegun.doWrite (hs.beginFlush hclosed hprogress rfl (by decide))
      | flushWriteAndDelay =>
          refine doWrite (h.beginFlush hclosed hprogress rfl ?_ fun hwaits => ?_)
            (hs.beginFlush hclosed hprogress rfl ?_)
          · split <;> decide
          · have htimeout : 0 < s.delayedCloseTimeout := by
              by_contra hnot
              have hzero : ¬ 0 < ((s.noteClose .flushWriteAndDelay).handleEvent
                  .closeRequested).delayedCloseTimeout := hnot
              rw [if_neg hzero] at hwaits
              cases hwaits
            exact ⟨rfl, htimeout, hmode rfl htimeout⟩
          · split <;> decide

theorem dataReturned (h : Promised s) (hdue : Due s) (hs : Sound s) (entry : Nat) (endStream : Bool)
    (status : FilterStatus) (rest : Bytes) :
    Promised (s.dataReturned entry endStream status rest) ∧ Due (s.dataReturned entry endStream status rest) := by
  unfold ConnectionImpl.dataReturned
  simp only
  split
  · exact ⟨{ h with }, hdue⟩
  · split
    · have haside : Aside s ({ s with readBuffer := rest }.onData (entry + 1) endStream) :=
        (show Aside s { s with readBuffer := rest } from { Aside.refl s with }).trans (Aside.onData ..)
      exact haside.keeps h hdue
    · have hmoved : Promised { s with readBuffer := rest, currentReadFilter := s.readFilters } := { h with }
      split
      · exact hmoved.close hdue { hs with } rfl (by simp)
      · exact ⟨hmoved, hdue⟩

/-! ### Reading -/

/-- The end of the peer's stream is what the flush was still waiting for. -/
theorem socketWasRead (h : Promised s) (hdue : Due s) (hs : Sound s) {result : TransportIoResult}
    (hok : result.ok = true) (hcalm : result.ends = true → s.waitingForPeerClose = true) :
    Promised (s.socketWasRead result) ∧ Due (s.socketWasRead result) := by
  have hends (hended : result.ends = true) (readHalfClosed : Bool) :
      Promised ({ s with peerEnded := true, readHalfClosed := readHalfClosed }.closeThroughFilterManager
          .remoteClose) ∧
        Due ({ s with peerEnded := true, readHalfClosed := readHalfClosed }.closeThroughFilterManager
          .remoteClose) := by
    have hwaiting := hcalm hended
    simp only [waitingForPeerClose, Bool.and_eq_true, decide_eq_true_eq, List.isEmpty_iff] at hwaiting
    obtain ⟨⟨hclosing, hmode⟩, hempty⟩ := hwaiting
    refine h.closeThroughFilterManager (by rw [hclosing]; decide) (h.first_ne_none hs ?_) hempty _ _ _
    rw [hmode]
    decide
  unfold ConnectionImpl.socketWasRead
  simp only [hok, Bool.not_true, Bool.false_eq_true, if_false]
  split
  · next haction => exact hends (by simp [TransportIoResult.ends, haction]) s.readHalfClosed
  split
  · next hbytes =>
      split
      · next hend => exact hends (by simp [TransportIoResult.ends, hbytes, hend]) true
      · exact ⟨h, hdue⟩
  · split
    · have haside : Aside s ({ s with readBuffer := [] }.readMore) :=
        (show Aside s { s with readBuffer := [] } from { Aside.refl s with }).trans (Aside.readMore _)
      exact haside.keeps h hdue
    · have haside : Aside s (s.returnTo .readMore).processReadBuffer :=
        (Aside.returnTo s rfl).trans (Aside.processReadBuffer _)
      exact haside.keeps h hdue

/-! ### Connecting and events -/

theorem completeConnect (h : Promised s) (hdue : Due s) (hopen : s.state = .open) (flush : Bool) :
    Promised (s.completeConnect flush) ∧ Due (s.completeConnect flush) := by
  have hdone : Aside s { s with connecting := false, state := .open } := { Aside.refl s with state := hopen.symm }
  have haside : Aside s (s.completeConnect flush) :=
    (hdone.trans (Aside.handleEvent (Sound.state_socketConnected rfl))).trans (Aside.callOut ..)
  exact haside.keeps h hdue

theorem socketConnect (h : Promised s) (hdue : Due s) {accepted : Bool} {outcome : ConnectOutcome}
    (hcalm : accepted = true ∧ outcome ≠ .failed)
    (htime : accepted = true → outcome = .immediate → s.socketOpen = true → s.state = .open) :
    Promised (s.socketConnect accepted outcome) ∧ Due (s.socketConnect accepted outcome) := by
  unfold ConnectionImpl.socketConnect
  simp only [hcalm.1, Bool.not_true, Bool.false_eq_true, if_false]
  split
  · next himmediate =>
      split at himmediate
      · next hsocket =>
          have hready : Promised { s with writeReady := true } := { h with }
          exact hready.completeConnect hdue (htime hcalm.1 himmediate hsocket) false
      · cases himmediate
  · exact ⟨h, hdue⟩
  · next hfailed =>
      split at hfailed
      · exact absurd hfailed hcalm.2
      · next hsocket =>
          exact ⟨{ h with failed := fun _ => h.socket (Bool.eq_false_of_not_eq_true hsocket) }, hdue⟩

theorem onWriteReady (h : Promised s) (hdue : Due s) (hs : Sound s) {socketError : Bool} (hclosed : s.state ≠ .closed)
    (hprogress : s.socketCloseInProgress = false) (hcalm : s.connecting = true → socketError = false)
    (htime : s.state = .closing → s.connecting = true → socketError = true) :
    Promised (s.onWriteReady socketError) ∧ Due (s.onWriteReady socketError) := by
  have hstate := Sound.open_or_closing hclosed hprogress
  have hs' : Sound { s with writeReady := true } := { hs with }
  have hready : Aside s { s with writeReady := true } := { Aside.refl s with }
  unfold ConnectionImpl.onWriteReady
  simp only
  split
  · exact hready.keeps h hdue
  · obtain ⟨htold, hsame⟩ := hs'.readyEvent (.inr rfl) hstate
    have haside := hready.trans (Aside.handleEvent hsame)
    split
    · next hconnecting =>
        have herror : socketError = false := hcalm hconnecting
        simp only [herror, Bool.false_eq_true, if_false]
        refine (haside.promised h).completeConnect (haside.due hdue) ?_ true
        rw [hsame]
        refine hstate.resolve_right fun hclosing => ?_
        exact absurd (htime hclosing.1 hconnecting) (Bool.eq_false_iff.mp herror)
    · exact ((Aside.returnTo _ rfl).promised (haside.promised h)).doWrite (htold.returnTo _)

theorem onFileEvent (h : Promised s) (hdue : Due s) (hs : Sound s) {read write closed socketError : Bool}
    (hopen : closed = false) (hcalm : write = true → s.connecting = true → socketError = false)
    (htime : s.state = .closing → s.completesConnect write closed socketError = false) :
    Promised (s.onFileEvent read write closed socketError) ∧
      Due (s.onFileEvent read write closed socketError) := by
  unfold ConnectionImpl.onFileEvent
  split
  · exact ⟨h, hdue⟩
  · next hguard =>
      obtain ⟨hclosed, hprogress⟩ := Sound.going_on hguard
      have hfine := h.not_failed hclosed
      have haside : Aside s (s.returnTo (.handlingWrite read)) := Aside.returnTo s rfl
      rw [hfine]
      simp only [hopen, Bool.false_eq_true, if_false]
      split
      · next hwrite =>
          refine (haside.promised h).onWriteReady (haside.due hdue) (hs.returnTo _) hclosed hprogress
            (hcalm hwrite) fun hclosing hconnecting => ?_
          have hnot := htime hclosing
          simp only [completesConnect, hfine, hopen, hwrite] at hnot
          simpa [show s.connecting = true from hconnecting] using hnot
      · exact haside.keeps h hdue

theorem raiseConnected (h : Promised s) (hdue : Due s) (hs : Sound s) (zeroRtt : Bool) :
    Promised (s.raiseConnected zeroRtt) ∧ Due (s.raiseConnected zeroRtt) := by
  have hready : Aside s ({ s with writeReady := true }.returnTo (.raiseConnected zeroRtt)) :=
    (show Aside s { s with writeReady := true } from { Aside.refl s with }).trans (Aside.returnTo _ rfl)
  have hs' : Sound { s with writeReady := true } := { hs with }
  unfold ConnectionImpl.raiseConnected
  simp only
  split
  · exact hready.keeps h hdue
  · exact (hready.promised h).doWrite (hs'.returnTo _)

/-! ### Steps -/

theorem called (h : Promised s) (hdue : Due s) (hs : Sound s) {call : ConnectionCall}
    (hrelies : s.relies (.call call) = true) (hcalm : s.disturbs (.call call) = false) :
    Promised (s.called call) ∧ Due (s.called call) := by
  cases call with
  | close type =>
      refine h.close hdue hs (by simpa [disturbs] using hcalm) fun htype htimeout => ?_
      simpa [relies, htype, htimeout.ne'] using hrelies
  | write data endStream => exact h.write hdue hs data endStream
  | readDisable disable => exact ⟨{ h with }, hdue⟩
  | setDelayedCloseTimeout timeout => exact ⟨{ h with }, hdue⟩
  | connect =>
      have haside : Aside s s.connect :=
        ((show Aside s { s with connecting := true } from { Aside.refl s with }).trans
          (Aside.handleEvent (Sound.state_connectionRequested _))).trans (Aside.callOut _ .transportConnect)
      exact haside.keeps h hdue
  | raiseEvent event =>
      cases event with
      | connected => exact h.raiseConnected hdue hs false
      | connectedZeroRtt => exact h.raiseConnected hdue hs true
      | remoteClose => simp [relies, ConnectionEvent.isClose] at hrelies
      | localClose => simp [relies, ConnectionEvent.isClose] at hrelies
  | flushWriteBuffer => exact h.doWrite hs
  | continueReading => exact (Aside.onContinueReading s).keeps h hdue
  | injectReadDataToFilterChain data =>
      exact (Aside.injectReadDataToFilterChain s data).keeps h hdue

/-- A call other than one of the teardown returns without an error. One to write makes good for what it saw to. -/
theorem resume (h : Promised s) {call : CallOut} {reply : CallReply} (hdue : call.finishes = false → Due s)
    (hs : Sound s) (htears : call.tears = false) (htime : s.inTime call reply = true)
    (hcalm : { s with frames := .callOut call :: s.frames }.disturbs (.returns reply) = false)
    {after : ConnectionImpl} (hafter : s.resume call reply = some after) : Promised after ∧ Due after := by
  cases call <;> cases reply <;> simp only [ConnectionImpl.resume, reduceCtorEq, Option.some.injEq] at hafter <;>
    subst hafter
  case transportConnect accepted outcome =>
    refine h.socketConnect (hdue rfl) ?_ fun haccepted himmediate hsocket => ?_
    · simpa [disturbs] using hcalm
    · simpa [inTime, haccepted, himmediate, hsocket] using htime
  case transportConnected flush =>
    exact (Aside.transportWasTold s flush).keeps h (hdue rfl)
  case transportClose event => simp [CallOut.tears] at htears
  case transportWrite result => exact h.transportWrote hs (by simpa [disturbs, isWriting, isReading] using hcalm)
  case socketWrite bytesWritten result =>
    exact h.socketWrote hs bytesWritten (by simpa [disturbs, isWriting, isReading] using hcalm)
  case socketRead result =>
    have hcalm : result.ok = true ∧ (result.ends = true → s.waitingForPeerClose = true) := by
      simpa [disturbs, isWriting, isReading, waitingForPeerClose] using hcalm
    exact h.socketWasRead (hdue rfl) hs hcalm.1 hcalm.2
  case callbacks => exact ⟨h, hdue rfl⟩
  case onData entry endStream status rest => exact h.dataReturned (hdue rfl) hs entry endStream status rest
  case injected entry saved status rest =>
    exact (Aside.injectedReturned s entry saved status rest).keeps h (hdue rfl)
  case onWrite left status rest =>
    refine h.wroteThrough (hdue rfl) hs ?_
    simpa [inTime, or_assoc] using htime

theorem afterReturn (h : Promised s) (hdue : Due s) (hs : Sound s) {reply : CallReply}
    (hrelies : s.relies (.returns reply) = true) (hcalm : s.disturbs (.returns reply) = false) :
    Promised (s.afterReturn reply) ∧ Due (s.afterReturn reply) := by
  unfold ConnectionImpl.afterReturn
  split
  · next call rest hframes =>
      have htime : s.inTime call reply = true := by simpa only [relies, hframes] using hrelies
      cases hafter : { s with frames := rest }.resume call reply with
      | none => exact ⟨h, hdue⟩
      | some after =>
          cases htears : call.tears with
          | false =>
              have hpopped := h.pop hframes rfl
              refine hpopped.resume (fun hfinishes => ?_) (hs.pop hframes htears) htears htime ?_ hafter
              · exact (Aside.pop hframes rfl hfinishes).due hdue
              · rw [← hframes]
                exact hcalm
          | true =>
              cases call <;> simp only [CallOut.tears, reduceCtorEq] at htears
              cases reply <;> simp only [ConnectionImpl.resume, reduceCtorEq, Option.some.injEq] at hafter
              subst hafter
              exact h.finishClose hs hframes
  · exact ⟨h, hdue⟩

theorem proceed (h : Promised s) (hdue : Due s) (hs : Sound s) {point : ReturnPoint}
    (hdefers : (Frame.returnTo point).defers = false) : Promised (s.proceed point) ∧ Due (s.proceed point) := by
  cases point with
  | readBufferProcessed => exact ⟨{ h with }, hdue⟩
  | readMore => exact (Aside.readMore s).keeps h hdue
  | deferClose event => simp [Frame.defers] at hdefers
  | wroteReady => exact ⟨{ h with }, hdue⟩
  | flushConnected => exact h.doWrite hs
  | raiseConnected zeroRtt =>
      cases zeroRtt with
      | true => exact (Aside.callOut s .callbacks).keeps h hdue
      | false => exact (Aside.callOut s .callbacks).keeps h hdue
  | writing => exact ⟨h, hdue⟩
  | handlingWrite read =>
      simp only [ConnectionImpl.proceed]
      split
      · next hread =>
          have htold := (hs.returnTo .handlingRead).readyEvent (.inl rfl) (hs.open_or_waiting hread.1)
          have haside := ((Aside.returnTo s (show (Frame.returnTo .handlingRead).defers = false from rfl)).trans
            (Aside.handleEvent htold.2)).trans (Aside.doRead _)
          exact haside.keeps h hdue
      · exact ⟨h, hdue⟩
  | handlingRead => exact ⟨h, hdue⟩

theorem goOn (h : Promised s) (hdue : Due s) (hs : Sound s) : Promised s.goOn ∧ Due s.goOn := by
  unfold ConnectionImpl.goOn
  split
  · next point rest hframes =>
      cases hdefers : (Frame.returnTo point).defers with
      | false =>
          have hfinishes : (Frame.returnTo point).finishes = false := by
            cases point <;> first | rfl | simp [Frame.defers] at hdefers
          exact (h.pop hframes hdefers).proceed ((Aside.pop hframes hdefers hfinishes).due hdue)
            (hs.pop hframes rfl) hdefers
      | true =>
          cases point <;> simp only [Frame.defers, reduceCtorEq] at hdefers
          exact h.deferClose hframes
  · exact ⟨h, hdue⟩

/-- A close that was posted is run: everything was handed over. -/
theorem runPosted (h : Promised s) (hdue : Due s) : Promised s.runPosted ∧ Due s.runPosted := by
  unfold ConnectionImpl.runPosted
  split
  · exact ⟨h, hdue⟩
  · next event rest hposted =>
      have hlate : s.posted ≠ [] := by
        simp [hposted]
      by_cases hguard : s.state = .closed ∨ s.socketCloseInProgress = true
      · have hnothing : { s with posted := rest }.closeSocket event = { s with posted := rest } := if_pos hguard
        rw [hnothing]
        exact
          ⟨{ h with
              before := fun hfirst => absurd (h.before hfirst).2.1 hlate
              drained := fun _ => h.drained (.inl hlate)
              underWay := fun _ => .inr hguard.symm },
            hdue⟩
      · obtain ⟨hclosed, hprogress⟩ := Sound.going_on hguard
        exact h.closeSocket_of (fun hnone => absurd hnone hlate) (h.drained (.inl hlate)) hclosed hprogress event

theorem take (h : Promised s) (count : Nat) (hwriting : s.isWriting = true) :
    Promised (s.take count) ∧ Due (s.take count) := by
  have hsent : (s.take count).sent = s.sent ++ s.writeBuffer.take count := by
    simp [ConnectionImpl.sent, ConnectionImpl.take, Happening.sentBytes_append, Happening.sentBytes]
  have hfinishing : s.finishing = true := by
    unfold isWriting at hwriting
    unfold ConnectionImpl.finishing
    split at hwriting
    · next hframes => rw [hframes]; rfl
    · next hframes => rw [hframes]; rfl
    · cases hwriting
  refine
    ⟨{ h with
        inOrder := fun first hfirst => ?_
        drained := fun hlate => ?_ },
      fun _ _ _ _ => .inr hfinishing⟩
  · obtain ⟨taken, hbefore, hpending⟩ := h.inOrder first hfirst
    refine ⟨taken ++ s.writeBuffer.take count, ?_, ?_⟩
    · rw [hsent, hbefore, List.append_assoc]
    · rw [List.append_assoc]
      exact (congrArg (taken ++ ·) (List.take_append_drop count _)).trans hpending
  · exact (congrArg (List.drop count) (h.drained hlate)).trans List.drop_nil

theorem act (h : Promised s) (hdue : Due s) (hs : Sound s) {op : ConnectionOp} (hrelies : s.relies op = true)
    (hcalm : s.disturbs op = false) : Promised (s.act op) ∧ Due (s.act op) := by
  cases op with
  | call call =>
      simp only [ConnectionImpl.act]
      split
      · exact h.called hdue hs hrelies hcalm
      · exact ⟨h, hdue⟩
  | takes count =>
      simp only [ConnectionImpl.act]
      split
      · next hwriting => exact h.take count hwriting
      · exact ⟨h, hdue⟩
  | receives bytes =>
      simp only [ConnectionImpl.act]
      split
      · exact ⟨{ h with }, hdue⟩
      · exact ⟨h, hdue⟩
  | returns reply => exact h.afterReturn hdue hs hrelies hcalm
  | throws => simp [disturbs] at hcalm
  | goesOn => exact h.goOn hdue hs
  | fileEvent read write closed socketError =>
      simp only [disturbs, Bool.or_eq_false_iff] at hcalm
      simp only [ConnectionImpl.act]
      split
      · refine h.onFileEvent hdue hs hcalm.1 (fun hwrite hconnecting => ?_) fun hclosing => ?_
        · simpa [hwrite, hconnecting] using hcalm.2
        · simpa [relies, hclosing] using hrelies
      · exact ⟨h, hdue⟩
  | runPosted =>
      simp only [ConnectionImpl.act]
      split
      · exact h.runPosted hdue
      · exact ⟨h, hdue⟩
  | delayedCloseTimeout => simp [disturbs] at hcalm
  | connectTimeout => simp [disturbs] at hcalm

/-! ### What a calm run comes to -/

theorem flushesFirst (h : Promised s) (hdue : Due s) (hs : Sound s) {first : FirstClose}
    (hfirst : s.firstClose = some first) : s.Flushes first := by
  obtain ⟨taken, hsent, hpending⟩ := h.inOrder first hfirst
  refine ⟨⟨taken, hsent, hpending⟩, fun hraised => ?_, fun hframes hall hwaits => ?_⟩
  · rw [(hs.raised hraised).2.2, List.append_nil] at hpending
    rw [hsent, hpending]
  · rw [CloseUnderWay]
    by_contra hnot
    push Not at hnot
    obtain ⟨hclosed, hposted⟩ := hnot
    have hempty : s.writeBuffer = [] := by
      rw [hsent, List.append_cancel_left_eq] at hall
      rw [hall] at hpending
      exact List.append_right_eq_self.mp hpending
    have hprogress : s.socketCloseInProgress = false := by
      have hcount := hs.tearing
      rw [hframes] at hcount
      cases hcase : s.socketCloseInProgress with
      | false => rfl
      | true =>
          rw [hcase] at hcount
          cases hcount
    have hnotDeferred : s.deferredDelete = false := by
      by_contra hdeferred
      obtain hlate | hlate | hlate := h.underWay (by simpa using hdeferred)
      · exact hlate hposted
      · exact absurd hlate (Bool.eq_false_iff.mp hprogress)
      · exact hclosed hlate
    have hflush : s.delayedCloseState ≠ .none := by
      obtain hlate | hlate | hflush := h.shut (by simp [hfirst])
      · exact absurd hlate hclosed
      · exact absurd hlate (Bool.eq_false_iff.mp hprogress)
      · exact hflush
    cases hmode : s.delayedCloseState with
    | none => exact hflush hmode
    | closeAfterFlush =>
        obtain hlate | hlate := hdue hclosed hprogress hempty hmode
        · exact absurd hlate (Bool.eq_false_iff.mp hnotDeferred)
        · rw [ConnectionImpl.finishing, hframes] at hlate
          cases hlate
    | closeAfterFlushAndWait =>
        obtain hlate | hlate | hlate | hlate := h.ended (hwaits (h.waits hmode first hfirst))
        · exact absurd hlate (Bool.eq_false_iff.mp hnotDeferred)
        · rw [ConnectionImpl.deferring, hframes] at hlate
          cases hlate
        · exact absurd hlate (Bool.eq_false_iff.mp hprogress)
        · exact hclosed hlate

end Promised

/-! ### Runs -/

/-- What every step keeps, as long as nothing comes in between. -/
structure Inv (s : ConnectionImpl) : Prop where
  sound : Sound s
  calm : s.disturbed = false → Promised s ∧ Due s

theorem Inv.step {s : ConnectionImpl} (h : Inv s) {op : ConnectionOp} (hrelies : s.relies op = true) :
    Inv (s.step op) := by
  refine ⟨{ h.sound.act hrelies with }, fun hcalm => ?_⟩
  obtain ⟨hbefore, hnow⟩ := Bool.or_eq_false_iff.mp hcalm
  obtain ⟨hpromised, hdue⟩ := h.calm hbefore
  obtain ⟨hpromised, hdue⟩ := hpromised.act hdue h.sound hrelies hnow
  exact ⟨{ hpromised with }, hdue⟩

theorem Inv.closesWell {s : ConnectionImpl} (h : Inv s) : ClosesWell s where
  once := h.sound.once
  flushes first hfirst _ hcalm := (h.calm hcalm).1.flushesFirst (h.calm hcalm).2 h.sound hfirst
  armed := by rw [h.sound.armed, h.sound.pending]

/-- **A close closes once, and flushes what it promised**, in every state of a run in which the outside does what the
code relies on. -/
theorem closes_well_everywhere (transport : TransportKind) (defersConnectedEvent initialized : Bool)
    (readFilters writeFilters : Nat) (connected : Bool) (timeout : Nat) (ops : List ConnectionOp)
    (hrelies : Runs.Guarded step (fun s op => s.relies op = true)
      (new transport defersConnectedEvent initialized readFilters writeFilters connected timeout) ops) :
    ∀ before after, ops = before ++ after →
      ClosesWell (Runs.run step
        (new transport defersConnectedEvent initialized readFilters writeFilters connected timeout) before) := by
  intro before after hsplit
  rw [hsplit, Runs.guarded_append step] at hrelies
  have hnew : Inv (new transport defersConnectedEvent initialized readFilters writeFilters connected timeout) :=
    ⟨.new .., fun _ => ⟨.new .., by simp [Due, new]⟩⟩
  exact (@Runs.invariant _ _ step _ Inv (fun s op hrelies h => h.step hrelies) _ hnew before hrelies.1).closesWell

/-- Three bytes are pending when the connection of a server is closed with a delay; they are taken in two parts, the
peer ends its stream, and the close that was put off is run. -/
theorem closes_well_delayed :
    ClosesWell (Runs.run step (new .raw false true 0 0 true 5000)
      [.call (.write [1, 2, 3] false), .goesOn, .call (.close .flushWriteAndDelay), .takes 1,
        .returns (.io ⟨true, .continue, 1, false⟩), .returns (.io ⟨true, .continue, 0, false⟩),
        .fileEvent false true false false, .takes 2, .returns (.io ⟨true, .continue, 2, false⟩), .goesOn, .goesOn,
        .fileEvent true false false false, .goesOn, .returns (.io ⟨true, .close, 0, false⟩), .goesOn, .goesOn,
        .runPosted, .returns .done, .returns .done]) :=
  closes_well_everywhere .raw false true 0 0 true 5000 _ (by decide) _ [] (List.append_nil _).symm

/-- A client writes three bytes while it connects, and closes with a flush. The socket takes nothing yet; then it is
connected, which opens the connection again: the bytes are taken, and no close follows. -/
theorem not_closes_well_connecting :
    ¬ ClosesWell (Runs.run step (new .raw false true 0 0 false 5000)
      [.call .connect, .returns (.connect true .inProgress), .call (.write [1, 2, 3] false), .goesOn,
        .call (.close .flushWrite), .returns (.io ⟨true, .continue, 0, false⟩), .fileEvent false true false false,
        .returns .done, .returns .done, .goesOn, .takes 3, .returns (.io ⟨true, .continue, 3, false⟩), .goesOn]) := by
  intro h
  obtain hclosed | hposted := (h.flushes ⟨.flushWrite, 5000, [], [1, 2, 3]⟩ rfl rfl rfl).thenCloses rfl rfl
    (by decide)
  · cases hclosed
  · exact hposted rfl

end ConnectionImpl

end GopherMcp
