import GopherMcp.Lib.Runs
import GopherMcp.Transport.SslTransportSocket

/-!
# Runs of the TLS transport socket

What holds of the socket holds between any two of its instructions, so that the connection may call it again at any point:
the states its machine went through are a walk along valid transitions, a connection is among them only after a handshake
was completed with the peer verified, plaintext passes only with a connection among them, and no byte of either stream is
lost, repeated or put before another.
-/

namespace GopherMcp

namespace SslTransportSocket

open SslSocketMode (AfterConnection afterConnection_closed)

/-- At any instant. -/
structure Sound (s : SslTransportSocket) : Prop where
  walk : List.IsChain s.mode.IsValid (.uninitialized :: s.visited)
  current : (SslSocketState.uninitialized :: s.visited).getLast? = some s.currentState
  gate : .connected ∈ s.visited → ∃ verified ∈ s.completions, s.verifyPeer = true → verified = true
  plaintext : s.encrypted ≠ [] ∨ s.decrypted ≠ [] → .connected ∈ s.visited
  fed : s.arrived = s.consumed ++ s.networkBio ++ s.bioCarryover
  carried : s.produced = s.sent ++ s.bioWriteCarryover ++ s.internalBio
  ordered : s.offered = s.encrypted ++ s.buffer
  unused : s.writeBuffer = []
  tasks : .transition .connected ∉ s.posted

/-- The books are in order, the walk has gone on, and where it was past the connection no plaintext has passed. -/
structure Kept (s s' : SslTransportSocket) : Prop where
  mode : s'.mode = s.mode
  verifyPeer : s'.verifyPeer = s.verifyPeer
  visited : s.visited <+: s'.visited
  ended : AfterConnection s.currentState →
    AfterConnection s'.currentState ∧ s'.encrypted = s.encrypted ∧ s'.decrypted = s.decrypted
  sound : s'.Sound

/-- What any piece of code does between two instants. -/
def Keeps (s s' : SslTransportSocket) : Prop := s.Sound → Kept s s'

variable {s s' : SslTransportSocket}

theorem Keeps.refl (s : SslTransportSocket) : Keeps s s := fun h => ⟨rfl, rfl, List.prefix_rfl, fun hended => ⟨hended, rfl, rfl⟩, h⟩

theorem Keeps.trans {t : SslTransportSocket} (h : Keeps s t) (h' : Keeps t s') : Keeps s s' := fun hs =>
  let first := h hs
  let second := h' first.sound
  ⟨second.mode.trans first.mode, second.verifyPeer.trans first.verifyPeer, first.visited.trans second.visited,
    fun hended =>
      let ⟨hfirst, hencrypted, hdecrypted⟩ := first.ended hended
      let ⟨hsecond, hencrypted', hdecrypted'⟩ := second.ended hfirst
      ⟨hsecond, hencrypted'.trans hencrypted, hdecrypted'.trans hdecrypted⟩,
    second.sound⟩

/-- What the books are kept of: the states and tasks, and either stream at either end. -/
def books (s : SslTransportSocket) :=
  ((s.mode, s.verifyPeer, s.currentState, s.visited, s.completions, s.posted),
    (s.arrived, s.consumed, s.networkBio, s.bioCarryover),
    (s.produced, s.sent, s.bioWriteCarryover, s.internalBio),
    (s.offered, s.encrypted, s.decrypted, s.buffer, s.writeBuffer))

/-- Flags, timers, counters and the script are not in the books. -/
theorem Keeps.of_books {t : SslTransportSocket} (h : t.books = s.books) : Keeps s t := by
  simp only [books, Prod.mk.injEq] at h
  obtain ⟨⟨hmode, hverify, hcurrent, hvisited, hcompletions, hposted⟩, hstreams, hanswers, htexts⟩ := h
  refine fun hs => ⟨hmode, hverify, hvisited ▸ List.prefix_rfl,
    fun hended => ⟨hcurrent ▸ hended, htexts.2.1, htexts.2.2.1⟩, ?_⟩
  constructor
  · rw [hmode, hvisited]; exact hs.walk
  · rw [hvisited, hcurrent]; exact hs.current
  · rw [hvisited, hcompletions, hverify]; exact hs.gate
  · rw [htexts.2.1, htexts.2.2.1, hvisited]; exact hs.plaintext
  · rw [hstreams.1, hstreams.2.1, hstreams.2.2.1, hstreams.2.2.2]; exact hs.fed
  · rw [hanswers.1, hanswers.2.1, hanswers.2.2.1, hanswers.2.2.2]; exact hs.carried
  · rw [htexts.1, htexts.2.1, htexts.2.2.2.1]; exact hs.ordered
  · rw [htexts.2.2.2.2]; exact hs.unused
  · rw [hposted]; exact hs.tasks

theorem Keeps.shutdownSent {t : SslTransportSocket} (h : Keeps s t) : Keeps s { t with shutdownSent := true } :=
  h.trans (Keeps.of_books rfl)

theorem Keeps.shutdownReceived {t : SslTransportSocket} (h : Keeps s t) :
    Keeps s { t with shutdownReceived := true } :=
  h.trans (Keeps.of_books rfl)

theorem keeps_script (s : SslTransportSocket) (script : SslScript) : Keeps s { s with script := script } :=
  Keeps.of_books rfl

theorem keeps_readable (s : SslTransportSocket) (readable : Bool) : Keeps s { s with readable := readable } :=
  Keeps.of_books rfl

/-! ### Encrypted bytes -/

theorem keeps_callSsl {α : Type} (call : SslCall α) (s : SslTransportSocket) : Keeps s (callSsl call s) := by
  refine fun h => ⟨rfl, rfl, List.prefix_rfl, fun hended => ⟨hended, rfl, rfl⟩, { h with fed := ?_, carried := ?_ }⟩
  · simp [callSsl, h.fed]
  · simp [callSsl, h.carried]

/-- What the inner socket took of the bytes carried over is sent, and the rest stays. -/
theorem keeps_carried (s : SslTransportSocket) :
    Keeps s { (innerWrite s.bioWriteCarryover s).1 with
      bioWriteCarryover := s.bioWriteCarryover.drop (innerWrite s.bioWriteCarryover s).2.1 } := by
  refine fun h => ⟨rfl, rfl, List.prefix_rfl, fun hended => ⟨hended, rfl, rfl⟩, { h with carried := ?_ }⟩
  simp only [innerWrite]
  rw [List.append_assoc s.sent, List.take_append_drop, h.carried]

/-- Nothing is carried over when fresh bytes are sent: what is not taken of them is carried over. -/
theorem keeps_written {s : SslTransportSocket} (hempty : s.bioWriteCarryover = []) :
    Keeps s { (innerWrite s.internalBio s).1 with
      bioWriteCarryover := s.bioWriteCarryover ++ s.internalBio.drop (innerWrite s.internalBio s).2.1
      internalBio := [] } := by
  refine fun h => ⟨rfl, rfl, List.prefix_rfl, fun hended => ⟨hended, rfl, rfl⟩, { h with carried := ?_ }⟩
  simp only [innerWrite, hempty, List.nil_append, List.append_nil]
  rw [List.append_assoc s.sent, List.take_append_drop, h.carried, hempty, List.append_nil]

theorem keeps_moveFromBio (s : SslTransportSocket) : Keeps s (moveFromBio s).1 := by
  unfold moveFromBio
  split
  case isTrue hnone =>
      have hdrop : Keeps s { s with bioWriteCarryover := s.bioWriteCarryover.drop 0 } := Keeps.of_books rfl
      dsimp only
      split
      · exact hdrop
      · exact hdrop.trans (keeps_written (s := { s with bioWriteCarryover := s.bioWriteCarryover.drop 0 })
          (List.isEmpty_iff.mp hnone))
  case isFalse =>
      dsimp only
      split
      case isTrue => exact keeps_carried s
      case isFalse hall =>
          refine (keeps_carried s).trans (keeps_written ?_)
          simp only [Bool.or_eq_true, not_or, Bool.not_eq_true', Bool.not_eq_false] at hall
          exact List.isEmpty_iff.mp hall.1.2

/-- Bytes that were read, with nothing carried over before them. -/
theorem keeps_fed {s : SslTransportSocket} (hempty : s.bioCarryover = []) :
    Keeps s { (writeToNetworkBio (innerRead s).2.bytes (innerRead s).1).1 with
      bioCarryover := s.bioCarryover ++ (writeToNetworkBio (innerRead s).2.bytes (innerRead s).1).2.1 } := by
  refine fun h => ⟨rfl, rfl, List.prefix_rfl, fun hended => ⟨hended, rfl, rfl⟩, { h with fed := ?_ }⟩
  simp only [writeToNetworkBio, innerRead, hempty, List.nil_append]
  rw [List.append_assoc, List.append_assoc s.networkBio, List.take_append_drop, ← List.append_assoc, h.fed, hempty,
    List.append_nil]

theorem keeps_moveToBioLoop (iterations totalRead totalWritten : Nat) {s : SslTransportSocket}
    (hempty : s.bioCarryover = []) : Keeps s (moveToBioLoop iterations totalRead totalWritten s).1 := by
  induction iterations generalizing totalRead totalWritten s with
  | zero => exact Keeps.refl s
  | succ iterations ih =>
      have hfed := keeps_fed hempty
      unfold moveToBioLoop
      split
      · exact Keeps.refl s
      · dsimp only
        split
        case isTrue hnothing =>
            have hnil : (s.script.innerReads.headD ⟨[], false⟩).bytes = [] := List.isEmpty_iff.mp hnothing
            exact Keeps.of_books (by simp only [books, innerRead, hnil, List.append_nil])
        case isFalse =>
            split
            · exact hfed
            case isFalse hall =>
                have hrest : (writeToNetworkBio (innerRead s).2.bytes (innerRead s).1).2.1 = [] := by
                  simpa using hall
                rw [hrest, List.append_nil] at hfed
                split
                · exact hfed
                · exact hfed.trans (ih _ _ hempty)

theorem keeps_moveToBio (s : SslTransportSocket) : Keeps s (moveToBio s).1 := by
  have hfed : Keeps s { (writeToNetworkBio s.bioCarryover s).1 with
      bioCarryover := (writeToNetworkBio s.bioCarryover s).2.1 } := by
    refine fun h => ⟨rfl, rfl, List.prefix_rfl, fun hended => ⟨hended, rfl, rfl⟩, { h with fed := ?_ }⟩
    simp only [writeToNetworkBio]
    rw [List.append_assoc, List.append_assoc s.networkBio, List.take_append_drop, ← List.append_assoc, h.fed]
  unfold moveToBio
  dsimp only
  split
  · exact hfed
  case isFalse hall =>
      have hempty : (writeToNetworkBio s.bioCarryover s).2.1 = [] := by simpa using hall
      have hmoved := hfed.trans (keeps_moveToBioLoop kMaxMoveToBioIterations 0 (writeToNetworkBio s.bioCarryover s).2.2
        (s := { (writeToNetworkBio s.bioCarryover s).1 with
          bioCarryover := (writeToNetworkBio s.bioCarryover s).2.1 }) hempty)
      split
      · exact hmoved.trans (Keeps.of_books rfl)
      · exact hmoved

/-! ### Transitions -/

section Callbacks

variable {callOut : SslTransportSocket → SslTransportSocket}

theorem keeps_scheduleHandshakeRetry (s : SslTransportSocket) : Keeps s (scheduleHandshakeRetry s) := Keeps.of_books rfl

/-- No connection is made by a task. -/
theorem keeps_post {task : SslTask} (htask : task ≠ .transition .connected) (s : SslTransportSocket) :
    Keeps s (post task s) :=
  fun h => ⟨rfl, rfl, List.prefix_rfl, fun hended => ⟨hended, rfl, rfl⟩, { h with
    tasks := fun hmem =>
      (List.mem_append.mp hmem).elim h.tasks fun hlast => htask (List.mem_singleton.mp hlast).symm }⟩

theorem keeps_raiseEvent (hcalls : ∀ s, Keeps s (callOut s)) (event : ConnectionEvent) (s : SslTransportSocket) :
    Keeps s (raiseEvent callOut event s) := by
  unfold raiseEvent
  split
  · have hraised : Keeps s { s with raised := s.raised ++ [event] } := Keeps.of_books rfl
    exact hraised.trans (hcalls _)
  · exact Keeps.refl s

theorem keeps_onStateChanged (hcalls : ∀ s, Keeps s (callOut s)) (newState : SslSocketState) (s : SslTransportSocket) :
    Keeps s (onStateChanged callOut newState s) := by
  cases newState
  case connected | error | closed => exact keeps_raiseEvent hcalls _ s
  case handshakeWantRead | handshakeWantWrite => exact keeps_scheduleHandshakeRetry s
  all_goals exact Keeps.refl s

theorem keeps_entryAction (newState : SslSocketState) (s : SslTransportSocket) :
    Keeps s (entryAction newState s) := by
  cases newState
  case handshakeWantRead | handshakeWantWrite => exact keeps_scheduleHandshakeRetry s
  all_goals exact Keeps.refl s

/-- A step of the walk; a step to a connection has to be earned. -/
theorem keeps_enter {newState : SslSocketState} (hvalid : s.mode.IsValid s.currentState newState)
    (hgate : newState = .connected → ∃ verified ∈ s.completions, s.verifyPeer = true → verified = true) :
    Keeps s { s with transitionInProgress := true, currentState := newState, visited := s.visited ++ [newState] } := by
  refine fun h => ⟨rfl, rfl, List.prefix_append _ _,
    fun hended => ⟨afterConnection_closed s.mode _ _ hended hvalid, rfl, rfl⟩,
    { h with walk := ?_, current := ?_, gate := ?_, plaintext := fun hbytes => List.mem_append_left _ (h.plaintext hbytes) }⟩
  · exact Walks.isChain_concat h.walk h.current hvalid
  · rw [← List.cons_append, List.getLast?_append, List.getLast?_singleton, Option.some_or]
  · intro hconnected
    rcases List.mem_append.mp hconnected with hconnected | hconnected
    · exact h.gate hconnected
    · exact hgate (List.mem_singleton.mp hconnected).symm

theorem keeps_transitionWith (hcalls : ∀ s, Keeps s (callOut s)) {entry : SslTransportSocket → SslTransportSocket}
    (hentry : ∀ s, Keeps s (entry s)) (newState : SslSocketState)
    (hgate : newState = .connected → ∃ verified ∈ s.completions, s.verifyPeer = true → verified = true) :
    Keeps s (transitionWith callOut entry newState s).1 := by
  unfold transitionWith
  split
  · exact Keeps.refl s
  split
  · exact Keeps.refl s
  case isFalse hvalid =>
      refine (keeps_enter (not_not.mp hvalid) hgate).trans ((hentry _).trans ?_)
      exact (keeps_onStateChanged hcalls newState _).trans (Keeps.of_books rfl)

theorem keeps_transition (hcalls : ∀ s, Keeps s (callOut s)) (newState : SslSocketState)
    (hstate : newState ≠ .connected) (s : SslTransportSocket) : Keeps s (transition callOut newState s).1 :=
  keeps_transitionWith hcalls (keeps_entryAction newState) newState fun h => absurd h hstate

/-! ### The handshake -/

theorem keeps_handleSslError (hcalls : ∀ s, Keeps s (callOut s)) (reason : String) (s : SslTransportSocket) :
    Keeps s (handleSslError callOut reason s) := by
  have hfailed : Keeps s { s with failureReason := reason, handshakeTimer := false, handshakeRetryTimer := false } :=
    Keeps.of_books rfl
  have hended := hfailed.trans (keeps_transition hcalls .error (by decide) _)
  unfold handleSslError
  dsimp only
  split
  · exact hended.trans (hcalls _)
  · exact hended

theorem keeps_flushBufferedWrites (s : SslTransportSocket) : Keeps s (flushBufferedWrites s) := by
  unfold flushBufferedWrites
  split
  · exact Keeps.refl s
  · exact keeps_post (by simp) s

/-- **The connection has to be earned.** -/
theorem keeps_onHandshakeComplete (hcalls : ∀ s, Keeps s (callOut s)) (verifyResult : Option String)
    (s : SslTransportSocket) : Keeps s (onHandshakeComplete callOut verifyResult s) := by
  have hdone : Keeps s { s with
      handshakeComplete := true
      handshakeTimer := false
      handshakeRetryTimer := false
      completions := s.completions ++ [verifyResult.isNone] } := by
    refine fun h => ⟨rfl, rfl, List.prefix_rfl, fun hended => ⟨hended, rfl, rfl⟩, { h with gate := fun hconnected => ?_ }⟩
    obtain ⟨verified, hmem, hverified⟩ := h.gate hconnected
    exact ⟨verified, List.mem_append_left _ hmem, hverified⟩
  unfold onHandshakeComplete
  dsimp only
  split
  · exact hdone.trans (keeps_handleSslError hcalls _ _)
  case isFalse hverify =>
      have hconnected := hdone.trans (keeps_transitionWith hcalls (keeps_entryAction .connected) .connected
        fun _ => ⟨verifyResult.isNone, List.mem_append_right _ (List.mem_singleton_self _), fun hpeer => by
          cases verifyResult with
          | none => rfl
          | some text => exact absurd (by simpa using hpeer) hverify⟩)
      split
      · refine hconnected.trans (Keeps.trans ?_ (keeps_flushBufferedWrites _))
        split
        · exact hcalls _
        · exact Keeps.refl _
      · exact hconnected.trans (keeps_handleSslError hcalls _ _)

theorem keeps_handleHandshakeResult (hcalls : ∀ s, Keeps s (callOut s)) (answer : HandshakeAnswer)
    (s : SslTransportSocket) : Keeps s (handleHandshakeResult callOut answer s) := by
  cases answer with
  | complete verifyResult => exact keeps_onHandshakeComplete hcalls verifyResult s
  | wantRead =>
      simp only [handleHandshakeResult]
      split
      · exact keeps_scheduleHandshakeRetry s
      · exact keeps_post (by simp) s
  | wantWrite => exact keeps_post (by simp) s
  | wantX509Lookup text =>
      exact (keeps_transition hcalls _ (by decide) s).trans (keeps_handleSslError hcalls text _)
  | failed text => exact keeps_handleSslError hcalls text s

theorem keeps_performHandshakeStep (hcalls : ∀ s, Keeps s (callOut s)) (s : SslTransportSocket) :
    Keeps s (performHandshakeStep callOut s) := by
  have hcounted : Keeps s { s with handshakeAttempts := s.handshakeAttempts + 1 } := Keeps.of_books rfl
  unfold performHandshakeStep
  dsimp only
  split
  · exact hcounted.trans (keeps_handleSslError hcalls _ _)
  · let t := (moveToBio { s with handshakeAttempts := s.handshakeAttempts + 1 }).1
    have hmoved : Keeps s t := hcounted.trans (keeps_moveToBio _)
    have hcalled := hmoved.trans ((keeps_script t { t.script with handshakes := t.script.handshakes.tail }).trans
      (keeps_callSsl (t.script.handshakes.headD ⟨0, [], .wantRead⟩) _))
    have hflushed := hcalled.trans (keeps_moveFromBio _)
    exact (hflushed.trans (keeps_readable _ _)).trans (keeps_handleHandshakeResult hcalls _ _)

theorem keeps_initiateHandshake (hcalls : ∀ s, Keeps s (callOut s)) (s : SslTransportSocket) :
    Keeps s (initiateHandshake callOut s) := by
  have hstarted := keeps_transitionWith (s := s) hcalls (keeps_performHandshakeStep hcalls)
    (SslSocketState.handshakeInit s.mode) fun h => by
      cases hmode : s.mode <;> rw [hmode] at h <;> cases h
  unfold initiateHandshake
  dsimp only
  split
  · exact hstarted
  · exact hstarted.trans (keeps_handleSslError hcalls _ _)

/-! ### Reading and writing -/

/-- The machine is where its walk has come to. -/
theorem Sound.mem_visited (h : s.Sound) {state : SslSocketState} (hstate : s.currentState = state)
    (hne : state ≠ .uninitialized) : state ∈ s.visited := by
  have hlast := List.mem_of_getLast? h.current
  rw [hstate] at hlast
  exact (List.mem_cons.mp hlast).resolve_left hne

theorem keeps_ioError (hcalls : ∀ s, Keeps s (callOut s)) (text : String) (s : SslTransportSocket) :
    Keeps s (ioError callOut text s) := by
  have hfailed : Keeps s { s with failureReason := text } := Keeps.of_books rfl
  exact hfailed.trans (keeps_transition hcalls _ (by decide) _)

/-- On a connection none of the states past it has been entered. -/
theorem not_ended (hconnected : s.currentState = .connected) : ¬ AfterConnection s.currentState := by
  rw [hconnected]
  decide

@[simp] theorem moveToBioLoop_currentState (iterations totalRead totalWritten : Nat) (s : SslTransportSocket) :
    (moveToBioLoop iterations totalRead totalWritten s).1.currentState = s.currentState := by
  induction iterations generalizing totalRead totalWritten s with
  | zero => rfl
  | succ iterations ih =>
      unfold moveToBioLoop
      split
      · rfl
      dsimp only
      split
      · rfl
      split
      · rfl
      split
      · rfl
      · exact ih _ _ _

@[simp] theorem moveToBio_currentState (s : SslTransportSocket) : (moveToBio s).1.currentState = s.currentState := by
  unfold moveToBio
  dsimp only
  split
  · rfl
  · split <;> exact moveToBioLoop_currentState _ _ _ _

@[simp] theorem moveFromBio_currentState (s : SslTransportSocket) :
    (moveFromBio s).1.currentState = s.currentState := by
  unfold moveFromBio
  dsimp only
  split <;> split <;> rfl

@[simp] theorem drainSource_currentState (own : Bool) (n : Nat) (s : SslTransportSocket) :
    (drainSource own n s).currentState = s.currentState := by
  cases own <;> rfl

/-- Plaintext that OpenSSL gave, on a connection. -/
theorem keeps_decrypted (hconnected : s.currentState = .connected) (bytes : Bytes) :
    Keeps s { s with decrypted := s.decrypted ++ bytes } :=
  fun h => ⟨rfl, rfl, List.prefix_rfl, fun hended => absurd hended (not_ended hconnected),
    { h with plaintext := fun _ => h.mem_visited hconnected (by simp) }⟩

theorem keeps_readLoop (hcalls : ∀ s, Keeps s (callOut s)) (calls : List (SslCall SslReadAnswer)) (total : Nat)
    (hconnected : s.currentState = .connected) : Keeps s (readLoop callOut calls total s).1 := by
  induction calls generalizing total s with
  | nil => exact keeps_script s _
  | cons call rest ih =>
      let t := callSsl call { s with script := { s.script with reads := rest } }
      have hread : Keeps s t := (keeps_script s _).trans (keeps_callSsl call _)
      unfold readLoop
      split
      · exact Keeps.of_books rfl
      dsimp only
      split
      · rename_i bytes pending hanswer
        have hgot := hread.trans (keeps_decrypted (s := t) hconnected
          (bytes.take (min kSslMaxReadChunk (kMaxPlaintextReadPerEvent - total))))
        split
        · exact hgot.trans (keeps_readable _ _)
        split
        · exact hgot.trans (ih _ hconnected)
        · exact hgot
      · have hmoved := hread.trans (keeps_moveToBio t)
        split
        · exact hmoved
        · exact hmoved.trans (ih total ((moveToBio_currentState t).trans hconnected))
      · exact hread.shutdownReceived.trans (keeps_transition hcalls .shutdownReceived (by decide) _)
      · exact hread.trans (keeps_ioError hcalls _ _)

theorem keeps_performOptimizedSslRead (hcalls : ∀ s, Keeps s (callOut s)) (hconnected : s.currentState = .connected) :
    Keeps s (performOptimizedSslRead callOut s).1 :=
  (keeps_moveToBio s).trans (keeps_readLoop hcalls _ 0 ((moveToBio_currentState s).trans hconnected))

/-- What OpenSSL took of the connection's buffer. The socket's own has nothing to take. -/
theorem keeps_encrypted (hconnected : s.currentState = .connected) (own : Bool) (n : Nat) :
    Keeps s (drainSource own n { s with encrypted := s.encrypted ++ (source own s).take n }) := by
  intro h
  cases own with
  | true =>
      refine ⟨rfl, rfl, List.prefix_rfl, fun hended => absurd hended (not_ended hconnected),
        { h with plaintext := fun _ => h.mem_visited hconnected (by simp), ordered := ?_, unused := ?_ }⟩
      · simp [source, drainSource, h.unused, h.ordered]
      · simp [drainSource, h.unused]
  | false =>
      refine ⟨rfl, rfl, List.prefix_rfl, fun hended => absurd hended (not_ended hconnected),
        { h with plaintext := fun _ => h.mem_visited hconnected (by simp), ordered := ?_ }⟩
      simp [source, drainSource, h.ordered]

theorem keeps_writeLoop (hcalls : ∀ s, Keeps s (callOut s)) (own : Bool) (calls : List (SslCall SslWriteAnswer))
    (total : Nat) (hconnected : s.currentState = .connected) : Keeps s (writeLoop callOut own calls total s).1 := by
  induction calls generalizing total s with
  | nil => exact (keeps_script s _).trans (keeps_moveFromBio _)
  | cons call rest ih =>
      let t := callSsl call { s with script := { s.script with writes := rest } }
      have hwrite : Keeps s t := (keeps_script s _).trans (keeps_callSsl call _)
      unfold writeLoop
      split
      · exact (keeps_script s _).trans (keeps_moveFromBio _)
      dsimp only
      split
      · rename_i n hanswer
        have htaken := hwrite.trans ((keeps_encrypted (s := t) hconnected own (min n kSslMaxWriteChunk)).trans
          (keeps_moveFromBio _))
        refine htaken.trans (ih _ ?_)
        rw [moveFromBio_currentState, drainSource_currentState]
        exact hconnected
      · exact hwrite.trans (keeps_moveFromBio _)
      · exact hwrite
      · exact hwrite.trans (keeps_ioError hcalls _ _)

theorem keeps_performOptimizedSslWrite (hcalls : ∀ s, Keeps s (callOut s)) (own : Bool)
    (hconnected : s.currentState = .connected) : Keeps s (performOptimizedSslWrite callOut own s).1 :=
  keeps_writeLoop hcalls own _ 0 hconnected

/-! ### Closing -/

theorem keeps_callShutdown (s : SslTransportSocket) : Keeps s (callShutdown s).1 :=
  (keeps_script s _).trans (keeps_callSsl _ _)

theorem keeps_initiateShutdown (hcalls : ∀ s, Keeps s (callOut s)) (s : SslTransportSocket) :
    Keeps s (initiateShutdown callOut s) := by
  unfold initiateShutdown
  split
  · exact Keeps.refl s
  have hcalled := (keeps_transition hcalls .shutdownInitiated (by decide) s).trans (keeps_callShutdown _)
  dsimp only
  split
  · have hflushed := (hcalled.shutdownSent.trans (keeps_transition hcalls .shutdownSent (by decide) _)).trans
      (keeps_moveFromBio _)
    exact hflushed.trans (Keeps.of_books rfl)
  · exact (hcalled.shutdownSent.shutdownReceived.trans (keeps_transition hcalls .shutdownComplete (by decide) _)).trans (keeps_post (by simp) _)
  · exact hcalled
  · exact hcalled.trans (keeps_transition hcalls _ (by decide) _)

theorem keeps_cancelHandshake (hcalls : ∀ s, Keeps s (callOut s)) (s : SslTransportSocket) :
    Keeps s (cancelHandshake callOut s) := by
  have hstopped : Keeps s { s with handshakeTimer := false } := Keeps.of_books rfl
  have hclosed := hstopped.trans (keeps_transition hcalls .closed (by decide) _)
  unfold cancelHandshake
  dsimp only
  split
  · exact hclosed.trans (hcalls _)
  · exact hclosed

theorem keeps_closeSocket (hcalls : ∀ s, Keeps s (callOut s)) (s : SslTransportSocket) :
    Keeps s (closeSocket callOut s) := by
  unfold closeSocket
  split
  · exact Keeps.refl s
  have hstopped : Keeps s { s with handshakeTimer := false, handshakeRetryTimer := false, shutdownRetryTimer := false } :=
    Keeps.of_books rfl
  have hends : ∀ t, Keeps s t → Keeps s { (transition callOut .closed t).1 with innerClosed := true } := fun t ht =>
    (ht.trans (keeps_transition hcalls .closed (by decide) t)).trans (Keeps.of_books rfl)
  dsimp only
  split
  · refine hends _ ((hstopped.trans (keeps_callShutdown _)).trans (Keeps.trans (Keeps.of_books ?_) (keeps_moveFromBio _)))
    rfl
  split
  · exact hends _ (hstopped.trans (keeps_cancelHandshake hcalls _))
  · exact hends _ hstopped

theorem keeps_shutdownRetryFires (hcalls : ∀ s, Keeps s (callOut s)) (s : SslTransportSocket) :
    Keeps s (shutdownRetryFires callOut s) := by
  unfold shutdownRetryFires
  split
  · exact Keeps.refl s
  split
  · exact keeps_transition hcalls _ (by decide) s
  have hcalled : Keeps s (callShutdown { s with shutdownRetryCount := s.shutdownRetryCount + 1 }).1 :=
    Keeps.trans (t := { s with shutdownRetryCount := s.shutdownRetryCount + 1 }) (Keeps.of_books rfl)
      (keeps_callShutdown _)
  dsimp only
  split
  · exact (hcalled.shutdownReceived.trans (keeps_transition hcalls .shutdownComplete (by decide) _)).trans (keeps_post (by simp) _)
  · exact hcalled.trans (Keeps.of_books rfl)

/-! ### The operations -/

theorem keeps_connect (hcalls : ∀ s, Keeps s (callOut s)) (innerError : Option String) (s : SslTransportSocket) :
    Keeps s (connect callOut innerError s) := by
  unfold connect
  split
  · exact Keeps.refl s
  have hasked := (keeps_transition hcalls .initialized (by decide) s).trans
    (keeps_transition hcalls .connecting (by decide) _)
  cases innerError with
  | none => exact hasked
  | some error =>
      refine Keeps.trans (hasked.trans (Keeps.of_books ?_)) (keeps_transition hcalls .error (by decide) _)
      rfl

theorem keeps_onConnected (hcalls : ∀ s, Keeps s (callOut s)) (initializeError : Option String)
    (s : SslTransportSocket) : Keeps s (onConnected callOut initializeError s) := by
  unfold onConnected
  split
  · exact Keeps.refl s
  have hconnected := keeps_transition hcalls .tcpConnected (by decide) s
  cases initializeError with
  | none =>
      refine Keeps.trans (hconnected.trans (Keeps.of_books ?_)) (keeps_post (by simp) _)
      rfl
  | some error => exact hconnected.trans (keeps_handleSslError hcalls error _)

theorem keeps_doRead (hcalls : ∀ s, Keeps s (callOut s)) (s : SslTransportSocket) : Keeps s (doRead callOut s).1 := by
  unfold doRead
  split
  case isTrue hconnected => exact keeps_performOptimizedSslRead hcalls hconnected
  split
  · dsimp only
    split
    · exact (keeps_moveToBio s).trans (keeps_performHandshakeStep hcalls _)
    · exact keeps_moveToBio s
  split <;> exact Keeps.refl s

theorem keeps_doWrite (hcalls : ∀ s, Keeps s (callOut s)) (endStream : Bool) (s : SslTransportSocket) :
    Keeps s (doWrite callOut endStream s).1 := by
  unfold doWrite
  split
  · split
    · refine fun h => ⟨rfl, rfl, List.prefix_rfl, fun hended => ⟨hended, rfl, rfl⟩, { h with ordered := ?_, unused := rfl }⟩
      simp [h.unused, h.ordered]
    · exact Keeps.refl s
  case isFalse hconnected =>
      have hwritten := keeps_performOptimizedSslWrite hcalls false (not_not.mp hconnected)
      dsimp only
      split
      · exact hwritten.trans (keeps_initiateShutdown hcalls _)
      · exact hwritten

theorem keeps_perform (hcalls : ∀ s, Keeps s (callOut s)) (s : SslTransportSocket) (operation : SslOperation) :
    Keeps s (perform callOut s operation) := by
  cases operation with
  | connect innerError => exact keeps_connect hcalls innerError s
  | onConnected initializeError => exact keeps_onConnected hcalls initializeError s
  | doRead => exact keeps_doRead hcalls s
  | doWrite endStream => exact keeps_doWrite hcalls endStream s
  | closeSocket event => exact keeps_closeSocket hcalls s
  | setTransportSocketCallbacks => exact Keeps.of_books rfl
  | setHandshakeCallbacks => exact Keeps.of_books rfl
  | offer bytes =>
      refine fun h => ⟨rfl, rfl, List.prefix_rfl, fun hended => ⟨hended, rfl, rfl⟩, { h with ordered := ?_ }⟩
      simp [perform, h.ordered]

theorem keeps_flush (hcalls : ∀ s, Keeps s (callOut s)) (s : SslTransportSocket) : Keeps s (flush callOut s) := by
  unfold flush
  split
  case isTrue hconnected =>
      have hwritten := keeps_performOptimizedSslWrite hcalls true hconnected.1
      dsimp only
      split
      · exact hwritten.trans (keeps_closeSocket hcalls _)
      · exact hwritten
  case isFalse => exact Keeps.refl s

end Callbacks

theorem keeps_callOut (depth : Nat) (s : SslTransportSocket) : Keeps s (callOut depth s) := by
  induction depth generalizing s with
  | zero => exact keeps_script s _
  | succ depth ih =>
      refine (keeps_script s { s.script with replies := s.script.replies.tail }).trans ?_
      rw [callOut]
      generalize { s with script := { s.script with replies := s.script.replies.tail } } = t
      induction s.script.replies.headD [] generalizing t with
      | nil => exact Keeps.refl t
      | cons operation rest ihrest => exact (keeps_perform ih t operation).trans (ihrest _)

/-! ### Runs -/

theorem keeps_runTask (depth : Nat) {task : SslTask} (htask : task ≠ .transition .connected) (s : SslTransportSocket) :
    Keeps s (runTask (callOut depth) task s) := by
  cases task with
  | transition state => exact keeps_transition (keeps_callOut depth) state (fun h => htask (h ▸ rfl)) s
  | initiateHandshake => exact keeps_initiateHandshake (keeps_callOut depth) s
  | flushBufferedWrites => exact keeps_flush (keeps_callOut depth) s

theorem keeps_step (depth : Nat) (s : SslTransportSocket) (taken : SslStep) : Keeps s (step depth s taken) := by
  cases taken with
  | operation operation => exact keeps_perform (keeps_callOut depth) s operation
  | task =>
      intro hs
      simp only [step]
      split
      · exact Keeps.refl s hs
      · rename_i task rest hposted
        have htask : task ≠ .transition .connected := fun h => hs.tasks (hposted ▸ h ▸ List.mem_cons_self)
        have hpopped : Keeps s { s with posted := rest } := fun h =>
          ⟨rfl, rfl, List.prefix_rfl, fun hended => ⟨hended, rfl, rfl⟩,
            { h with tasks := fun hmem => h.tasks (hposted ▸ List.mem_cons_of_mem _ hmem) }⟩
        exact (hpopped.trans (keeps_runTask depth htask _)) hs
  | handshakeTimer =>
      simp only [step]
      split
      · exact Keeps.trans (t := { s with handshakeTimer := false }) (Keeps.of_books rfl)
          (keeps_handleSslError (keeps_callOut depth) _ _)
      · exact Keeps.refl s
  | handshakeRetryTimer =>
      simp only [step]
      split
      · exact Keeps.trans (t := { s with handshakeRetryTimer := false }) (Keeps.of_books rfl)
          (keeps_performHandshakeStep (keeps_callOut depth) _)
      · exact Keeps.refl s
  | shutdownRetryTimer =>
      simp only [step]
      split
      · exact Keeps.trans (t := { s with shutdownRetryTimer := false }) (Keeps.of_books rfl)
          (keeps_shutdownRetryFires (keeps_callOut depth) _)
      · exact Keeps.refl s

theorem keeps_steps (depth : Nat) (s : SslTransportSocket) (steps : List SslStep) :
    Keeps s (Runs.run (step depth) s steps) :=
  Runs.related (step depth) Keeps.refl (fun _ _ _ => Keeps.trans) (keeps_step depth) s steps

theorem sound_create (mode : SslSocketMode) (verifyPeer : Bool) (script : SslScript) :
    (create mode verifyPeer script).Sound := by
  constructor <;> simp [create]

theorem kept_steps (mode : SslSocketMode) (verifyPeer : Bool) (script : SslScript) (depth : Nat) (steps : List SslStep) :
    Kept (create mode verifyPeer script) (Runs.run (step depth) (create mode verifyPeer script) steps) :=
  keeps_steps depth _ steps (sound_create mode verifyPeer script)

/-- **Both ciphertext streams and the plaintext.** What the inner socket gave is what OpenSSL took of it, then what waits in
the buffer between them, then what was carried over; what OpenSSL made is what the inner socket took of it, then what was
carried over, then what waits in the buffer; and what the connection was given to write is what was encrypted and what is
left of it. -/
theorem tls_bytes_in_custody (mode : SslSocketMode) (verifyPeer : Bool) (script : SslScript) (depth : Nat)
    (steps : List SslStep) :
    let s := Runs.run (step depth) (create mode verifyPeer script) steps
    s.arrived = s.consumed ++ s.networkBio ++ s.bioCarryover ∧
      s.produced = s.sent ++ s.bioWriteCarryover ++ s.internalBio ∧
      s.offered = s.encrypted ++ s.buffer ∧ s.writeBuffer = [] :=
  have hkept := kept_steps mode verifyPeer script depth steps
  ⟨hkept.sound.fed, hkept.sound.carried, hkept.sound.ordered, hkept.sound.unused⟩

end SslTransportSocket

end GopherMcp
