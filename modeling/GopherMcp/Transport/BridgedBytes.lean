import GopherMcp.Transport.DescriptorOwners

/-!
# What the stdio transport delivers

Both bridges look at the running flag before they go on, so a close that lowers it stops the stdout bridge with what
the connection had written before the close still in the pipe, or in the bridge's buffer; and a read or a write of a bridge
that a signal interrupts ends the bridge, where an interrupted wait is tried again. Without either, what goes in at one
end comes out at the other.
-/

namespace GopherMcp

namespace PipeCustody

variable {c : PipeCustody}

/-! ### What the bytes depend on -/

/-- Nothing is there before the transport is initialized, and no bridge without a socket. -/
structure Ordered (c : PipeCustody) : Prop where
  fresh : c.initialized = false → c.Unmade
  unstarted : c.socket = .absent → ∀ bridge, c.bridges bridge = .unstarted

theorem fresh_ordered : fresh.Ordered :=
  ⟨fun _ => ⟨fun _ => rfl, fun _ => rfl, fun _ => rfl, fun _ => rfl, rfl, rfl⟩, fun _ _ => rfl⟩

theorem prefix_close (c : PipeCustody) (pipeEnd : PipeEnd) (party : PipeParty) (other : PipeEnd) :
    c.closers other <+: (c.close pipeEnd party).closers other := by
  by_cases heq : other = pipeEnd
  · simp [close, heq]
  · simp [close, Function.update_of_ne heq]

theorem prefix_giveUp (c : PipeCustody) (pipeEnd other : PipeEnd) :
    c.closers other <+: (c.giveUp pipeEnd).closers other := by
  unfold giveUp
  split_ifs
  · exact c.prefix_close pipeEnd .transport other
  · exact List.prefix_refl _

theorem prefix_closeBothEnds (c : PipeCustody) (pipeEnd : PipeEnd) :
    c.closers pipeEnd <+: c.closeBothEnds.closers pipeEnd :=
  (c.prefix_close .stdoutWrite .socket pipeEnd).trans (prefix_close _ .stdinRead .socket pipeEnd)

/-- What is closed stays closed. -/
theorem prefix_step (c : PipeCustody) (op : Step) (pipeEnd : PipeEnd) :
    c.closers pipeEnd <+: (c.step op).closers pipeEnd := by
  cases op with
  | initializePipes outcome =>
      dsimp only [step]
      split_ifs
      · cases outcome with
        | ok | stdinPipeFails => exact List.prefix_refl _
        | stdoutPipeFails =>
            exact (prefix_close _ .stdinRead .transport pipeEnd).trans (prefix_close _ .stdinWrite .transport pipeEnd)
      · exact List.prefix_refl _
  | takePipeSocket =>
      dsimp only [step, takePipeSocket]
      split_ifs <;> exact List.prefix_refl _
  | onConnected =>
      dsimp only [step]
      split_ifs <;> exact List.prefix_refl _
  | closeSocket =>
      dsimp only [step, closeSocket]
      split_ifs
      · exact prefix_giveUp { c with connected := false } .stdinWrite pipeEnd
      · exact List.prefix_refl _
      · exact List.prefix_refl _
  | closePipeSocket =>
      dsimp only [step, closePipeSocket]
      split_ifs
      · exact c.prefix_closeBothEnds pipeEnd
      · exact List.prefix_refl _
  | destroyPipeSocket =>
      dsimp only [step, destroyPipeSocket]
      split
      · exact c.prefix_closeBothEnds pipeEnd
      · exact List.prefix_refl _
      · exact List.prefix_refl _
  | beginDestroy =>
      dsimp only [step, beginDestroy]
      split_ifs
      · exact (c.prefix_giveUp .stdinWrite pipeEnd).trans (prefix_giveUp _ .stdoutRead pipeEnd)
      · exact List.prefix_refl _
  | finishDestroy =>
      have hgiven := (c.prefix_giveUp .stdinRead pipeEnd).trans (prefix_giveUp _ .stdoutWrite pipeEnd)
      dsimp only [step, finishDestroy]
      split_ifs
      · exact hgiven.trans (prefix_closeBothEnds _ pipeEnd)
      · exact hgiven
      · exact List.prefix_refl _
  | use bridge =>
      dsimp only [step, use]
      split_ifs <;> exact List.prefix_refl _
  | endBridge bridge =>
      dsimp only [step, endBridge]
      split_ifs
      · exact c.prefix_close bridge.pipeEnd (.bridge bridge) pipeEnd
      · exact List.prefix_refl _

theorem isClosed_step (op : Step) {pipeEnd : PipeEnd} (h : c.isClosed pipeEnd = true) :
    (c.step op).isClosed pipeEnd = true := by
  have hprefix := c.prefix_step op pipeEnd
  simp only [isClosed, Bool.not_eq_true', List.isEmpty_eq_false_iff] at h ⊢
  intro hnone
  rw [hnone, List.prefix_nil] at hprefix
  exact h hprefix

theorem closers_closeBothEnds (c : PipeCustody) (bridge : Bridge) :
    c.closeBothEnds.closers bridge.pipeEnd = c.closers bridge.pipeEnd := by
  cases bridge <;> rfl

theorem closers_giveUp_socketEnds (c : PipeCustody) (bridge : Bridge) :
    ((c.giveUp .stdinRead).giveUp .stdoutWrite).closers bridge.pipeEnd = c.closers bridge.pipeEnd :=
  (giveUp_closers_of_ne _ bridge.pipeEnd_ne_stdoutWrite).trans (giveUp_closers_of_ne c bridge.pipeEnd_ne_stdinRead)

/-- Who can close the write end of the pipe from stdin. -/
theorem closes_stdinWrite (hordered : c.Ordered) (op : Step) (h : (c.step op).isClosed .stdinWrite = true) :
    c.isClosed .stdinWrite = true ∨ c.socket = .absent ∧ (c.step op).socket = .absent ∨
      (op = .closeSocket ∧ c.life = .alive ∧ c.connected = true) ∨ (op = .beginDestroy ∧ c.life = .alive) ∨
        op = .endBridge .stdinToPipe := by
  have hsame (hclosers : (c.step op).closers .stdinWrite = c.closers .stdinWrite) : c.isClosed .stdinWrite = true := by
    rw [← h, isClosed, isClosed, hclosers]
  cases op with
  | initializePipes outcome =>
      dsimp only [step] at hsame ⊢
      split_ifs at hsame ⊢ with hfirst
      · have habsent := (hordered.fresh hfirst.2).socket
        cases outcome with
        | ok | stdinPipeFails => exact Or.inl (hsame rfl)
        | stdoutPipeFails => exact Or.inr (Or.inl ⟨habsent, habsent⟩)
      · exact Or.inl (hsame rfl)
  | takePipeSocket =>
      refine Or.inl (hsame ?_)
      dsimp only [step, takePipeSocket]
      split_ifs <;> rfl
  | onConnected =>
      refine Or.inl (hsame ?_)
      dsimp only [step]
      split_ifs <;> rfl
  | closeSocket =>
      dsimp only [step, closeSocket] at hsame
      split_ifs at hsame with halive hconnected
      · exact Or.inr (Or.inr (Or.inl ⟨rfl, halive, hconnected⟩))
      · exact Or.inl (hsame rfl)
      · exact Or.inl (hsame rfl)
  | closePipeSocket =>
      refine Or.inl (hsame ?_)
      dsimp only [step, closePipeSocket]
      split_ifs
      · exact c.closers_closeBothEnds .stdinToPipe
      · rfl
  | destroyPipeSocket =>
      refine Or.inl (hsame ?_)
      dsimp only [step, destroyPipeSocket]
      split
      · exact c.closers_closeBothEnds .stdinToPipe
      · rfl
      · rfl
  | beginDestroy =>
      dsimp only [step] at hsame
      split_ifs at hsame with halive
      · exact Or.inr (Or.inr (Or.inr (Or.inl ⟨rfl, halive⟩)))
      · exact Or.inl (hsame rfl)
  | finishDestroy =>
      refine Or.inl (hsame ?_)
      dsimp only [step, finishDestroy]
      split_ifs
      · exact (closers_closeBothEnds _ .stdinToPipe).trans (c.closers_giveUp_socketEnds .stdinToPipe)
      · exact c.closers_giveUp_socketEnds .stdinToPipe
      · rfl
  | use bridge =>
      refine Or.inl (hsame ?_)
      dsimp only [step, use]
      split_ifs <;> rfl
  | endBridge bridge =>
      cases bridge with
      | stdinToPipe => exact Or.inr (Or.inr (Or.inr (Or.inr rfl)))
      | pipeToStdout =>
          refine Or.inl (hsame ?_)
          dsimp only [step, endBridge]
          split_ifs <;> rfl

/-- What only an initialization changes. -/
structure Later (c d : PipeCustody) : Prop where
  initialized : d.initialized = c.initialized
  absent : d.socket = .absent ↔ c.socket = .absent
  unstarted : ∀ bridge, c.bridges bridge = .unstarted → d.bridges bridge = .unstarted

theorem Later.refl (c : PipeCustody) : c.Later c := ⟨rfl, Iff.rfl, fun _ => id⟩

theorem later_step {op : Step} (hop : ∀ outcome, op ≠ .initializePipes outcome) : c.Later (c.step op) := by
  cases op with
  | initializePipes outcome => exact absurd rfl (hop outcome)
  | takePipeSocket =>
      dsimp only [step, takePipeSocket]
      split_ifs with _ hkept
      · exact ⟨rfl, by simp [hkept], fun _ => id⟩
      · exact .refl c
      · exact .refl c
  | onConnected =>
      dsimp only [step]
      split_ifs <;> exact ⟨rfl, Iff.rfl, fun _ => id⟩
  | closeSocket =>
      dsimp only [step, closeSocket]
      split_ifs
      · exact ⟨by simp, by simp, fun bridge => by simp⟩
      · exact .refl c
      · exact .refl c
  | closePipeSocket =>
      dsimp only [step, closePipeSocket]
      split_ifs with htaken
      · exact ⟨rfl, by simp [htaken], fun _ => id⟩
      · exact .refl c
  | destroyPipeSocket =>
      dsimp only [step, destroyPipeSocket]
      split
      · exact ⟨rfl, by simp [*], fun _ => id⟩
      · exact ⟨rfl, by simp [*], fun _ => id⟩
      · exact .refl c
  | beginDestroy =>
      dsimp only [step, beginDestroy]
      split_ifs
      · exact ⟨by simp, by simp, fun bridge => by simp⟩
      · exact .refl c
  | finishDestroy =>
      dsimp only [step, finishDestroy]
      split_ifs with _ hkept
      · exact ⟨by simp [closeBothEnds, close], by simp [hkept], fun bridge => by simp [closeBothEnds, close]⟩
      · exact ⟨by simp, by simp, fun bridge => by simp⟩
      · exact .refl c
  | use bridge =>
      dsimp only [step, use]
      split_ifs <;> exact ⟨rfl, Iff.rfl, fun _ => id⟩
  | endBridge bridge =>
      dsimp only [step, endBridge]
      split_ifs with hgoing
      · refine ⟨rfl, Iff.rfl, fun other hunstarted => ?_⟩
        have hne : other ≠ bridge := by
          rintro rfl
          rw [hgoing] at hunstarted
          cases hunstarted
        exact (Function.update_of_ne hne _ _).trans hunstarted
      · exact .refl c

theorem Ordered.step (h : c.Ordered) (op : Step) : (c.step op).Ordered := by
  by_cases hop : ∃ outcome, op = .initializePipes outcome
  · obtain ⟨outcome, rfl⟩ := hop
    dsimp only [PipeCustody.step]
    split_ifs
    · cases outcome with
      | ok => exact ⟨fun hinit => Bool.noConfusion hinit, fun habsent => PipeSocketLife.noConfusion habsent⟩
      | stdinPipeFails | stdoutPipeFails => exact ⟨fun hinit => Bool.noConfusion hinit, h.unstarted⟩
    · exact h
  · have hne := not_exists.mp hop
    have hlater := later_step (c := c) hne
    refine ⟨fun hinit => ?_, fun habsent bridge => ?_⟩
    · exact (h.fresh (hlater.initialized ▸ hinit)).step_of_ne hne
    · exact hlater.unstarted bridge (h.unstarted (hlater.absent.mp habsent) bridge)

/-- The step that makes the pipes and the socket. -/
def Starts (c : PipeCustody) (op : Step) : Prop :=
  op = .initializePipes .ok ∧ c.life = .alive ∧ c.initialized = false

/-- Only that step makes a socket, and none takes it back. -/
theorem absent_step (h : c.Ordered) (op : Step) :
    ((c.step op).socket = .absent → c.socket = .absent) ∧
      (c.socket = .absent → (c.step op).socket = .absent ∨ c.Starts op) := by
  by_cases hop : ∃ outcome, op = .initializePipes outcome
  · obtain ⟨outcome, rfl⟩ := hop
    dsimp only [PipeCustody.step]
    split_ifs with hfirst
    · refine ⟨fun _ => (h.fresh hfirst.2).socket, fun habsent => ?_⟩
      cases outcome with
      | ok => exact Or.inr ⟨rfl, hfirst⟩
      | stdinPipeFails | stdoutPipeFails => exact Or.inl habsent
    · exact ⟨id, Or.inl⟩
  · have hlater := later_step (c := c) (not_exists.mp hop)
    exact ⟨hlater.absent.mp, fun habsent => Or.inl (hlater.absent.mpr habsent)⟩

end PipeCustody

namespace StdioPipeTransport

variable {s : StdioPipeTransport}

/-! ### What is promised -/

/-- What the transport had taken from the connection when it was closed, or all of it. -/
def owed (s : StdioPipeTransport) : Bytes := s.acceptedAtClose.getD s.accepted

def closedOnce (s : StdioPipeTransport) : Prop := s.acceptedAtClose.isSome = true

/-- Stdout has what the connection wrote, in order and once; all of what was taken before a close when the stdout bridge
has left its loop. The connection has what came from stdin, in order and once; all of it when it sees the end of a
transport that was not closed. -/
structure Delivers (s : StdioPipeTransport) : Prop where
  written : s.stdoutRelay.sink <+: s.accepted
  paid : s.stdoutRelay.phase = .left → s.owed <+: s.stdoutRelay.sink
  read : s.connRead <+: s.arrived
  ended : s.connEnded = true → s.stdinEnded = true → ¬ s.closedOnce → s.connRead = s.arrived

/-- A stdin, stdout or pipe operation fails for good. -/
def Operation.failed : Operation → Bool
  | .bridge _ move => move.failed
  | .doRead answer => answer == .failed
  | .doWrite _ answers => answers.any (· == .failed)
  | _ => false

/-- No signal interrupts a read or a write of a bridge, and the stdout bridge finds the flag lowered with nothing left to
write of what was taken before the close. -/
def Timely (s : StdioPipeTransport) : Operation → Prop
  | .bridge bridge move => move.interrupted = false ∧
      (bridge = .pipeToStdout → move = .check → s.custody.bridges .pipeToStdout = .going → s.running = false →
        s.stdoutRelay.phase.looks = true → s.owed <+: s.stdoutRelay.sink)
  | _ => True

instance decidableTimely (s : StdioPipeTransport) : (op : Operation) → Decidable (s.Timely op)
  | .bridge bridge move => inferInstanceAs (Decidable (move.interrupted = false ∧
      (bridge = .pipeToStdout → move = .check → s.custody.bridges .pipeToStdout = .going → s.running = false →
        s.stdoutRelay.phase.looks = true → s.owed <+: s.stdoutRelay.sink)))
  | .own _ | .doRead _ | .doWrite _ _ | .stdinArrives _ | .stdinEnds => inferInstanceAs (Decidable True)

/-! ### The invariant -/

structure Sound (s : StdioPipeTransport) : Prop where
  ordered : s.custody.Ordered
  flag : s.running = true ∨ s.closedOnce ∨ s.custody.socket = .absent
  unmoved : s.custody.socket = .absent → s.stdinRelay.flow = s.arrived ∧ s.stdoutRelay.flow = s.accepted
  stdoutHolds : s.stdoutRelay.Holds s.accepted s.running
  prefix_owed : s.owed <+: s.accepted
  paid : s.stdoutRelay.flow ≠ s.accepted ∨ s.stdoutRelay.phase = .left → s.owed <+: s.stdoutRelay.sink
  stdoutLeft : s.stdoutRelay.phase = .left → s.closedOnce ∨ s.custody.isClosed .stdoutWrite = true
  stdinHolds : s.stdinRelay.Holds s.arrived s.running
  read : s.connRead <+: s.stdinRelay.sink
  stdinLeft : s.stdinRelay.phase = .left → s.closedOnce ∨ s.stdinEnded = true ∧ s.stdinRelay.source = []
  shut : s.custody.isClosed .stdinWrite = true → s.custody.socket = .absent ∨ s.closedOnce ∨ s.stdinRelay.phase = .left
  connEnded : s.connEnded = true → s.closedOnce ∨ s.stdinRelay.phase = .left ∧ s.connRead = s.stdinRelay.sink

theorem create_sound (bufferSize : Nat) : (create bufferSize).Sound where
  ordered := PipeCustody.fresh_ordered
  flag := Or.inr (Or.inr rfl)
  unmoved _ := ⟨rfl, rfl⟩
  stdoutHolds := Or.inl rfl
  prefix_owed := List.prefix_refl _
  paid _ := List.prefix_refl _
  stdoutLeft hleft := by cases hleft
  stdinHolds := Or.inl rfl
  read := List.prefix_refl _
  stdinLeft hleft := by cases hleft
  shut hclosed := by cases hclosed
  connEnded hended := by cases hended

/-- The flag of a transport that was not closed is lowered only before its bridges are started. -/
theorem Sound.absent_of_lowered (h : s.Sound) (hlowered : s.running = false) (hopen : ¬ s.closedOnce) :
    s.custody.socket = .absent := by
  rcases h.flag with hrunning | hclosed | habsent
  · rw [hlowered] at hrunning
    cases hrunning
  · exact absurd hclosed hopen
  · exact habsent

theorem Sound.stdin_flow (h : s.Sound) (hopen : ¬ s.closedOnce) : s.stdinRelay.flow = s.arrived := by
  rcases h.stdinHolds with hflow | ⟨hlowered, -, -⟩
  · exact hflow
  · exact (h.unmoved (h.absent_of_lowered hlowered hopen)).1

theorem Sound.stdout_flow (h : s.Sound) (hopen : ¬ s.closedOnce) : s.stdoutRelay.flow = s.accepted := by
  rcases h.stdoutHolds with hflow | ⟨hlowered, -, -⟩
  · exact hflow
  · exact (h.unmoved (h.absent_of_lowered hlowered hopen)).2

theorem Sound.delivers (h : s.Sound) : s.Delivers where
  written := h.stdoutHolds.prefix_sink
  paid hleft := h.paid (Or.inr hleft)
  read := h.read.trans h.stdinHolds.prefix_sink
  ended := by
    intro hended _ hopen
    rcases h.connEnded hended with hclosed | ⟨hleft, hread⟩
    · exact absurd hclosed hopen
    rcases h.stdinLeft hleft with hclosed | ⟨-, hsource⟩
    · exact absurd hclosed hopen
    have hflow : s.stdinRelay.flow = s.stdinRelay.sink := by
      simp [Relay.flow, hleft, Relay.Phase.rest, hsource]
    rw [hread, ← hflow, h.stdin_flow hopen]

/-! ### The connection's operations -/

/-- What is taken after a close is not owed. -/
theorem owed_doWrite (hclosed : s.closedOnce) (buffer : List Bytes) (answers : List Relay.WriteAnswer) :
    (s.doWrite buffer answers).owed = s.owed := by
  obtain ⟨before, hbefore⟩ := Option.isSome_iff_exists.mp hclosed
  simp [owed, StdioPipeTransport.doWrite, hbefore]

theorem owed_of_open (hopen : ¬ s.closedOnce) : s.owed = s.accepted := by
  rw [closedOnce, Bool.not_eq_true, Option.isSome_eq_false_iff, Option.isNone_iff_eq_none] at hopen
  rw [owed, hopen, Option.getD_none]

theorem Sound.doWrite (h : s.Sound) (htaken : s.custody.socket = .taken)
    (hopen : s.custody.isOpen .stdoutWrite = true) (buffer : List Bytes) (answers : List Relay.WriteAnswer) :
    (s.doWrite buffer answers).Sound where
  ordered := h.ordered
  flag := h.flag
  unmoved habsent := PipeSocketLife.noConfusion (habsent.symm.trans htaken)
  stdoutHolds := h.stdoutHolds.feed _
  prefix_owed := by
    by_cases hclosed : s.closedOnce
    · rw [owed_doWrite hclosed]
      exact h.prefix_owed.trans (List.prefix_append _ _)
    · have hstill : ¬ (s.doWrite buffer answers).closedOnce := hclosed
      rw [owed_of_open hstill]
  paid := by
    intro hlost
    have hflow : (s.doWrite buffer answers).stdoutRelay.flow =
        s.stdoutRelay.flow ++ writev (buffer.take 16) answers := s.stdoutRelay.flow_feed _
    by_cases hclosed : s.closedOnce
    · rw [owed_doWrite hclosed]
      refine h.paid (hlost.imp_left fun hlost hall => hlost ?_)
      rw [hflow, hall]
      rfl
    · rcases hlost with hlost | hleft
      · refine absurd ?_ hlost
        rw [hflow, h.stdout_flow hclosed]
        rfl
      · rcases h.stdoutLeft hleft with hclosed' | hshut
        · exact absurd hclosed' hclosed
        · simp [PipeCustody.isOpen, hshut] at hopen
  stdoutLeft := h.stdoutLeft
  stdinHolds := h.stdinHolds
  read := h.read
  stdinLeft := h.stdinLeft
  shut := h.shut
  connEnded := h.connEnded

/-- What the connection reads next is in the pipe. -/
theorem Sound.read_append_pipe (h : s.Sound) : s.connRead ++ s.stdinPipe = s.stdinRelay.sink := by
  obtain ⟨rest, hrest⟩ := h.read
  rw [stdinPipe, ← hrest, List.drop_left]

theorem Sound.doRead (h : s.Sound) (htaken : s.custody.socket = .taken) {answer : Relay.ReadAnswer}
    (hcan : s.canRead answer = true) : (s.doRead answer).Sound := by
  cases answer with
  | bytes n =>
      dsimp only [StdioPipeTransport.doRead]
      split_ifs
      · refine { h with read := ?_, connEnded := fun hended => (h.connEnded hended).imp_right fun hread => ⟨hread.1, ?_⟩ }
        · change s.connRead ++ s.stdinPipe.take n <+: s.stdinRelay.sink
          rw [← h.read_append_pipe]
          exact (List.prefix_append_right_inj _).mpr (List.take_prefix n _)
        · change s.connRead ++ s.stdinPipe.take n = s.stdinRelay.sink
          have hempty : s.stdinPipe = [] := by
            have happend := h.read_append_pipe
            rwa [← hread.2, List.append_right_eq_self] at happend
          rw [hempty, List.take_nil, List.append_nil, hread.2]
      · exact h
  | endOfInput =>
      simp only [canRead, Bool.and_eq_true, List.isEmpty_iff] at hcan
      refine { h with connEnded := fun _ => ?_ }
      rcases h.shut hcan.2 with habsent | hclosed | hleft
      · rw [htaken] at habsent
        cases habsent
      · exact Or.inl hclosed
      · refine Or.inr ⟨hleft, ?_⟩
        have happend := h.read_append_pipe
        rwa [hcan.1, List.append_nil] at happend
  | again | interrupted | failed => exact h

/-! ### The bridges' moves -/

theorem Sound.closed_of_going (h : s.Sound) {bridge : Bridge} (hgoing : s.custody.bridges bridge = .going)
    (hlowered : s.running = false) : s.closedOnce := by
  by_contra hopen
  have hunstarted := h.ordered.unstarted (h.absent_of_lowered hlowered hopen) bridge
  rw [hgoing] at hunstarted
  cases hunstarted

theorem Sound.not_absent (h : s.Sound) {bridge : Bridge} (hgoing : s.custody.bridges bridge = .going) :
    s.custody.socket ≠ .absent := by
  intro habsent
  have hunstarted := h.ordered.unstarted habsent bridge
  rw [hgoing] at hunstarted
  cases hunstarted

theorem Sound.bridgeStdin (h : s.Sound) (hgoing : s.custody.bridges .stdinToPipe = .going) {move : Relay.Move}
    (hcan : s.canBridgeStdin move = true) (hundisturbed : move.undisturbed = true) :
    (s.bridge .stdinToPipe move).Sound := by
  have hflag : (s.bridge .stdinToPipe move).running = s.running :=
    Relay.running_of_undisturbed s.bufferSize s.running s.stdinRelay hundisturbed
  have hmoved := s.stdinRelay.moved s.bufferSize s.running move hundisturbed
  have hstill (hleft : s.stdinRelay.phase = .left) : (s.bridge .stdinToPipe move).stdinRelay = s.stdinRelay :=
    congrArg Prod.fst (Relay.step_of_left s.bufferSize s.running move hleft)
  exact {
    ordered := h.ordered
    flag := hflag ▸ h.flag
    unmoved := fun habsent => absurd habsent (h.not_absent hgoing)
    prefix_owed := h.prefix_owed
    stdoutHolds := hflag ▸ h.stdoutHolds
    paid := h.paid
    stdoutLeft := h.stdoutLeft
    stdinHolds := hflag ▸ h.stdinHolds.step s.bufferSize hundisturbed
    read := h.read.trans hmoved.prefix_sink
    stdinLeft := by
      intro hleft
      by_cases hbefore : s.stdinRelay.phase = .left
      · rw [hstill hbefore]
        exact h.stdinLeft hbefore
      cases hmoved with
      | on _ _ hsame => exact absurd (hsame.mp hleft) hbefore
      | ended hmove _ ht =>
          rw [hmove, canBridgeStdin, Bool.and_eq_true, List.isEmpty_iff] at hcan
          have hstep : (s.bridge .stdinToPipe move).stdinRelay = { s.stdinRelay with phase := .left } := ht
          rw [hstep]
          exact Or.inr ⟨hcan.2, hcan.1⟩
      | stopped _ hlowered _ _ _ => exact Or.inl (h.closed_of_going hgoing hlowered)
    shut := by
      intro hshut
      refine (h.shut hshut).imp_right (Or.imp_right fun hleft => ?_)
      rw [hstill hleft, hleft]
    connEnded := by
      intro hended
      refine (h.connEnded hended).imp_right fun hread => ?_
      rw [hstill hread.1]
      exact hread }

theorem Sound.bridgeStdout (h : s.Sound) (hgoing : s.custody.bridges .pipeToStdout = .going) {move : Relay.Move}
    (hcan : s.canBridgeStdout move = true) (hundisturbed : move.undisturbed = true)
    (hpaid : move = .check → s.running = false → s.stdoutRelay.phase.looks = true → s.owed <+: s.stdoutRelay.sink) :
    (s.bridge .pipeToStdout move).Sound := by
  have hflag : (s.bridge .pipeToStdout move).running = s.running :=
    Relay.running_of_undisturbed s.bufferSize s.running s.stdoutRelay hundisturbed
  have hmoved := s.stdoutRelay.moved s.bufferSize s.running move hundisturbed
  have hstill (hleft : s.stdoutRelay.phase = .left) : (s.bridge .pipeToStdout move).stdoutRelay = s.stdoutRelay :=
    congrArg Prod.fst (Relay.step_of_left s.bufferSize s.running move hleft)
  exact {
    ordered := h.ordered
    flag := hflag ▸ h.flag
    unmoved := fun habsent => absurd habsent (h.not_absent hgoing)
    prefix_owed := h.prefix_owed
    stdoutHolds := hflag ▸ h.stdoutHolds.step s.bufferSize hundisturbed
    paid := by
      intro hlost
      by_cases hbefore : s.stdoutRelay.flow ≠ s.accepted ∨ s.stdoutRelay.phase = .left
      · exact (h.paid hbefore).trans hmoved.prefix_sink
      rw [not_or, not_not] at hbefore
      cases hmoved with
      | on hflow _ hsame =>
          rcases hlost with hlost | hleft
          · exact absurd (hflow.trans hbefore.1) hlost
          · exact absurd (hsame.mp hleft) hbefore.2
      | ended hmove hreading ht =>
          rw [hmove, canBridgeStdout, Bool.and_eq_true, Bool.and_eq_true, List.isEmpty_iff] at hcan
          have hsink : (s.bridge .pipeToStdout move).stdoutRelay.sink = s.accepted := by
            rw [← hbefore.1]
            refine (congrArg Relay.sink ht).trans ?_
            simp [Relay.flow, hreading, Relay.Phase.rest, hcan.1.1]
          rw [hsink]
          exact h.prefix_owed
      | stopped hmove hlowered hlooks _ hsame =>
          have hsink : (s.bridge .pipeToStdout move).stdoutRelay.sink = s.stdoutRelay.sink := hsame
          rw [hsink]
          exact hpaid hmove hlowered hlooks
    stdoutLeft := by
      intro hleft
      by_cases hbefore : s.stdoutRelay.phase = .left
      · exact h.stdoutLeft hbefore
      cases hmoved with
      | on _ _ hsame => exact absurd (hsame.mp hleft) hbefore
      | ended hmove _ _ =>
          rw [hmove, canBridgeStdout, Bool.and_eq_true] at hcan
          exact Or.inr hcan.2
      | stopped _ hlowered _ _ _ => exact Or.inl (h.closed_of_going hgoing hlowered)
    stdinHolds := hflag ▸ h.stdinHolds
    read := h.read
    stdinLeft := h.stdinLeft
    shut := h.shut
    connEnded := h.connEnded }

/-! ### What happens to the descriptors -/

/-- A close that takes effect, or the destructor. -/
def closes (s : StdioPipeTransport) (step : PipeCustody.Step) : Prop :=
  step = .closeSocket ∧ s.custody.life = .alive ∧ s.custody.connected = true ∨
    step = .beginDestroy ∧ s.custody.life = .alive

/-- The flags after a step: raised by an initialization, lowered and noted by a close. -/
inductive Owns (s : StdioPipeTransport) (step : PipeCustody.Step) (t : StdioPipeTransport) : Prop
  | starts (hstarts : s.custody.Starts step) (ht : t = { s with custody := s.custody.step step, running := true })
  | closes (hcloses : s.closes step)
      (ht : t = ({ s with custody := s.custody.step step } : StdioPipeTransport).noteClose)
  | keeps (hstarts : ¬ s.custody.Starts step) (hcloses : ¬ s.closes step)
      (ht : t = { s with custody := s.custody.step step })

theorem own_owns (s : StdioPipeTransport) (step : PipeCustody.Step) : s.Owns step (s.own step) := by
  cases step with
  | initializePipes outcome =>
      cases outcome with
      | ok =>
          dsimp only [own]
          split_ifs with hfirst
          · exact .starts ⟨rfl, hfirst⟩ rfl
          · exact .keeps (fun hstarts => hfirst hstarts.2) (by simp [closes]) rfl
      | stdinPipeFails | stdoutPipeFails =>
          exact .keeps (by simp [PipeCustody.Starts]) (by simp [closes]) rfl
  | closeSocket =>
      dsimp only [own]
      split_ifs with hcloses
      · exact .closes (Or.inl ⟨rfl, hcloses.1, hcloses.2⟩) rfl
      · exact .keeps (by simp [PipeCustody.Starts]) (by simpa [closes] using hcloses) rfl
  | beginDestroy =>
      dsimp only [own]
      split_ifs with halive
      · exact .closes (Or.inr ⟨rfl, halive⟩) rfl
      · exact .keeps (by simp [PipeCustody.Starts]) (by simpa [closes] using halive) rfl
  | takePipeSocket | onConnected | closePipeSocket | destroyPipeSocket | finishDestroy | use _ | endBridge _ =>
      exact .keeps (by simp [PipeCustody.Starts]) (by simp [closes]) rfl

/-- The write end of the pipe from stdin is closed by a close of the transport, or by its bridge when it has left. -/
theorem Sound.shut_step (h : s.Sound) {step : PipeCustody.Step} (hcloses : ¬ s.closes step)
    (hleft : step = .endBridge .stdinToPipe → s.stdinRelay.phase = .left)
    (hshut : (s.custody.step step).isClosed .stdinWrite = true) :
    (s.custody.step step).socket = .absent ∨ s.closedOnce ∨ s.stdinRelay.phase = .left := by
  rcases PipeCustody.closes_stdinWrite h.ordered step hshut with hbefore | hsocket | hclose | hdestroy | hend
  · refine (h.shut hbefore).imp_left fun habsent => ?_
    rcases (PipeCustody.absent_step h.ordered step).2 habsent with hstill | hstarts
    · exact hstill
    · simp [PipeCustody.isClosed, (h.ordered.fresh hstarts.2.2).closers] at hbefore
  · exact Or.inl hsocket.2
  · exact absurd (Or.inl hclose) hcloses
  · exact absurd (Or.inr hdestroy) hcloses
  · exact Or.inr (Or.inr (hleft hend))

theorem left_of_mayOwn {step : PipeCustody.Step} (hmay : s.mayOwn step = true)
    (hend : step = .endBridge .stdinToPipe) : s.stdinRelay.phase = .left := by
  subst hend
  dsimp only [mayOwn, relay] at hmay
  split at hmay
  · assumption
  · cases hmay

/-- A step that touches no flag. -/
theorem Sound.kept (h : s.Sound) (step : PipeCustody.Step) (hstarts : ¬ s.custody.Starts step)
    (hcloses : ¬ s.closes step) (hleft : step = .endBridge .stdinToPipe → s.stdinRelay.phase = .left) :
    ({ s with custody := s.custody.step step } : StdioPipeTransport).Sound :=
  have hsocket := PipeCustody.absent_step h.ordered step
  { h with
    ordered := h.ordered.step step
    flag := h.flag.imp_right (Or.imp_right fun habsent => (hsocket.2 habsent).resolve_right hstarts)
    unmoved := fun habsent => h.unmoved (hsocket.1 habsent)
    stdoutLeft := fun hleft => (h.stdoutLeft hleft).imp_right (PipeCustody.isClosed_step step)
    shut := h.shut_step hcloses hleft }

theorem Sound.own (h : s.Sound) {step : PipeCustody.Step} (hmay : s.mayOwn step = true) : (s.own step).Sound := by
  have hordered := h.ordered.step step
  cases s.own_owns step with
  | starts hstarts ht =>
      have hunmoved := h.unmoved (h.ordered.fresh hstarts.2.2).socket
      rw [ht]
      exact { h with
        ordered := hordered
        flag := Or.inl rfl
        unmoved := fun _ => hunmoved
        stdoutHolds := Or.inl hunmoved.2
        stdoutLeft := fun hleft => (h.stdoutLeft hleft).imp_right (PipeCustody.isClosed_step step)
        stdinHolds := Or.inl hunmoved.1
        shut := h.shut_step (by simp [closes, hstarts.1]) (left_of_mayOwn hmay) }
  | closes hcloses ht =>
      rw [ht]
      exact { h with
        ordered := hordered
        flag := Or.inr (Or.inl rfl)
        unmoved := fun habsent => h.unmoved ((PipeCustody.absent_step h.ordered step).1 habsent)
        stdoutHolds := h.stdoutHolds.lowered
        stdoutLeft := fun _ => Or.inl rfl
        stdinHolds := h.stdinHolds.lowered
        stdinLeft := fun _ => Or.inl rfl
        shut := fun _ => Or.inr (Or.inl rfl)
        connEnded := fun _ => Or.inl rfl }
  | keeps hstarts hcloses ht =>
      rw [ht]
      exact h.kept step hstarts hcloses (left_of_mayOwn hmay)

/-! ### Every operation -/

theorem Sound.bridge (h : s.Sound) {bridge : Bridge} {move : Relay.Move}
    (hgoing : s.custody.bridges bridge = .going) (hcan : s.canBridge bridge move = true)
    (hfailed : move.failed = false) (htimely : s.Timely (.bridge bridge move)) : (s.bridge bridge move).Sound := by
  have hundisturbed : move.undisturbed = true := by simp [Relay.Move.undisturbed, hfailed, htimely.1]
  cases bridge with
  | stdinToPipe => exact h.bridgeStdin hgoing hcan hundisturbed
  | pipeToStdout =>
      exact h.bridgeStdout hgoing hcan hundisturbed fun hcheck => htimely.2 rfl hcheck hgoing

theorem Sound.stdinArrives (h : s.Sound) (hopen : s.stdinEnded = false) (bytes : Bytes) :
    (s.step (.stdinArrives bytes)).Sound := by
  have hstep : s.step (.stdinArrives bytes) = { s with
      arrived := s.arrived ++ bytes
      stdinRelay := { s.stdinRelay with source := s.stdinRelay.source ++ bytes } } := by
    simp [StdioPipeTransport.step, hopen]
  rw [hstep]
  refine { h with unmoved := fun habsent => ⟨?_, (h.unmoved habsent).2⟩, stdinHolds := h.stdinHolds.feed bytes, stdinLeft := ?_ }
  · exact (s.stdinRelay.flow_feed bytes).trans (congrArg (· ++ bytes) (h.unmoved habsent).1)
  · intro hleft
    rcases h.stdinLeft hleft with hclosed | ⟨hended, -⟩
    · exact Or.inl hclosed
    · rw [hopen] at hended
      cases hended

theorem Sound.step (h : s.Sound) {op : Operation} (hfailed : op.failed = false) (htimely : s.Timely op) :
    (s.step op).Sound := by
  cases op with
  | own step =>
      dsimp only [StdioPipeTransport.step]
      split_ifs with hmay
      · exact h.own hmay
      · exact h
  | doRead answer =>
      dsimp only [StdioPipeTransport.step]
      split_ifs with hcan
      · exact h.doRead hcan.2.1 hcan.2.2.2
      · exact h
  | doWrite buffer answers =>
      dsimp only [StdioPipeTransport.step]
      split_ifs with hcan
      · exact h.doWrite hcan.2.1 hcan.2.2.1 buffer answers
      · exact h
  | bridge bridge move =>
      dsimp only [StdioPipeTransport.step]
      split_ifs with hcan huses
      · have hmoved := h.bridge hcan.1 hcan.2 hfailed htimely
        have hused := hmoved.kept (.use bridge) (by simp [PipeCustody.Starts]) (by simp [closes]) (by simp)
        rwa [bridge_custody] at hused
      · exact h.bridge hcan.1 hcan.2 hfailed htimely
      · exact h
  | stdinArrives bytes =>
      cases hopen : s.stdinEnded with
      | false => exact h.stdinArrives hopen bytes
      | true => simpa [StdioPipeTransport.step, hopen] using h
  | stdinEnds =>
      exact { h with stdinLeft := fun hleft => (h.stdinLeft hleft).imp_right fun hended => ⟨rfl, hended.2⟩ }

/-- **The stdio transport delivers what it took**, in every run in which nothing fails for good, no signal interrupts a
bridge's read or write, and the stdout bridge finds the flag lowered only when it has caught up. -/
theorem delivers_of_timely (bufferSize : Nat) {ops : List Operation} (hfailed : ∀ op ∈ ops, op.failed = false)
    (htimely : Runs.Guarded step Timely (create bufferSize) ops) :
    (Runs.run step (create bufferSize) ops).Delivers := by
  have hkeeps : ∀ (s : StdioPipeTransport) op, op.failed = false ∧ s.Timely op → s.Sound → (s.step op).Sound :=
    fun s op hok hsound => hsound.step hok.1 hok.2
  have hguarded : Runs.Guarded step (fun s op => op.failed = false ∧ s.Timely op) (create bufferSize) ops :=
    Runs.guarded_and step (Runs.guarded_of_forall step hfailed _) htimely
  exact (Runs.invariant step hkeeps (create_sound bufferSize) hguarded).delivers

/-- A transport that is taken and connected, and given a byte to write. -/
def writesOneByte : List Operation :=
  [.own (.initializePipes .ok), .own .takePipeSocket, .own .onConnected, .doWrite [[7]] [.bytes 1]]

/-- The stdout bridge reads the byte and writes it, and the transport is closed after that. -/
def closesLater : List Operation :=
  writesOneByte ++ [.bridge .pipeToStdout .check, .bridge .pipeToStdout (.wait .interrupted),
    .bridge .pipeToStdout .check, .bridge .pipeToStdout (.wait .ready), .bridge .pipeToStdout (.read (.bytes 1)),
    .bridge .pipeToStdout .check, .bridge .pipeToStdout (.write (.bytes 1)), .own .closeSocket,
    .bridge .pipeToStdout .check, .bridge .pipeToStdout .check, .own (.endBridge .pipeToStdout)]

theorem delivers_of_timely_closesLater : (Runs.run step (create 4) closesLater).Delivers :=
  delivers_of_timely 4 (by decide) (by decide)

/-- The transport is closed with the byte in the pipe. -/
def closesAtOnce : List Operation :=
  writesOneByte ++ [.own .closeSocket, .bridge .pipeToStdout .check, .own (.endBridge .pipeToStdout)]

theorem not_delivers_closesAtOnce :
    (∀ op ∈ closesAtOnce, op.failed = false) ∧ ¬ (Runs.run step (create 4) closesAtOnce).Delivers := by
  refine ⟨by decide, fun h => ?_⟩
  have howed : (Runs.run step (create 4) closesAtOnce).owed = [7] := by decide
  have hsink : (Runs.run step (create 4) closesAtOnce).stdoutRelay.sink = [] := by decide
  have hpaid := h.paid rfl
  rw [howed, hsink] at hpaid
  exact absurd hpaid (by decide)

end StdioPipeTransport

end GopherMcp
