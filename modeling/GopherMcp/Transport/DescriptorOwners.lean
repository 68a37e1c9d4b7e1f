import GopherMcp.Transport.StdioPipeTransport

/-!
# Two owners of one descriptor

The end of a pipe that a bridge has a copy of is closed by the bridge when it ends and by the transport when it is
closed or destroyed, so one of the two closes it a second time, or the bridge uses it closed. The destructor waits for
the bridges to end: no transport that made its pipes lives to its end without that.
-/

namespace GopherMcp

namespace Bridge

theorem pipeEnd_ne_stdinRead (bridge : Bridge) : bridge.pipeEnd ≠ .stdinRead := by cases bridge <;> decide

theorem pipeEnd_ne_stdoutWrite (bridge : Bridge) : bridge.pipeEnd ≠ .stdoutWrite := by cases bridge <;> decide

theorem pipeEnd_injective {bridge other : Bridge} (h : bridge.pipeEnd = other.pipeEnd) : bridge = other := by
  cases bridge <;> cases other <;> first | rfl | cases h

end Bridge

namespace PipeCustody

variable {c : PipeCustody} {bridge : Bridge}

/-! ### Before the pipes are made, and with one pipe made -/

structure Unmade (c : PipeCustody) : Prop where
  created : ∀ pipeEnd, c.created pipeEnd = false
  held : ∀ pipeEnd, c.held pipeEnd = false
  closers : ∀ pipeEnd, c.closers pipeEnd = []
  bridges : ∀ bridge, c.bridges bridge = .unstarted
  socket : c.socket = .absent
  strayUses : c.strayUses = []

/-- The second pipe could not be made. -/
structure Aborted (c : PipeCustody) : Prop where
  held : ∀ pipeEnd, c.held pipeEnd = pipeEnd.ofStdin
  closers : ∀ pipeEnd, c.closers pipeEnd = if pipeEnd.ofStdin then [.transport] else []
  bridges : ∀ bridge, c.bridges bridge = .unstarted
  socket : c.socket = .absent
  strayUses : c.strayUses = []
  life : c.life = .alive
  initialized : c.initialized = true

/-! ### With both pipes made -/

/-- The ends of the socket. -/
def socketClosers (c : PipeCustody) : List PipeParty :=
  if c.socket = .closed ∨ c.socket = .destroyed then [.socket] else []

/-- The end a bridge has a copy of: the transport has it until it closes it, which it did not after the bridge. -/
structure Shared (c : PipeCustody) (bridge : Bridge) : Prop where
  started : c.bridges bridge ≠ .unstarted
  ours : c.held bridge.pipeEnd = true →
    c.closers bridge.pipeEnd = if c.bridges bridge = .ended then [.bridge bridge] else []
  givenUp : c.held bridge.pipeEnd = false →
    c.closers bridge.pipeEnd = [.transport] ∧ c.bridges bridge = .going

structure Made (c : PipeCustody) : Prop where
  shared : ∀ bridge, c.Shared bridge
  stdinRead : c.closers .stdinRead = c.socketClosers
  stdoutWrite : c.closers .stdoutWrite = c.socketClosers
  socket : c.socket ≠ .absent
  life : c.life = .alive ∨ c.life = .joining ∧ ∀ bridge : Bridge, c.held bridge.pipeEnd = false
  strayUses : c.strayUses = []
  initialized : c.initialized = true

def Inv (c : PipeCustody) : Prop := c.Unmade ∨ c.Aborted ∨ c.Made

theorem fresh_inv : fresh.Inv :=
  Or.inl ⟨fun _ => rfl, fun _ => rfl, fun _ => rfl, fun _ => rfl, rfl, rfl⟩

/-! ### What the promise needs of a state -/

theorem Shared.length_le (h : c.Shared bridge) : (c.closers bridge.pipeEnd).length ≤ 1 := by
  cases hheld : c.held bridge.pipeEnd with
  | true =>
      rw [h.ours hheld]
      split_ifs <;> simp
  | false => simp [(h.givenUp hheld).1]

theorem Made.length_le (h : c.Made) (pipeEnd : PipeEnd) : (c.closers pipeEnd).length ≤ 1 := by
  have hsocket : c.socketClosers.length ≤ 1 := by
    unfold socketClosers
    split_ifs <;> simp
  cases pipeEnd with
  | stdinRead => rw [h.stdinRead]; exact hsocket
  | stdinWrite => exact (h.shared .stdinToPipe).length_le
  | stdoutRead => exact (h.shared .pipeToStdout).length_le
  | stdoutWrite => rw [h.stdoutWrite]; exact hsocket

theorem Made.not_gone (h : c.Made) : c.life ≠ .gone := by
  rcases h.life with halive | ⟨hjoining, -⟩
  · simp [halive]
  · simp [hjoining]

theorem Inv.closesOnce (h : c.Inv) : c.ClosesOnce := by
  rcases h with hunmade | haborted | hmade
  · refine ⟨fun pipeEnd => by simp [hunmade.closers], hunmade.strayUses, fun _ pipeEnd hcreated => ?_⟩
    rw [hunmade.created] at hcreated
    cases hcreated
  · refine ⟨fun pipeEnd => ?_, haborted.strayUses, fun hgone => ?_⟩
    · rw [haborted.closers]
      split_ifs <;> simp
    · exact absurd (hgone.1.symm.trans haborted.life) (by decide)
  · exact ⟨hmade.length_le, hmade.strayUses, fun hgone => absurd hgone.1 hmade.not_gone⟩

/-! ### The transport's side -/

@[simp] theorem giveUp_held_self (c : PipeCustody) (pipeEnd : PipeEnd) : (c.giveUp pipeEnd).held pipeEnd = false := by
  unfold giveUp
  split_ifs with hheld
  · simp
  · exact eq_false_of_ne_true hheld

theorem giveUp_held_of_ne (c : PipeCustody) {pipeEnd other : PipeEnd} (hne : other ≠ pipeEnd) :
    (c.giveUp pipeEnd).held other = c.held other := by
  unfold giveUp
  split_ifs
  · exact Function.update_of_ne hne _ _
  · rfl

@[simp] theorem giveUp_bridges (c : PipeCustody) (pipeEnd : PipeEnd) : (c.giveUp pipeEnd).bridges = c.bridges := by
  unfold giveUp
  split_ifs <;> rfl

@[simp] theorem giveUp_initialized (c : PipeCustody) (pipeEnd : PipeEnd) :
    (c.giveUp pipeEnd).initialized = c.initialized := by
  unfold giveUp
  split_ifs <;> rfl

@[simp] theorem giveUp_socket (c : PipeCustody) (pipeEnd : PipeEnd) : (c.giveUp pipeEnd).socket = c.socket := by
  unfold giveUp
  split_ifs <;> rfl

theorem giveUp_of_not_held {pipeEnd : PipeEnd} (hheld : c.held pipeEnd = false) : c.giveUp pipeEnd = c := by
  simp [giveUp, hheld]

/-- The transport closes the end of a bridge that runs. -/
theorem Made.giveUp (h : c.Made) (bridge : Bridge) (hgoing : c.held bridge.pipeEnd = true → c.bridges bridge = .going) :
    (c.giveUp bridge.pipeEnd).Made := by
  cases hheld : c.held bridge.pipeEnd with
  | false =>
      rw [giveUp_of_not_held hheld]
      exact h
  | true =>
      have hopen : c.closers bridge.pipeEnd = [] := by
        rw [(h.shared bridge).ours hheld, hgoing hheld]
        rfl
      simp only [PipeCustody.giveUp, hheld, if_true, close]
      refine ⟨fun other => ?_, ?_, ?_, h.socket, ?_, h.strayUses, h.initialized⟩
      · by_cases heq : other = bridge
        · subst heq
          refine ⟨(h.shared other).started, fun hours => ?_, fun _ => ?_⟩
          · simp at hours
          · simp [hopen, hgoing hheld]
        · have hne : other.pipeEnd ≠ bridge.pipeEnd := fun hsame => heq (Bridge.pipeEnd_injective hsame)
          refine ⟨(h.shared other).started, fun hours => ?_, fun hgiven => ?_⟩
          · simp only [Function.update_of_ne hne] at hours ⊢
            exact (h.shared other).ours hours
          · simp only [Function.update_of_ne hne] at hgiven ⊢
            exact (h.shared other).givenUp hgiven
      · exact (Function.update_of_ne bridge.pipeEnd_ne_stdinRead.symm _ _).trans h.stdinRead
      · exact (Function.update_of_ne bridge.pipeEnd_ne_stdoutWrite.symm _ _).trans h.stdoutWrite
      · refine h.life.imp_right fun hjoining => ⟨hjoining.1, fun other => ?_⟩
        by_cases hsame : other.pipeEnd = bridge.pipeEnd
        · simp [hsame]
        · simp only [Function.update_of_ne hsame]
          exact hjoining.2 other

/-- The socket closes its ends, or is taken from the transport. -/
theorem Made.ofSame {d : PipeCustody} (h : c.Made) (hbridges : d.bridges = c.bridges)
    (hheld : ∀ bridge : Bridge, d.held bridge.pipeEnd = c.held bridge.pipeEnd)
    (hclosers : ∀ bridge : Bridge, d.closers bridge.pipeEnd = c.closers bridge.pipeEnd)
    (hstdinRead : d.closers .stdinRead = d.socketClosers) (hstdoutWrite : d.closers .stdoutWrite = d.socketClosers)
    (hsocket : d.socket ≠ .absent)
    (hlife : d.life = c.life ∨ d.life = .joining ∧ ∀ bridge : Bridge, d.held bridge.pipeEnd = false)
    (hstray : d.strayUses = c.strayUses) (hinit : d.initialized = c.initialized) : d.Made where
  shared bridge := by
    have hshared := h.shared bridge
    refine ⟨hbridges ▸ hshared.started, ?_, ?_⟩
    · rw [hheld, hclosers, hbridges]
      exact hshared.ours
    · rw [hheld, hclosers, hbridges]
      exact hshared.givenUp
  stdinRead := hstdinRead
  stdoutWrite := hstdoutWrite
  socket := hsocket
  life := by
    rcases hlife with hsame | hjoining
    · rw [hsame]
      exact h.life.imp_right fun hjoining => ⟨hjoining.1, fun bridge => (hheld bridge).trans (hjoining.2 bridge)⟩
    · exact Or.inr hjoining
  strayUses := hstray.trans h.strayUses
  initialized := hinit.trans h.initialized

theorem Made.takePipeSocket (h : c.Made) : c.takePipeSocket.Made := by
  unfold PipeCustody.takePipeSocket
  split_ifs with hkept
  · refine h.ofSame rfl (fun bridge => ?_) (fun _ => rfl) ?_ ?_ (by simp) (Or.inl rfl) rfl rfl
    · cases bridge <;> rfl
    · simp [socketClosers, h.stdinRead, hkept]
    · simp [socketClosers, h.stdoutWrite, hkept]
  · exact h

theorem Made.closesBoth (h : c.Made) (htaken : c.socket = .taken) {socket : PipeSocketLife}
    (hsocket : socket = .closed ∨ socket = .destroyed) : ({ c.closeBothEnds with socket } : PipeCustody).Made := by
  refine h.ofSame rfl (fun _ => rfl) (fun bridge => ?_) ?_ ?_ ?_ (Or.inl rfl) rfl rfl
  · cases bridge <;> rfl
  · simp [closeBothEnds, close, socketClosers, hsocket, h.stdinRead, htaken]
  · simp [closeBothEnds, close, socketClosers, hsocket, h.stdoutWrite, htaken]
  · rcases hsocket with rfl | rfl <;> simp

theorem Made.destroyPipeSocket (h : c.Made) : c.destroyPipeSocket.Made := by
  unfold PipeCustody.destroyPipeSocket
  split
  · exact h.closesBoth ‹_› (Or.inr rfl)
  · rename_i hclosed
    refine h.ofSame rfl (fun _ => rfl) (fun _ => rfl) ?_ ?_ (by simp) (Or.inl rfl) rfl rfl
    · simp [socketClosers, h.stdinRead, hclosed]
    · simp [socketClosers, h.stdoutWrite, hclosed]
  · exact h

/-! ### The bridges' side -/

theorem Made.endBridge (h : c.Made) (hgoing : c.bridges bridge = .going) (hheld : c.held bridge.pipeEnd = true) :
    (c.endBridge bridge).Made := by
  have hopen : c.closers bridge.pipeEnd = [] := by
    rw [(h.shared bridge).ours hheld, hgoing]
    rfl
  unfold PipeCustody.endBridge close
  refine ⟨fun other => ?_, ?_, ?_, h.socket, h.life, h.strayUses, h.initialized⟩
  · by_cases heq : other = bridge
    · subst heq
      refine ⟨by simp, fun _ => by simp [hopen], fun hgiven => ?_⟩
      exact absurd hgiven (by simp [hheld])
    · have hne : other.pipeEnd ≠ bridge.pipeEnd := fun hsame => heq (Bridge.pipeEnd_injective hsame)
      refine ⟨?_, ?_, ?_⟩
      · simp only [Function.update_of_ne heq]
        exact (h.shared other).started
      · simp only [Function.update_of_ne heq, Function.update_of_ne hne]
        exact (h.shared other).ours
      · simp only [Function.update_of_ne heq, Function.update_of_ne hne]
        exact (h.shared other).givenUp
  · exact (Function.update_of_ne bridge.pipeEnd_ne_stdinRead.symm _ _).trans h.stdinRead
  · exact (Function.update_of_ne bridge.pipeEnd_ne_stdoutWrite.symm _ _).trans h.stdoutWrite

theorem Made.use (h : c.Made) (hgoing : c.bridges bridge = .going) (hheld : c.held bridge.pipeEnd = true) :
    (c.use bridge).Made := by
  have hopen : c.closers bridge.pipeEnd = [] := by
    rw [(h.shared bridge).ours hheld, hgoing]
    rfl
  simpa [PipeCustody.use, hopen] using h

/-! ### Steps that keep to one owner -/

theorem Made.beginDestroy (h : c.Made)
    (hgoing : ∀ bridge : Bridge, c.held bridge.pipeEnd = true → c.bridges bridge = .going) :
    c.beginDestroy.Made := by
  have hstdin : (c.giveUp .stdinWrite).Made := h.giveUp .stdinToPipe (hgoing .stdinToPipe)
  have hboth : ((c.giveUp .stdinWrite).giveUp .stdoutRead).Made := by
    refine hstdin.giveUp .pipeToStdout fun hheld => ?_
    rw [Bridge.pipeEnd, giveUp_held_of_ne c (by decide)] at hheld
    rw [giveUp_bridges]
    exact hgoing .pipeToStdout hheld
  refine hboth.ofSame rfl (fun _ => rfl) (fun _ => rfl) hboth.stdinRead hboth.stdoutWrite hboth.socket
    (Or.inr ⟨rfl, fun bridge => ?_⟩) rfl rfl
  cases bridge with
  | stdinToPipe => exact (giveUp_held_of_ne _ (by decide)).trans (giveUp_held_self c .stdinWrite)
  | pipeToStdout => exact giveUp_held_self _ .stdoutRead

theorem Made.closeSocket (h : c.Made) (hgoing : c.connected = true → c.held .stdinWrite = true →
    c.bridges .stdinToPipe = .going) : c.closeSocket.Made := by
  unfold PipeCustody.closeSocket
  split_ifs with hconnected
  · have hquiet : ({ c with connected := false } : PipeCustody).Made := { h with shared := fun b => { h.shared b with } }
    exact hquiet.giveUp .stdinToPipe (hgoing hconnected)
  · exact h

/-- The joins do not return while the transport's ends were closed under bridges that run. -/
theorem Made.not_joined (h : c.Made) (hjoining : c.life = .joining) : c.joined = false := by
  rcases h.life with halive | ⟨-, hgiven⟩
  · rw [hjoining] at halive
    cases halive
  · simp [joined, ((h.shared .stdinToPipe).givenUp (hgiven .stdinToPipe)).2]

theorem Made.step (h : c.Made) {op : Step} (hone : c.OneOwner op) : (c.step op).Made := by
  cases op with
  | initializePipes outcome =>
      dsimp only [PipeCustody.step]
      rw [if_neg (by simp [h.initialized])]
      exact h
  | takePipeSocket =>
      dsimp only [PipeCustody.step]
      split_ifs
      · exact h.takePipeSocket
      · exact h
  | onConnected =>
      dsimp only [PipeCustody.step]
      split_ifs
      · exact { h with shared := fun b => { h.shared b with } }
      · exact h
  | closeSocket =>
      dsimp only [PipeCustody.step]
      split_ifs with halive
      · exact h.closeSocket (hone halive)
      · exact h
  | closePipeSocket =>
      dsimp only [PipeCustody.step, PipeCustody.closePipeSocket]
      split_ifs with htaken
      · exact h.closesBoth htaken (Or.inl rfl)
      · exact h
  | destroyPipeSocket => exact h.destroyPipeSocket
  | beginDestroy =>
      dsimp only [PipeCustody.step]
      split_ifs with halive
      · exact h.beginDestroy (hone halive)
      · exact h
  | finishDestroy =>
      dsimp only [PipeCustody.step]
      rw [if_neg]
      · exact h
      · rintro ⟨hjoining, hjoined⟩
        rw [h.not_joined hjoining] at hjoined
        cases hjoined
  | use bridge =>
      dsimp only [PipeCustody.step]
      split_ifs with hgoing
      · exact h.use hgoing (hone hgoing)
      · exact h
  | endBridge bridge =>
      dsimp only [PipeCustody.step]
      split_ifs with hgoing
      · exact h.endBridge hgoing (hone hgoing)
      · exact h

theorem Aborted.step (h : c.Aborted) {op : Step} (hone : c.OneOwner op) : (c.step op).Aborted := by
  have hidle (bridge : Bridge) : c.bridges bridge ≠ .going := by simp [h.bridges]
  cases op with
  | initializePipes outcome => simpa [PipeCustody.step, h.initialized] using h
  | takePipeSocket => simpa [PipeCustody.step, PipeCustody.takePipeSocket, h.socket] using h
  | onConnected =>
      dsimp only [PipeCustody.step]
      rw [if_pos h.life]
      exact { h with }
  | closeSocket =>
      have hquiet : c.connected = false := eq_false_of_ne_true fun hconnected =>
        hidle .stdinToPipe (hone h.life hconnected (h.held .stdinWrite))
      simpa [PipeCustody.step, PipeCustody.closeSocket, hquiet] using h
  | closePipeSocket => simpa [PipeCustody.step, PipeCustody.closePipeSocket, h.socket] using h
  | destroyPipeSocket => simpa [PipeCustody.step, PipeCustody.destroyPipeSocket, h.socket] using h
  | beginDestroy => exact absurd (hone h.life .stdinToPipe (h.held .stdinWrite)) (hidle .stdinToPipe)
  | finishDestroy => simpa [PipeCustody.step, h.life] using h
  | use bridge => simpa [PipeCustody.step, hidle bridge] using h
  | endBridge bridge => simpa [PipeCustody.step, hidle bridge] using h

theorem Unmade.initializePipes (h : c.Unmade) (halive : c.life = .alive) (outcome : InitializeOutcome) :
    (c.initializePipes outcome).Inv := by
  cases outcome with
  | ok =>
      refine Or.inr (Or.inr ⟨fun bridge => ⟨by simp [PipeCustody.initializePipes], fun _ => ?_, fun hgiven => ?_⟩,
        h.closers _, h.closers _, by simp [PipeCustody.initializePipes], Or.inl halive, h.strayUses, rfl⟩)
      · exact h.closers _
      · cases hgiven
  | stdinPipeFails => exact Or.inl { h with }
  | stdoutPipeFails =>
      refine Or.inr (Or.inl ⟨fun _ => rfl, fun pipeEnd => ?_, h.bridges, h.socket, h.strayUses, halive, rfl⟩)
      cases pipeEnd <;> simp [PipeCustody.initializePipes, close, h.closers, PipeEnd.ofStdin]

theorem Unmade.giveUp (h : c.Unmade) (pipeEnd : PipeEnd) : c.giveUp pipeEnd = c := giveUp_of_not_held (h.held pipeEnd)

theorem Unmade.step_of_ne (h : c.Unmade) {op : Step} (hop : ∀ outcome, op ≠ .initializePipes outcome) :
    (c.step op).Unmade := by
  cases op with
  | initializePipes outcome => exact absurd rfl (hop outcome)
  | takePipeSocket => simpa [PipeCustody.step, PipeCustody.takePipeSocket, h.socket] using h
  | onConnected =>
      dsimp only [PipeCustody.step]
      split_ifs
      · exact { h with }
      · exact h
  | closeSocket =>
      have hquiet : ({ c with connected := false } : PipeCustody).Unmade := { h with }
      dsimp only [PipeCustody.step, PipeCustody.closeSocket]
      rw [hquiet.giveUp]
      split_ifs
      · exact hquiet
      · exact h
      · exact h
  | closePipeSocket => simpa [PipeCustody.step, PipeCustody.closePipeSocket, h.socket] using h
  | destroyPipeSocket => simpa [PipeCustody.step, PipeCustody.destroyPipeSocket, h.socket] using h
  | beginDestroy =>
      dsimp only [PipeCustody.step, PipeCustody.beginDestroy]
      rw [h.giveUp, h.giveUp]
      split_ifs
      · exact { h with }
      · exact h
  | finishDestroy =>
      dsimp only [PipeCustody.step, PipeCustody.finishDestroy]
      rw [h.giveUp, h.giveUp, if_neg (show ¬ c.socket = .kept by simp [h.socket])]
      split_ifs
      · exact { h with }
      · exact h
  | use bridge => simpa [PipeCustody.step, h.bridges] using h
  | endBridge bridge => simpa [PipeCustody.step, h.bridges] using h

theorem Unmade.step (h : c.Unmade) (op : Step) : (c.step op).Inv := by
  by_cases hop : ∃ outcome, op = .initializePipes outcome
  · obtain ⟨outcome, rfl⟩ := hop
    dsimp only [PipeCustody.step]
    split_ifs with hfirst
    · exact h.initializePipes hfirst.1 outcome
    · exact Or.inl h
  · exact Or.inl (h.step_of_ne (not_exists.mp hop))

theorem Inv.step (h : c.Inv) {op : Step} (hone : c.OneOwner op) : (c.step op).Inv := by
  rcases h with hunmade | haborted | hmade
  · exact hunmade.step op
  · exact Or.inr (Or.inl (haborted.step hone))
  · exact Or.inr (Or.inr (hmade.step hone))

/-! ### Steps that do not -/

/-- An entry without a running bridge on its end was closed by someone. -/
theorem Inv.length_of_not_going (h : c.Inv) (bridge : Bridge) (hheld : c.held bridge.pipeEnd = true)
    (hnot : c.bridges bridge ≠ .going) : (c.closers bridge.pipeEnd).length = 1 := by
  rcases h with hunmade | haborted | hmade
  · rw [hunmade.held] at hheld
    cases hheld
  · rw [haborted.held] at hheld
    simp [haborted.closers, hheld]
  · have hshared := hmade.shared bridge
    have hended : c.bridges bridge = .ended := by
      cases hbridge : c.bridges bridge with
      | unstarted => exact absurd hbridge hshared.started
      | going => exact absurd hbridge hnot
      | ended => rfl
    rw [hshared.ours hheld, if_pos hended]
    rfl

/-- The end of a running bridge that is no entry any more was closed by the transport. -/
theorem Inv.closers_of_going (h : c.Inv) (hgoing : c.bridges bridge = .going) (hheld : c.held bridge.pipeEnd = false) :
    c.closers bridge.pipeEnd = [.transport] := by
  rcases h with hunmade | haborted | hmade
  · rw [hunmade.bridges] at hgoing
    cases hgoing
  · rw [haborted.bridges] at hgoing
    cases hgoing
  · exact ((hmade.shared bridge).givenUp hheld).1

theorem length_giveUp {pipeEnd : PipeEnd} (hheld : c.held pipeEnd = true) :
    ((c.giveUp pipeEnd).closers pipeEnd).length = (c.closers pipeEnd).length + 1 := by
  simp [giveUp, hheld, close]

theorem giveUp_closers_of_ne (c : PipeCustody) {pipeEnd other : PipeEnd} (hne : other ≠ pipeEnd) :
    (c.giveUp pipeEnd).closers other = c.closers other := by
  unfold giveUp
  split_ifs
  · exact Function.update_of_ne hne _ _
  · rfl

theorem length_beginDestroy (hheld : c.held bridge.pipeEnd = true) :
    (c.beginDestroy.closers bridge.pipeEnd).length = (c.closers bridge.pipeEnd).length + 1 := by
  cases bridge with
  | stdinToPipe =>
      refine (congrArg List.length (giveUp_closers_of_ne _ (by decide))).trans ?_
      exact length_giveUp hheld
  | pipeToStdout =>
      have hsame : (c.giveUp .stdinWrite).held .stdoutRead = true :=
        (giveUp_held_of_ne c (by decide)).trans hheld
      refine (length_giveUp hsame).trans ?_
      rw [giveUp_closers_of_ne c (by decide)]
      rfl

theorem not_closesOnce_of_length (pipeEnd : PipeEnd) (hlength : (c.closers pipeEnd).length = 2) : ¬ c.ClosesOnce := by
  intro h
  have hle := h.once pipeEnd
  omega

theorem not_closesOnce_of_not_oneOwner (h : c.Inv) {op : Step} (hnot : ¬ c.OneOwner op) :
    ¬ (c.step op).ClosesOnce := by
  cases op with
  | closeSocket =>
      simp only [OneOwner, Classical.not_imp] at hnot
      obtain ⟨halive, hconnected, hheld, hidle⟩ := hnot
      dsimp only [PipeCustody.step, PipeCustody.closeSocket]
      rw [if_pos halive, if_pos hconnected]
      refine not_closesOnce_of_length .stdinWrite ?_
      have hone := h.length_of_not_going .stdinToPipe hheld hidle
      exact (length_giveUp (c := { c with connected := false }) hheld).trans (congrArg (· + 1) hone)
  | beginDestroy =>
      simp only [OneOwner, Classical.not_imp, not_forall] at hnot
      obtain ⟨halive, bridge, hheld, hidle⟩ := hnot
      dsimp only [PipeCustody.step]
      rw [if_pos halive]
      exact not_closesOnce_of_length _ ((length_beginDestroy hheld).trans
        (congrArg (· + 1) (h.length_of_not_going bridge hheld hidle)))
  | use bridge =>
      simp only [OneOwner, Classical.not_imp] at hnot
      obtain ⟨hgoing, hheld⟩ := hnot
      have hclosers := h.closers_of_going hgoing (eq_false_of_ne_true hheld)
      intro hcloses
      have hstray := hcloses.noStrayUse
      simp [PipeCustody.step, hgoing, PipeCustody.use, hclosers] at hstray
  | endBridge bridge =>
      simp only [OneOwner, Classical.not_imp] at hnot
      obtain ⟨hgoing, hheld⟩ := hnot
      have hclosers := h.closers_of_going hgoing (eq_false_of_ne_true hheld)
      dsimp only [PipeCustody.step]
      rw [if_pos hgoing]
      exact not_closesOnce_of_length bridge.pipeEnd (by simp [PipeCustody.endBridge, close, hclosers])
  | initializePipes | takePipeSocket | onConnected | closePipeSocket | destroyPipeSocket | finishDestroy =>
      exact absurd trivial hnot

end PipeCustody

namespace StdioPipeTransport

variable {s : StdioPipeTransport} {op : StdioPipeTransport.Operation}

/-! ### The transport itself -/

/-- What the operation does to the descriptors has one owner. -/
def OneOwner (s : StdioPipeTransport) (op : Operation) : Prop :=
  ∀ step, s.custodyStep op = some step → s.custody.OneOwner step

theorem own_custody (s : StdioPipeTransport) (step : PipeCustody.Step) :
    (s.own step).custody = s.custody.step step := by
  cases step with
  | initializePipes outcome =>
      cases outcome with
      | ok =>
          dsimp only [own]
          split_ifs <;> rfl
      | stdinPipeFails | stdoutPipeFails => rfl
  | closeSocket | beginDestroy =>
      dsimp only [own]
      split_ifs <;> rfl
  | takePipeSocket | onConnected | closePipeSocket | destroyPipeSocket | finishDestroy | use _ | endBridge _ => rfl

theorem bridge_custody (s : StdioPipeTransport) (bridge : Bridge) (move : Relay.Move) :
    (s.bridge bridge move).custody = s.custody := by
  cases bridge <;> rfl

theorem custody_step (s : StdioPipeTransport) (op : Operation) :
    (s.step op).custody = ((s.custodyStep op).map s.custody.step).getD s.custody := by
  cases op with
  | own step =>
      dsimp only [StdioPipeTransport.step, custodyStep]
      split_ifs
      · exact s.own_custody step
      · rfl
  | doRead answer =>
      dsimp only [StdioPipeTransport.step, custodyStep]
      split_ifs
      · cases answer with
        | bytes n =>
            dsimp only [doRead]
            split_ifs <;> rfl
        | endOfInput | again | interrupted | failed => rfl
      · rfl
  | doWrite buffer answers =>
      dsimp only [StdioPipeTransport.step, custodyStep]
      split_ifs <;> rfl
  | bridge bridge move =>
      dsimp only [StdioPipeTransport.step, custodyStep]
      by_cases hgoing : s.custody.bridges bridge = .going
      · cases hcan : s.canBridge bridge move <;> cases huses : s.usesPipe bridge move <;>
          simp [hgoing, bridge_custody]
      · simp only [hgoing, false_and, if_false]
        split_ifs
        · simp [PipeCustody.step, hgoing]
        · rfl
  | stdinArrives bytes =>
      dsimp only [StdioPipeTransport.step, custodyStep]
      split_ifs <;> rfl
  | stdinEnds => rfl

theorem inv_step (hone : s.OneOwner op) (hinv : s.custody.Inv) : (s.step op).custody.Inv := by
  rw [custody_step]
  cases hstep : s.custodyStep op with
  | none => exact hinv
  | some step => exact hinv.step (hone step hstep)

/-- A transport that made its pipes is not destroyed to the end while each descriptor has one owner. -/
theorem not_gone_of_oneOwner (bufferSize : Nat) {ops : List Operation}
    (hone : Runs.Guarded step OneOwner (create bufferSize) ops)
    (hcreated : (Runs.run step (create bufferSize) ops).custody.created .stdinRead = true) :
    (Runs.run step (create bufferSize) ops).custody.life ≠ .gone := by
  have hkeeps : ∀ (s : StdioPipeTransport) op, s.OneOwner op → s.custody.Inv → (s.step op).custody.Inv :=
    fun s op => inv_step
  have hinv := Runs.invariant step hkeeps PipeCustody.fresh_inv hone
  rcases hinv with hunmade | haborted | hmade
  · rw [hunmade.created] at hcreated
    cases hcreated
  · rw [haborted.life]
    decide
  · exact hmade.not_gone

/-- **Each descriptor is closed once** in every state of a run exactly when the transport closes the end a bridge has a
copy of only while the bridge runs, and the bridge touches it only while the transport has it; a transport that made
its pipes is then not destroyed to the end. -/
theorem closes_each_once_iff (bufferSize : Nat) (ops : List Operation) :
    ((∀ before after, ops = before ++ after → (Runs.run step (create bufferSize) before).custody.ClosesOnce) ↔
      Runs.Guarded step OneOwner (create bufferSize) ops) ∧
    (Runs.Guarded step OneOwner (create bufferSize) ops →
      (Runs.run step (create bufferSize) ops).custody.created .stdinRead = true →
        (Runs.run step (create bufferSize) ops).custody.life ≠ .gone) := by
  refine ⟨?_, not_gone_of_oneOwner bufferSize⟩
  have hkeeps : ∀ (s : StdioPipeTransport) op, True → s.OneOwner op → s.custody.Inv → (s.step op).custody.Inv :=
    fun s op _ => inv_step
  have hbreaks : ∀ (s : StdioPipeTransport) op, True → s.custody.Inv → ¬ s.OneOwner op →
      ¬ (s.step op).custody.ClosesOnce := by
    intro s op _ hinv hnot
    simp only [OneOwner, not_forall] at hnot
    obtain ⟨step, hstep, hbreach⟩ := hnot
    rw [custody_step, hstep]
    exact PipeCustody.not_closesOnce_of_not_oneOwner hinv hbreach
  have hproper : Runs.Guarded step (fun _ _ => True) (create bufferSize) ops :=
    Runs.guarded_of_forall step (fun _ _ => trivial) _
  exact Runs.everywhere_iff_of_inv step hkeeps (fun _ => PipeCustody.Inv.closesOnce) hbreaks PipeCustody.fresh_inv
    hproper

/-- Stdin ends, and the stdin bridge with it, before the connection closes. -/
def endsThenCloses : List Operation :=
  [.own (.initializePipes .ok), .own .takePipeSocket, .own .onConnected, .stdinEnds, .bridge .stdinToPipe .check,
    .bridge .stdinToPipe (.wait .ready), .bridge .stdinToPipe (.read .endOfInput), .own (.endBridge .stdinToPipe),
    .own .closeSocket]

theorem not_closes_each_once_stdinEnds :
    ¬ (Runs.run step (create 65536) endsThenCloses).custody.ClosesOnce := by
  intro h
  have hclosers : (Runs.run step (create 65536) endsThenCloses).custody.closers .stdinWrite =
      [.bridge .stdinToPipe, .transport] := by decide
  have hle := h.once .stdinWrite
  rw [hclosers] at hle
  exact absurd hle (by decide)

end StdioPipeTransport

end GopherMcp
