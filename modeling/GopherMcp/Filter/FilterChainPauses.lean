import GopherMcp.Filter.FilterChain

/-!
# Pauses of a filter chain

What a resumed chain owes is what arrived since it was paused. Beside a machine are kept the pause that is not over,
with what was held when it began and what has arrived since. Data from the peer moves a paused chain to another
state, from which it is not resumed, and so does what is held once it reaches the high watermark.
-/

namespace GopherMcp

/-- Data that came while a chain was paused. -/
structure Arrival where
  reading : Bool
  data : Bytes

/-- A pause: how much was held when it began, and what has arrived since, the latest first. -/
structure ChainPause where
  held : Nat
  arrivals : List Arrival

namespace ChainPause

/-- What of the arrivals goes one way, in the order it came in. -/
def along (reading : Bool) : List Arrival → Bytes
  | [] => []
  | arrival :: earlier => along reading earlier ++ if arrival.reading = reading then arrival.data else []

def total : List Arrival → Nat
  | [] => 0
  | arrival :: earlier => total earlier + arrival.data.length

/-- Nothing came from the peer that had anything held, and what was held stayed below the watermark. -/
def Quiet (highWatermark : Nat) : List Arrival → Prop
  | [] => True
  | arrival :: earlier =>
      Quiet highWatermark earlier ∧ total (arrival :: earlier) < highWatermark ∧
        (arrival.reading = true → total (arrival :: earlier) = 0)

theorem total_eq (arrivals : List Arrival) :
    total arrivals = (along true arrivals).length + (along false arrivals).length := by
  induction arrivals with
  | nil => rfl
  | cons arrival earlier ih =>
      rw [total, along, along, ih]
      cases arrival.reading with
      | true => simp; omega
      | false => simp; omega

/-- A quiet pause has nothing from the peer to give. -/
theorem along_of_quiet {highWatermark : Nat} {arrivals : List Arrival} (hquiet : Quiet highWatermark arrivals) :
    along true arrivals = [] := by
  induction arrivals with
  | nil => rfl
  | cons arrival earlier ih =>
      obtain ⟨hearlier, -, hreading⟩ := hquiet
      rw [along, ih hearlier]
      by_cases hread : arrival.reading = true
      · have hnone := hreading hread
        rw [total] at hnone
        have hempty : arrival.data = [] := List.eq_nil_of_length_eq_zero (by omega)
        rw [hempty, ite_self]
        rfl
      · rw [if_neg hread]
        rfl

theorem total_of_quiet {highWatermark : Nat} {arrivals : List Arrival} (hquiet : Quiet highWatermark arrivals) :
    arrivals = [] ∨ total arrivals < highWatermark := by
  cases arrivals with
  | nil => exact Or.inl rfl
  | cons arrival earlier => exact Or.inr hquiet.2.1

end ChainPause

/-- The filters of a direction let data through: each goes on with what the ones before it left. -/
def LetThrough {σ : Type} : List (ChainFilter σ) → σ → Bytes → Prop
  | [], _, _ => True
  | filter :: rest, kept, data =>
      let result := filter kept data false
      result.status = .continue ∧ LetThrough rest result.kept result.left

theorem status_eq_continue_iff {σ : Type} (filters : List (ChainFilter σ)) (index : Nat) (kept : σ) (data : Bytes) :
    (iterateFilters false filters index kept data).status = .continue ↔ LetThrough filters kept data := by
  induction filters generalizing index kept data with
  | nil => exact iff_of_true rfl trivial
  | cons filter rest ih =>
      rw [iterateFilters, LetThrough]
      by_cases hstop : (filter kept data false).status = .stopIteration
      · simp [hstop]
      · have hgoOn : (filter kept data false).status = .continue := by
          cases h : (filter kept data false).status with
          | «continue» => rfl
          | stopIteration => contradiction
        rw [if_neg hstop, ih]
        exact (and_iff_right hgoOn).symm

/-- The position is the first again when all have gone on. -/
theorem index_of_continue {σ : Type} (endStream : Bool) (filters : List (ChainFilter σ)) (index : Nat) (kept : σ)
    (data : Bytes) (hgoOn : (iterateFilters endStream filters index kept data).status = .continue) :
    (iterateFilters endStream filters index kept data).index = 0 := by
  induction filters generalizing index kept data with
  | nil => rfl
  | cons filter rest ih =>
      rw [iterateFilters] at hgoOn ⊢
      split_ifs at hgoOn ⊢ with hstop
      exact ih _ _ _ hgoOn

inductive FilterChainOperation
  | pause | resume
  | onData (data : Bytes) (endStream : Bool)
  | onWrite (data : Bytes) (endStream : Bool)

/-- A machine and the pause that is not over. -/
structure PausingChain (σ : Type) where
  chain : FilterChainStateMachine σ
  pause : Option ChainPause

namespace PausingChain

variable {σ : Type}

def started (config : FilterChainConfig) (readFilters writeFilters : List (ChainFilter σ)) (kept : σ) :
    PausingChain σ := ⟨.started config readFilters writeFilters kept, none⟩

/-- Data that comes is part of the pause there is. -/
def arrive (s : PausingChain σ) (reading : Bool) (data : Bytes) : Option ChainPause :=
  s.pause.map fun p => { p with arrivals := ⟨reading, data⟩ :: p.arrivals }

def step (s : PausingChain σ) : FilterChainOperation → PausingChain σ
  | .pause =>
      let done := s.chain.pause
      ⟨done.1, if done.2 then some ⟨s.chain.bufferedBytes, []⟩ else s.pause⟩
  | .resume =>
      let done := s.chain.resume
      ⟨done.1, if done.2 then none else s.pause⟩
  | .onData data endStream => ⟨(s.chain.onData data endStream).1, s.arrive true data⟩
  | .onWrite data endStream => ⟨(s.chain.onWrite data endStream).1, s.arrive false data⟩

/-- How much comes. -/
def size : FilterChainOperation → Nat
  | .pause | .resume => 0
  | .onData data _ | .onWrite data _ => data.length

/-- All that is held stays within the bound. -/
def Fits (s : PausingChain σ) (op : FilterChainOperation) : Prop :=
  ∀ p, s.pause = some p → p.held + ChainPause.total p.arrivals + size op ≤ s.chain.config.maxBufferedBytes

/-- What a pause owes: its end succeeds, the chain goes on processing data, and what arrived is given to the
filters. -/
structure Resumes (s : PausingChain σ) (p : ChainPause) : Prop where
  succeeds : s.chain.resume.2 = true
  processes : s.chain.resume.1.currentState.canProcessData = true
  reads : s.chain.resume.1.readGiven = s.chain.readGiven ++ ChainPause.along true p.arrivals
  writes : s.chain.resume.1.writeGiven = s.chain.writeGiven ++ ChainPause.along false p.arrivals

/-- A step counts what is held, and ends a pause as it should. -/
def Undoes (s : PausingChain σ) (op : FilterChainOperation) : Prop :=
  (s.step op).chain.bufferedBytes =
      (s.step op).chain.downstreamBuffer.length + (s.step op).chain.upstreamBuffer.length ∧
    (op = .resume → ∀ p, s.pause = some p → s.Resumes p)

/-- A pause that is ended began with nothing held, was quiet, and the write filters let through what came to be
written. -/
def EndsQuietly (s : PausingChain σ) (op : FilterChainOperation) : Prop :=
  op = .resume → ∀ p, s.pause = some p →
    p.held = 0 ∧ ChainPause.Quiet s.chain.config.highWatermark p.arrivals ∧
      (ChainPause.along false p.arrivals ≠ [] →
        LetThrough s.chain.writeFilters s.chain.kept (ChainPause.along false p.arrivals))

end PausingChain

/-! ### The machine's steps -/

namespace FilterChainStateMachine

variable {σ : Type} {s : FilterChainStateMachine σ}

open FilterChainState (validTransitions)

theorem transitionTo_of_valid {state : FilterChainState} (hvalid : state ∈ s.currentState.validTransitions) :
    s.transitionTo state = ({ s with currentState := state }, true) := by
  rw [transitionTo, transitionWith]
  split_ifs with hsame
  · rw [← hsame]
  · rfl

theorem transitionTo_of_invalid {state : FilterChainState} (hother : s.currentState ≠ state)
    (hinvalid : state ∉ s.currentState.validTransitions) : s.transitionTo state = (s, false) := by
  rw [transitionTo, transitionWith, if_neg hother, if_neg hinvalid]

/-- Watermarks move the flags, and the state where they may. -/
theorem checkWatermarks_eq (s : FilterChainStateMachine σ) :
    ∃ state above applied, s.checkWatermarks =
        { s with currentState := state, aboveHighWatermark := above, backpressureApplied := applied } ∧
      (state = s.currentState ∨
        state ∈ [.aboveHighWatermark, .belowLowWatermark] ∧ state ∈ s.currentState.validTransitions) ∧
      (s.backpressureApplied = s.aboveHighWatermark → applied = above) := by
  unfold checkWatermarks applyBackpressure releaseBackpressure transitionTo transitionWith
  split_ifs
  all_goals refine ⟨_, _, _, rfl, ?_, ?_⟩
  all_goals simp_all

/-- Below the high watermark nothing is checked. -/
theorem checkWatermarks_of_low (hbelow : s.aboveHighWatermark = false)
    (hlow : s.bufferedBytes < s.config.highWatermark) : s.checkWatermarks = s := by
  rw [checkWatermarks, if_neg (by omega), if_neg (by simp [hbelow])]

/-- At the high watermark a chain that holds what arrives is held up. -/
theorem checkWatermarks_of_high (hbelow : s.aboveHighWatermark = false) (hflags : s.backpressureApplied = false)
    (hhigh : s.config.highWatermark ≤ s.bufferedBytes)
    (hstate : s.currentState = .paused ∨ s.currentState = .buffering) :
    s.checkWatermarks.currentState = .aboveHighWatermark := by
  let up : FilterChainStateMachine σ := { s with aboveHighWatermark := true, backpressureApplied := true }
  have hvalid : FilterChainState.aboveHighWatermark ∈ up.currentState.validTransitions := by
    obtain h | h := hstate
    · rw [show up.currentState = .paused from h]; decide
    · rw [show up.currentState = .buffering from h]; decide
  have hup : s.checkWatermarks = (up.transitionTo .aboveHighWatermark).1 := by
    rw [checkWatermarks, if_pos ⟨hhigh, hbelow⟩, applyBackpressure, if_neg (by simp [hflags])]
  rw [hup, transitionTo_of_valid hvalid]

/-- Data from the peer is held, and moves the state. -/
theorem onData_holding (hstate : s.currentState = .paused ∨ s.currentState = .buffering) {data : Bytes}
    (hfits : s.bufferedBytes + data.length ≤ s.config.maxBufferedBytes) (endStream : Bool) :
    ∃ state, (state = .paused ∨ state = .buffering) ∧
      (state = .paused ↔ s.currentState = .paused ∧ s.bufferedBytes + data.length = 0) ∧
      (s.onData data endStream).1 =
        { s with
          currentState := state
          downstreamBuffer := s.downstreamBuffer ++ data
          bufferedBytes := s.bufferedBytes + data.length }.checkWatermarks := by
  let held : FilterChainStateMachine σ := { s with
    downstreamBuffer := s.downstreamBuffer ++ data
    bufferedBytes := s.bufferedBytes + data.length }
  have hdone : (s.onData data endStream).1 =
      (if held.currentState = .paused ∧ held.bufferedBytes > 0 then (held.transitionTo .buffering).1
        else held).checkWatermarks := by
    rw [onData, if_pos hstate, bufferData, if_neg (by omega)]
  rw [hdone]
  by_cases hmoves : held.currentState = .paused ∧ held.bufferedBytes > 0
  · have hvalid : FilterChainState.buffering ∈ held.currentState.validTransitions := by
      rw [hmoves.1]
      decide
    refine ⟨.buffering, Or.inr rfl, ?_, ?_⟩
    · have hsome : 0 < s.bufferedBytes + data.length := hmoves.2
      simp only [reduceCtorEq, false_iff, not_and]
      omega
    · rw [if_pos hmoves, transitionTo_of_valid hvalid]
  · refine ⟨s.currentState, hstate, ?_, ?_⟩
    · have hnone : s.currentState = .paused → s.bufferedBytes + data.length = 0 := by
        intro hpaused
        by_contra hsome
        exact hmoves ⟨hpaused, Nat.pos_of_ne_zero hsome⟩
      exact ⟨fun h => ⟨h, hnone h⟩, fun h => h.1⟩
    · rw [if_neg hmoves]

theorem onWrite_holding (hstate : s.currentState = .paused ∨ s.currentState = .buffering) {data : Bytes}
    (hfits : s.bufferedBytes + data.length ≤ s.config.maxBufferedBytes) (endStream : Bool) :
    (s.onWrite data endStream).1 =
      { s with
        upstreamBuffer := s.upstreamBuffer ++ data
        bufferedBytes := s.bufferedBytes + data.length }.checkWatermarks := by
  rw [onWrite, if_pos hstate, if_neg (by omega)]

end FilterChainStateMachine

namespace PausingChain

variable {σ : Type}

/-- A chain in a pause: it holds what was held before and what has arrived since, unless it is held up. -/
structure Holding (c : FilterChainStateMachine σ) (p : ChainPause) : Prop where
  counted : c.bufferedBytes = c.downstreamBuffer.length + c.upstreamBuffer.length
  flags : c.backpressureApplied = c.aboveHighWatermark
  first : c.readFilterIndex = 0 ∧ c.writeFilterIndex = 0
  state : c.currentState = .paused ∨ c.currentState = .buffering ∨ c.currentState = .aboveHighWatermark
  held : ∃ down up : Bytes, down.length + up.length = p.held ∧
    (c.currentState ≠ .aboveHighWatermark →
      c.downstreamBuffer = down ++ ChainPause.along true p.arrivals ∧
        c.upstreamBuffer = up ++ ChainPause.along false p.arrivals)
  quiet : p.held = 0 → (c.currentState = .paused ↔ ChainPause.Quiet c.config.highWatermark p.arrivals)
  below : p.held = 0 → c.currentState ≠ .aboveHighWatermark → c.aboveHighWatermark = false

theorem Holding.bufferedBytes {c : FilterChainStateMachine σ} {p : ChainPause} (h : Holding c p)
    (hstate : c.currentState ≠ .aboveHighWatermark) : c.bufferedBytes = p.held + ChainPause.total p.arrivals := by
  obtain ⟨down, up, hbefore, hheld⟩ := h.held
  obtain ⟨hdown, hup⟩ := hheld hstate
  rw [h.counted, hdown, hup, ChainPause.total_eq, List.length_append, List.length_append]
  omega

/-- Data that is held is part of the pause. -/
theorem Holding.arrive {c : FilterChainStateMachine σ} {p : ChainPause} (h : Holding c p)
    (hup : c.currentState ≠ .aboveHighWatermark) (reading : Bool) (data : Bytes) {state : FilterChainState}
    (hstate : state = .paused ∨ state = .buffering)
    (hpaused :
      state = .paused ↔ c.currentState = .paused ∧ (reading = true → c.bufferedBytes + data.length = 0)) :
    Holding
      { c with
        currentState := state
        downstreamBuffer := c.downstreamBuffer ++ if reading = true then data else []
        upstreamBuffer := c.upstreamBuffer ++ if reading = false then data else []
        bufferedBytes := c.bufferedBytes + data.length }.checkWatermarks
      { p with arrivals := ⟨reading, data⟩ :: p.arrivals } := by
  obtain ⟨down, up, hbefore, hheld⟩ := h.held
  obtain ⟨hdown, hup'⟩ := hheld hup
  have hbytes := h.bufferedBytes hup
  let next : FilterChainStateMachine σ := { c with
    currentState := state
    downstreamBuffer := c.downstreamBuffer ++ if reading = true then data else []
    upstreamBuffer := c.upstreamBuffer ++ if reading = false then data else []
    bufferedBytes := c.bufferedBytes + data.length }
  obtain ⟨state', above, applied, hchecked, hmoved, hflags⟩ := next.checkWatermarks_eq
  have hmoved' : state' = state ∨ state' = .aboveHighWatermark := by
    obtain hsame | hother := hmoved
    · exact Or.inl hsame
    · right
      have hvalid : state' ∈ state.validTransitions := hother.2
      have hwatermark := hother.1
      simp only [List.mem_cons, List.not_mem_nil, or_false] at hwatermark
      obtain rfl | rfl := hwatermark
      · rfl
      · obtain rfl | rfl := hstate
        · exact absurd hvalid (by decide)
        · exact absurd hvalid (by decide)
  have htotal : p.held = 0 → next.bufferedBytes = ChainPause.total (⟨reading, data⟩ :: p.arrivals) := by
    intro hzero
    show c.bufferedBytes + data.length = _
    rw [ChainPause.total, hbytes]
    simp [hzero]
  have hlow : p.held = 0 → next.bufferedBytes < c.config.highWatermark → state' = state ∧ above = false := by
    intro hzero hless
    have hbelow : next.aboveHighWatermark = false := h.below hzero hup
    rw [FilterChainStateMachine.checkWatermarks_of_low hbelow hless] at hchecked
    have hsame := congrArg FilterChainStateMachine.currentState hchecked
    have hflag := congrArg FilterChainStateMachine.aboveHighWatermark hchecked
    exact ⟨hsame.symm, hflag.symm.trans hbelow⟩
  have hhigh : p.held = 0 → ¬ next.bufferedBytes < c.config.highWatermark → state' = .aboveHighWatermark := by
    intro hzero hmore
    have hbelow : next.aboveHighWatermark = false := h.below hzero hup
    have hdone := FilterChainStateMachine.checkWatermarks_of_high hbelow (h.flags.trans hbelow)
      (Nat.le_of_not_lt hmore) hstate
    rw [hchecked] at hdone
    exact hdone
  show Holding next.checkWatermarks _
  rw [hchecked]
  refine ⟨?_, hflags h.flags, h.first, ?_, ⟨down, up, hbefore, fun _ => ⟨?_, ?_⟩⟩, ?_, ?_⟩
  · show c.bufferedBytes + data.length = (c.downstreamBuffer ++ if reading = true then data else []).length +
      (c.upstreamBuffer ++ if reading = false then data else []).length
    rw [h.counted]
    cases reading with
    | true => simp; omega
    | false => simp; omega
  · obtain hsame | habove := hmoved'
    · rw [hsame]
      exact hstate.imp_right Or.inl
    · exact Or.inr (Or.inr habove)
  · show c.downstreamBuffer ++ _ = _
    rw [hdown, ChainPause.along, List.append_assoc]
  · show c.upstreamBuffer ++ _ = _
    rw [hup', ChainPause.along, List.append_assoc]
  · intro hzero
    show state' = .paused ↔ ChainPause.Quiet c.config.highWatermark _
    rw [ChainPause.Quiet, ← htotal hzero, ← h.quiet hzero]
    by_cases hless : next.bufferedBytes < c.config.highWatermark
    · rw [(hlow hzero hless).1, hpaused]
      simp only [hless, true_and]
      exact Iff.rfl
    · rw [hhigh hzero hless]
      simp [hless]
  · intro hzero hstays
    by_cases hless : next.bufferedBytes < c.config.highWatermark
    · exact (hlow hzero hless).2
    · exact absurd (hhigh hzero hless) hstays

/-- A chain that processes data, or one of whose filters has stopped it. -/
structure Running (c : FilterChainStateMachine σ) : Prop where
  counted : c.bufferedBytes = c.downstreamBuffer.length + c.upstreamBuffer.length
  flags : c.backpressureApplied = c.aboveHighWatermark
  state : c.currentState = .active ∨ c.currentState = .stoppedIteration
  first : c.currentState = .active → c.readFilterIndex = 0 ∧ c.writeFilterIndex = 0
  below : c.bufferedBytes = 0 → c.aboveHighWatermark = false

/-- A chain is in a pause or runs. -/
def Sound (s : PausingChain σ) : Prop :=
  (s.pause = none ∧ Running s.chain) ∨ ∃ p, s.pause = some p ∧ Holding s.chain p

theorem sound_started (config : FilterChainConfig) (readFilters writeFilters : List (ChainFilter σ)) (kept : σ) :
    (started config readFilters writeFilters kept).Sound :=
  Or.inl ⟨rfl, rfl, rfl, Or.inl rfl, fun _ => ⟨rfl, rfl⟩, fun _ => rfl⟩

theorem Running.pause {c : FilterChainStateMachine σ} (h : Running c) :
    (⟨c.pause.1, if c.pause.2 then some ⟨c.bufferedBytes, []⟩ else none⟩ : PausingChain σ).Sound := by
  obtain hactive | hstopped := h.state
  · have hvalid : FilterChainState.paused ∈ c.currentState.validTransitions := by
      rw [hactive]
      decide
    have hpause : c.pause = ({ c with currentState := .paused }, true) := by
      rw [FilterChainStateMachine.pause, if_pos (by rw [hactive]; decide),
        FilterChainStateMachine.transitionTo_of_valid hvalid]
    rw [hpause]
    refine Or.inr ⟨⟨c.bufferedBytes, []⟩, rfl, h.counted, h.flags, h.first hactive, Or.inl rfl, ?_, ?_, ?_⟩
    · exact ⟨c.downstreamBuffer, c.upstreamBuffer, h.counted.symm, fun _ =>
        ⟨(List.append_nil _).symm, (List.append_nil _).symm⟩⟩
    · exact fun _ => iff_of_true rfl trivial
    · exact fun hzero _ => h.below hzero
  · have hpause : c.pause = (c, false) := by
      rw [FilterChainStateMachine.pause, if_neg (by rw [hstopped]; decide)]
    rw [hpause]
    exact Or.inl ⟨rfl, h⟩

theorem Holding.pause {c : FilterChainStateMachine σ} {p : ChainPause} (h : Holding c p) : c.pause = (c, false) := by
  rw [FilterChainStateMachine.pause, if_neg]
  obtain hstate | hstate | hstate := h.state
  · rw [hstate]; decide
  · rw [hstate]; decide
  · rw [hstate]; decide

theorem Running.resume {c : FilterChainStateMachine σ} (h : Running c) : c.resume = (c, false) := by
  rw [FilterChainStateMachine.resume, if_pos]
  obtain hstate | hstate := h.state
  · rw [hstate]; decide
  · rw [hstate]; decide

/-- What a running chain's filters make of data leaves what it holds alone. -/
theorem Running.settle {c : FilterChainStateMachine σ} (h : Running c) {state : FilterChainState}
    (hstate : state = .iteratingRead ∨ state = .iteratingWrite) (status : FilterStatus) (kept : σ) (read write : Nat)
    (readGiven writeGiven : Bytes) (hfirst : status = .continue → read = 0 ∧ write = 0) :
    Running (FilterChainStateMachine.settle { c with
      currentState := state
      kept := kept
      readFilterIndex := read
      writeFilterIndex := write
      readGiven := readGiven
      writeGiven := writeGiven } status) := by
  have hvalid : ∀ next ∈ ([.active, .stoppedIteration] : List FilterChainState),
      next ∈ state.validTransitions := by
    obtain rfl | rfl := hstate
    · decide
    · decide
  cases status with
  | «continue» =>
      rw [FilterChainStateMachine.settle, FilterChainStateMachine.transitionTo_of_valid (hvalid _ (by simp))]
      exact ⟨h.counted, h.flags, Or.inl rfl, fun _ => hfirst rfl, h.below⟩
  | stopIteration =>
      rw [FilterChainStateMachine.settle, FilterChainStateMachine.transitionTo_of_valid (hvalid _ (by simp))]
      exact ⟨h.counted, h.flags, Or.inr rfl, nofun, h.below⟩

theorem Running.onData {c : FilterChainStateMachine σ} (h : Running c) (data : Bytes) (endStream : Bool) :
    Running (c.onData data endStream).1 := by
  have hopen : ¬ (c.currentState = .paused ∨ c.currentState = .buffering) := by
    obtain hstate | hstate := h.state <;> simp [hstate]
  rw [FilterChainStateMachine.onData, if_neg hopen]
  obtain hactive | hstopped := h.state
  · obtain ⟨hread, hwrite⟩ := h.first hactive
    have hprocessing : FilterChainState.processingDownstream ∈ c.currentState.validTransitions := by
      rw [hactive]
      decide
    have hiterating : FilterChainState.iteratingRead ∈ FilterChainState.processingDownstream.validTransitions := by
      decide
    rw [if_pos (by rw [hactive]; decide), FilterChainStateMachine.transitionTo_of_valid hprocessing,
      FilterChainStateMachine.iterateReadFilters, FilterChainStateMachine.transitionTo_of_valid hiterating]
    exact h.settle (Or.inl rfl) _ _ _ _ _ _ fun hgoOn => ⟨index_of_continue _ _ _ _ _ hgoOn, hwrite⟩
  · rw [if_neg (by rw [hstopped]; decide)]
    exact h

theorem Running.onWrite {c : FilterChainStateMachine σ} (h : Running c) (data : Bytes) (endStream : Bool) :
    Running (c.onWrite data endStream).1 := by
  have hopen : ¬ (c.currentState = .paused ∨ c.currentState = .buffering) := by
    obtain hstate | hstate := h.state <;> simp [hstate]
  rw [FilterChainStateMachine.onWrite, if_neg hopen]
  obtain hactive | hstopped := h.state
  · obtain ⟨hread, hwrite⟩ := h.first hactive
    have hprocessing : FilterChainState.processingUpstream ∈ c.currentState.validTransitions := by
      rw [hactive]
      decide
    have hiterating : FilterChainState.iteratingWrite ∈ FilterChainState.processingUpstream.validTransitions := by
      decide
    rw [if_pos (by rw [hactive]; decide), FilterChainStateMachine.transitionTo_of_valid hprocessing,
      FilterChainStateMachine.iterateWriteFilters, FilterChainStateMachine.transitionTo_of_valid hiterating]
    exact h.settle (Or.inr rfl) _ _ _ _ _ _ fun hgoOn => ⟨hread, index_of_continue _ _ _ _ _ hgoOn⟩
  · rw [if_neg (by rw [hstopped]; decide)]
    exact h

/-- A chain that is held up takes nothing more. -/
theorem Holding.refuse {c : FilterChainStateMachine σ} {p : ChainPause} (h : Holding c p)
    (hup : c.currentState = .aboveHighWatermark) (arrival : Arrival) :
    Holding c { p with arrivals := arrival :: p.arrivals } := by
  obtain ⟨down, up, hbefore, -⟩ := h.held
  refine { h with held := ⟨down, up, hbefore, fun hother => absurd hup hother⟩, quiet := ?_ }
  intro hzero
  have hloud : ¬ ChainPause.Quiet c.config.highWatermark p.arrivals := by
    rw [← h.quiet hzero, hup]
    decide
  rw [hup]
  exact iff_of_false (by decide) fun hquiet => hloud hquiet.1

theorem Holding.paused_or_buffering {c : FilterChainStateMachine σ} {p : ChainPause} (h : Holding c p)
    (hup : c.currentState ≠ .aboveHighWatermark) : c.currentState = .paused ∨ c.currentState = .buffering := by
  obtain hpaused | hbuffering | habove := h.state
  · exact Or.inl hpaused
  · exact Or.inr hbuffering
  · exact absurd habove hup

theorem Holding.onData {c : FilterChainStateMachine σ} {p : ChainPause} (h : Holding c p) {data : Bytes}
    (hfits : p.held + ChainPause.total p.arrivals + data.length ≤ c.config.maxBufferedBytes) (endStream : Bool) :
    Holding (c.onData data endStream).1 { p with arrivals := ⟨true, data⟩ :: p.arrivals } := by
  by_cases hup : c.currentState = .aboveHighWatermark
  · rw [FilterChainStateMachine.onData, if_neg (by simp [hup]), if_neg (by rw [hup]; decide)]
    exact h.refuse hup _
  · have hroom : c.bufferedBytes + data.length ≤ c.config.maxBufferedBytes := by
      rw [h.bufferedBytes hup]
      exact hfits
    obtain ⟨state, hnext, hpaused, hdone⟩ :=
      FilterChainStateMachine.onData_holding (h.paused_or_buffering hup) hroom endStream
    have harrived := h.arrive hup true data hnext (by simpa using hpaused)
    rw [hdone]
    simpa using harrived

theorem Holding.onWrite {c : FilterChainStateMachine σ} {p : ChainPause} (h : Holding c p) {data : Bytes}
    (hfits : p.held + ChainPause.total p.arrivals + data.length ≤ c.config.maxBufferedBytes) (endStream : Bool) :
    Holding (c.onWrite data endStream).1 { p with arrivals := ⟨false, data⟩ :: p.arrivals } := by
  by_cases hup : c.currentState = .aboveHighWatermark
  · rw [FilterChainStateMachine.onWrite, if_neg (by simp [hup]), if_neg (by rw [hup]; decide)]
    exact h.refuse hup _
  · have hroom : c.bufferedBytes + data.length ≤ c.config.maxBufferedBytes := by
      rw [h.bufferedBytes hup]
      exact hfits
    have hstate := h.paused_or_buffering hup
    have harrived := h.arrive hup false data hstate (by simp)
    rw [FilterChainStateMachine.onWrite_holding hstate hroom]
    simpa using harrived

/-! ### The end of a pause -/

/-- The chain after what is held went through its filters, before it is counted. -/
def drained (c : FilterChainStateMachine σ) : FilterChainStateMachine σ :=
  { c with currentState := .draining }.drainDownstream.drainUpstream

theorem resume_of_held {c : FilterChainStateMachine σ} (hpaused : c.currentState = .paused)
    (hheld : 0 < c.bufferedBytes) :
    c.resume =
      ({ drained c with
        bufferedBytes := (drained c).downstreamBuffer.length + (drained c).upstreamBuffer.length }.checkWatermarks,
        true) := by
  have hvalid : FilterChainState.draining ∈ c.currentState.validTransitions := by
    rw [hpaused]
    decide
  rw [FilterChainStateMachine.resume, if_neg (by simp [hpaused]), if_pos hheld, FilterChainStateMachine.transitionWith,
    if_neg (by simp [hpaused]), if_pos hvalid, FilterChainStateMachine.drainBuffers, if_neg (by
      show ¬ c.bufferedBytes = 0
      omega)]
  rfl

theorem resume_of_empty {c : FilterChainStateMachine σ} (hpaused : c.currentState = .paused)
    (hempty : c.bufferedBytes = 0) : c.resume = ({ c with currentState := .active }, true) := by
  have hvalid : FilterChainState.active ∈ c.currentState.validTransitions := by
    rw [hpaused]
    decide
  rw [FilterChainStateMachine.resume, if_neg (by simp [hpaused]), if_neg (by omega),
    FilterChainStateMachine.transitionTo_of_valid hvalid]

theorem settle_given (c : FilterChainStateMachine σ) (status : FilterStatus) :
    (c.settle status).readGiven = c.readGiven ∧ (c.settle status).writeGiven = c.writeGiven ∧
      (c.settle status).upstreamBuffer = c.upstreamBuffer := by
  unfold FilterChainStateMachine.settle FilterChainStateMachine.transitionTo FilterChainStateMachine.transitionWith
  cases status <;> (split_ifs <;> exact ⟨rfl, rfl, rfl⟩)

theorem transitionTo_given (c : FilterChainStateMachine σ) (state : FilterChainState) :
    (c.transitionTo state).1.readGiven = c.readGiven ∧ (c.transitionTo state).1.writeGiven = c.writeGiven ∧
      (c.transitionTo state).1.upstreamBuffer = c.upstreamBuffer := by
  unfold FilterChainStateMachine.transitionTo FilterChainStateMachine.transitionWith
  split_ifs <;> exact ⟨rfl, rfl, rfl⟩

theorem drainDownstream_given (c : FilterChainStateMachine σ) :
    c.drainDownstream.readGiven = c.readGiven ++ c.downstreamBuffer ∧ c.drainDownstream.writeGiven = c.writeGiven ∧
      c.drainDownstream.upstreamBuffer = c.upstreamBuffer := by
  obtain ⟨hread, hwrite, hup⟩ := transitionTo_given c .iteratingRead
  unfold FilterChainStateMachine.drainDownstream
  split_ifs with hnone
  · simp [hnone]
  · simp only [FilterChainStateMachine.iterateReadFilters, settle_given, hread, hwrite, hup, and_self]

theorem drainUpstream_given (c : FilterChainStateMachine σ) :
    c.drainUpstream.readGiven = c.readGiven ∧ c.drainUpstream.writeGiven = c.writeGiven ++ c.upstreamBuffer := by
  obtain ⟨hread, hwrite, hup⟩ := transitionTo_given c .iteratingWrite
  unfold FilterChainStateMachine.drainUpstream
  split_ifs with hnone
  · simp [hnone]
  · simp only [FilterChainStateMachine.iterateWriteFilters, settle_given, hread, hwrite, and_self]

theorem drained_given (c : FilterChainStateMachine σ) :
    (drained c).readGiven = c.readGiven ++ c.downstreamBuffer ∧
      (drained c).writeGiven = c.writeGiven ++ c.upstreamBuffer := by
  obtain ⟨hread, hwrite, hup⟩ := drainDownstream_given { c with currentState := .draining }
  obtain ⟨hread', hwrite'⟩ := drainUpstream_given { c with currentState := .draining }.drainDownstream
  rw [drained, hread', hwrite', hread, hwrite, hup]
  exact ⟨rfl, rfl⟩

/-- Whatever is held is given to the filters, the old with the new. -/
theorem resume_given {c : FilterChainStateMachine σ} (hpaused : c.currentState = .paused)
    (hcounted : c.bufferedBytes = c.downstreamBuffer.length + c.upstreamBuffer.length) :
    c.resume.2 = true ∧ c.resume.1.readGiven = c.readGiven ++ c.downstreamBuffer ∧
      c.resume.1.writeGiven = c.writeGiven ++ c.upstreamBuffer := by
  by_cases hheld : 0 < c.bufferedBytes
  · obtain ⟨hread, hwrite⟩ := drained_given c
    rw [resume_of_held hpaused hheld]
    obtain ⟨state, above, applied, hchecked, -, -⟩ := FilterChainStateMachine.checkWatermarks_eq
      { drained c with
        bufferedBytes := (drained c).downstreamBuffer.length + (drained c).upstreamBuffer.length }
    simp only [hchecked]
    exact ⟨trivial, hread, hwrite⟩
  · have hdown : c.downstreamBuffer = [] := List.eq_nil_of_length_eq_zero (by omega)
    have hup : c.upstreamBuffer = [] := List.eq_nil_of_length_eq_zero (by omega)
    rw [resume_of_empty hpaused (by omega), hdown, hup]
    simp

/-- Only a chain that is paused is resumed. -/
theorem not_resume {c : FilterChainStateMachine σ} (hother : c.currentState ≠ .paused) : c.resume = (c, false) := by
  rw [FilterChainStateMachine.resume, if_pos hother]

/-- Nothing from the peer held, the chain goes on if its write filters let through what is held. -/
theorem drained_upstream {c : FilterChainStateMachine σ} (hdown : c.downstreamBuffer = [])
    (hup : c.upstreamBuffer ≠ []) (hfirst : c.writeFilterIndex = 0) :
    ((drained c).currentState =
      if (iterateFilters false c.writeFilters 0 c.kept c.upstreamBuffer).status = .continue then .active
      else .draining) ∧
    (drained c).downstreamBuffer = [] ∧ (drained c).readFilterIndex = c.readFilterIndex ∧
    (drained c).writeFilterIndex = (iterateFilters false c.writeFilters 0 c.kept c.upstreamBuffer).index ∧
    (drained c).config = c.config ∧ (drained c).aboveHighWatermark = c.aboveHighWatermark ∧
    (drained c).backpressureApplied = c.backpressureApplied := by
  have hinvalid : FilterChainState.iteratingWrite ∉ FilterChainState.draining.validTransitions := by decide
  have hstop : FilterChainState.stoppedIteration ∉ FilterChainState.draining.validTransitions := by decide
  have hgoOn : FilterChainState.active ∈ FilterChainState.draining.validTransitions := by decide
  rw [drained, FilterChainStateMachine.drainDownstream, if_pos hdown, FilterChainStateMachine.drainUpstream,
    if_neg hup, FilterChainStateMachine.iterateWriteFilters,
    FilterChainStateMachine.transitionTo_of_invalid (by simp) hinvalid]
  simp only [hfirst, List.drop_zero]
  cases hstatus : (iterateFilters false c.writeFilters 0 c.kept c.upstreamBuffer).status with
  | «continue» =>
      rw [FilterChainStateMachine.settle, FilterChainStateMachine.transitionTo_of_valid hgoOn, if_pos rfl]
      exact ⟨rfl, hdown, rfl, rfl, rfl, rfl, rfl⟩
  | stopIteration =>
      rw [FilterChainStateMachine.settle, FilterChainStateMachine.transitionTo_of_invalid (by simp) hstop,
        if_neg (by decide)]
      exact ⟨rfl, hdown, rfl, rfl, rfl, rfl, rfl⟩

/-- A quiet pause that began with nothing held holds what came to be written. -/
theorem Holding.of_quiet {c : FilterChainStateMachine σ} {p : ChainPause} (h : Holding c p) (hzero : p.held = 0)
    (hquiet : ChainPause.Quiet c.config.highWatermark p.arrivals) :
    c.currentState = .paused ∧ c.downstreamBuffer = [] ∧ c.upstreamBuffer = ChainPause.along false p.arrivals := by
  have hpaused : c.currentState = .paused := (h.quiet hzero).mpr hquiet
  obtain ⟨down, up, hbefore, hheld⟩ := h.held
  obtain ⟨hdown, hup⟩ := hheld (by simp [hpaused])
  have hdown' : down = [] := List.eq_nil_of_length_eq_zero (by omega)
  have hup' : up = [] := List.eq_nil_of_length_eq_zero (by omega)
  rw [hdown', ChainPause.along_of_quiet hquiet] at hdown
  rw [hup'] at hup
  exact ⟨hpaused, hdown, hup⟩

/-- The end of a quiet pause with something held. -/
theorem Holding.running_of_held {c : FilterChainStateMachine σ} {p : ChainPause} (h : Holding c p) (hzero : p.held = 0)
    (hquiet : ChainPause.Quiet c.config.highWatermark p.arrivals) (hheld : 0 < c.bufferedBytes)
    (hthrough : LetThrough c.writeFilters c.kept c.upstreamBuffer) :
    c.resume.1.currentState = .active ∧ Running c.resume.1 := by
  obtain ⟨hpaused, hdown, hup⟩ := h.of_quiet hzero hquiet
  have hsome : c.upstreamBuffer ≠ [] := by
    intro hnone
    have hcounted := h.counted
    rw [hdown, hnone] at hcounted
    simp only [List.length_nil] at hcounted
    omega
  have hstatus := (status_eq_continue_iff c.writeFilters 0 c.kept c.upstreamBuffer).mpr hthrough
  obtain ⟨hstate, hempty, hread, hwrite, hconfig, habove, hflag⟩ := drained_upstream hdown hsome h.first.2
  rw [if_pos hstatus] at hstate
  let done : FilterChainStateMachine σ := { drained c with
    bufferedBytes := (drained c).downstreamBuffer.length + (drained c).upstreamBuffer.length }
  obtain ⟨state, above, applied, hchecked, hmoved, hflags⟩ := done.checkWatermarks_eq
  have hactive : state = .active := by
    obtain hsame | hother := hmoved
    · exact hsame.trans hstate
    · have hvalid : state ∈ (drained c).currentState.validTransitions := hother.2
      have hwatermark := hother.1
      rw [hstate] at hvalid
      simp only [List.mem_cons, List.not_mem_nil, or_false] at hwatermark
      obtain rfl | rfl := hwatermark
      · exact absurd hvalid (by decide)
      · exact absurd hvalid (by decide)
  have hbelow : done.aboveHighWatermark = false := habove.trans (h.below hzero (by simp [hpaused]))
  rw [resume_of_held hpaused hheld]
  show done.checkWatermarks.currentState = .active ∧ Running done.checkWatermarks
  have hcleared : done.bufferedBytes = 0 → above = false := by
    intro hnothing
    have hroom : 0 < c.config.highWatermark := by
      obtain hnone | hless := ChainPause.total_of_quiet hquiet
      · rw [hnone] at hup
        exact absurd hup hsome
      · omega
    have hlow : done.bufferedBytes < done.config.highWatermark := by
      rw [hnothing, show done.config = c.config from hconfig]
      exact hroom
    rw [FilterChainStateMachine.checkWatermarks_of_low hbelow hlow] at hchecked
    exact (congrArg FilterChainStateMachine.aboveHighWatermark hchecked).symm.trans hbelow
  have hsameFlags : done.backpressureApplied = done.aboveHighWatermark := hflag.trans (h.flags.trans habove.symm)
  rw [hchecked]
  refine ⟨hactive, rfl, hflags hsameFlags, Or.inl hactive, fun _ => ⟨?_, ?_⟩, hcleared⟩
  · exact hread.trans h.first.1
  · exact hwrite.trans (index_of_continue _ _ _ _ _ hstatus)

/-- **The end of a quiet pause.** -/
theorem Holding.resumes {c : FilterChainStateMachine σ} {p : ChainPause} (h : Holding c p) (hzero : p.held = 0)
    (hquiet : ChainPause.Quiet c.config.highWatermark p.arrivals)
    (hthrough : ChainPause.along false p.arrivals ≠ [] →
      LetThrough c.writeFilters c.kept (ChainPause.along false p.arrivals)) :
    (⟨c, some p⟩ : PausingChain σ).Resumes p ∧ Running c.resume.1 := by
  obtain ⟨hpaused, hdown, hup⟩ := h.of_quiet hzero hquiet
  obtain ⟨hsucceeds, hread, hwrite⟩ := resume_given hpaused h.counted
  rw [hdown] at hread
  rw [hup] at hwrite
  have hreads : c.resume.1.readGiven = c.readGiven ++ ChainPause.along true p.arrivals := by
    rw [hread, ChainPause.along_of_quiet hquiet]
  have hrunning : c.resume.1.currentState = .active ∧ Running c.resume.1 := by
    by_cases hheld : 0 < c.bufferedBytes
    · apply h.running_of_held hzero hquiet hheld
      rw [hup]
      apply hthrough
      intro hnone
      have hcounted := h.counted
      rw [hdown, hup, hnone] at hcounted
      simp only [List.length_nil] at hcounted
      omega
    · rw [resume_of_empty hpaused (by omega)]
      exact ⟨rfl, h.counted, h.flags, Or.inl rfl, fun _ => h.first, fun _ => h.below hzero (by simp [hpaused])⟩
  refine ⟨⟨hsucceeds, ?_, hreads, hwrite⟩, hrunning.2⟩
  show c.resume.1.currentState.canProcessData = true
  rw [hrunning.1]
  decide

/-- A pause that ends as it should was quiet. -/
theorem Holding.quiet_of_resumes {c : FilterChainStateMachine σ} {p : ChainPause} (h : Holding c p)
    (hresumes : (⟨c, some p⟩ : PausingChain σ).Resumes p) :
    p.held = 0 ∧ ChainPause.Quiet c.config.highWatermark p.arrivals ∧
      (ChainPause.along false p.arrivals ≠ [] →
        LetThrough c.writeFilters c.kept (ChainPause.along false p.arrivals)) := by
  have hpaused : c.currentState = .paused := by
    by_contra hother
    have hsucceeds : c.resume.2 = true := hresumes.succeeds
    rw [not_resume hother] at hsucceeds
    contradiction
  obtain ⟨-, hread, hwrite⟩ := resume_given hpaused h.counted
  have hdown : c.downstreamBuffer = ChainPause.along true p.arrivals :=
    List.append_cancel_left (hread.symm.trans hresumes.reads)
  have hup : c.upstreamBuffer = ChainPause.along false p.arrivals :=
    List.append_cancel_left (hwrite.symm.trans hresumes.writes)
  have hbytes := h.bufferedBytes (by simp [hpaused])
  have hzero : p.held = 0 := by
    have hcounted := h.counted
    rw [hdown, hup, hbytes, ChainPause.total_eq] at hcounted
    omega
  have hquiet := (h.quiet hzero).mp hpaused
  refine ⟨hzero, hquiet, ?_⟩
  intro hsome
  by_contra hstopped
  rw [← hup] at hsome hstopped
  rw [ChainPause.along_of_quiet hquiet] at hdown
  have hheld : 0 < c.bufferedBytes := by
    rw [h.counted]
    have hlength := List.length_pos_iff.mpr hsome
    omega
  obtain ⟨hstate, -⟩ := drained_upstream hdown hsome h.first.2
  rw [if_neg fun hgoOn => hstopped ((status_eq_continue_iff _ _ _ _).mp hgoOn)] at hstate
  have hprocesses : c.resume.1.currentState.canProcessData = true := hresumes.processes
  rw [resume_of_held hpaused hheld] at hprocesses
  obtain ⟨state, above, applied, hchecked, hmoved, -⟩ := FilterChainStateMachine.checkWatermarks_eq
    { drained c with
      bufferedBytes := (drained c).downstreamBuffer.length + (drained c).upstreamBuffer.length }
  simp only [hchecked] at hprocesses
  obtain hsame | hother := hmoved
  · rw [hsame.trans hstate] at hprocesses
    exact absurd hprocesses (by decide)
  · have hwatermark := hother.1
    simp only [List.mem_cons, List.not_mem_nil, or_false] at hwatermark
    obtain rfl | rfl := hwatermark
    · exact absurd hprocesses (by decide)
    · exact absurd hprocesses (by decide)

theorem sound_step {s : PausingChain σ} (h : s.Sound) {op : FilterChainOperation} (hfits : s.Fits op)
    (hquiet : s.EndsQuietly op) : (s.step op).Sound := by
  obtain ⟨c, pause⟩ := s
  obtain ⟨hnone, hrunning⟩ | ⟨p, hsome, hholding⟩ := h
  · obtain rfl : pause = none := hnone
    cases op with
    | pause => exact hrunning.pause
    | resume =>
        have hresume := Running.resume hrunning
        rw [step, hresume]
        exact Or.inl ⟨rfl, hrunning⟩
    | onData data endStream => exact Or.inl ⟨rfl, hrunning.onData data endStream⟩
    | onWrite data endStream => exact Or.inl ⟨rfl, hrunning.onWrite data endStream⟩
  · obtain rfl : pause = some p := hsome
    cases op with
    | pause =>
        have hpause := Holding.pause hholding
        rw [step, hpause]
        exact Or.inr ⟨p, rfl, hholding⟩
    | resume =>
        obtain ⟨hzero, hcalm, hthrough⟩ := hquiet rfl p rfl
        obtain ⟨hresumes, hrunning⟩ := hholding.resumes hzero hcalm hthrough
        have hsucceeds : c.resume.2 = true := hresumes.succeeds
        rw [step, hsucceeds]
        exact Or.inl ⟨rfl, hrunning⟩
    | onData data endStream => exact Or.inr ⟨_, rfl, hholding.onData (hfits p rfl) endStream⟩
    | onWrite data endStream => exact Or.inr ⟨_, rfl, hholding.onWrite (hfits p rfl) endStream⟩

theorem Sound.counted {s : PausingChain σ} (h : s.Sound) :
    s.chain.bufferedBytes = s.chain.downstreamBuffer.length + s.chain.upstreamBuffer.length := by
  obtain ⟨-, hrunning⟩ | ⟨p, -, hholding⟩ := h
  · exact hrunning.counted
  · exact hholding.counted

theorem undoes_iff {s : PausingChain σ} (h : s.Sound) {op : FilterChainOperation} (hfits : s.Fits op) :
    s.Undoes op ↔ s.EndsQuietly op := by
  constructor
  · intro hundoes hresume p hp
    obtain ⟨hnone, -⟩ | ⟨q, hq, hholding⟩ := h
    · rw [hnone] at hp
      contradiction
    · obtain rfl : q = p := Option.some.inj (hq.symm.trans hp)
      exact hholding.quiet_of_resumes { hundoes.2 hresume q hp with }
  · intro hquiet
    refine ⟨(sound_step h hfits hquiet).counted, ?_⟩
    intro hresume p hp
    obtain ⟨hzero, hcalm, hthrough⟩ := hquiet hresume p hp
    obtain ⟨hnone, -⟩ | ⟨q, hq, hholding⟩ := h
    · rw [hnone] at hp
      contradiction
    · obtain rfl : q = p := Option.some.inj (hq.symm.trans hp)
      exact { (hholding.resumes hzero hcalm hthrough).1 with }

/-- A chain whose filters take what they are given. -/
def takingChain : PausingChain Unit :=
  started ⟨100, 80, 20⟩ [fun kept _ _ => ⟨.continue, kept, []⟩] [fun kept _ _ => ⟨.continue, kept, []⟩] ()

end PausingChain

end GopherMcp
