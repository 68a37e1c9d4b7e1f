import GopherMcp.Filter.FilterManager
import GopherMcp.Network.ConnectionStateMachine

/-!
# The end of the stream

The read filters of a connection whose peer will send no more are told so with what is left of the data. The
iteration is over where a filter stopped it or left nothing, and the connection is closed where it came to the end
of the chain: so a filter that takes everything keeps the end of the stream from those behind it, and the close from
the connection.
-/

namespace GopherMcp

/-- What a filter did: whether it goes on, what it and its neighbours keep now, and what it left of the data. -/
structure FilterResult (σ : Type) where
  status : FilterStatus
  kept : σ
  left : Bytes

/-- A read filter is what it does with the data and the end of the stream, by what is kept. -/
structure ReadFilter (σ : Type) where
  onData : σ → Bytes → Bool → FilterResult σ

/-- A connection as its filter manager sees it, with what the filters keep. Beside it are kept the filters that were
given data, with whether the stream was at its end, and the closes asked for. -/
structure FilterManagerConnection (σ : Type) where
  initialized : Bool
  readBuffer : Bytes
  readHalfClosed : Bool
  kept : σ
  called : List (Nat × Bool)
  closed : List ConnectionCloseType

/-- An iteration that is over: the last status, what of the chain it did not come past, and the connection. -/
structure ReadIteration (σ : Type) where
  status : FilterStatus
  current : List (ReadFilter σ)
  connection : FilterManagerConnection σ

namespace FilterManagerConnection

variable {σ : Type}

/-- The filter at a position is given the data. -/
def give (c : FilterManagerConnection σ) (filter : ReadFilter σ) (entry : Nat) (endStream : Bool) :
    FilterManagerConnection σ :=
  let result := filter.onData c.kept c.readBuffer endStream
  { c with
    readBuffer := result.left
    kept := result.kept
    called := c.called ++ [(entry, endStream)] }

/-- The loop of `onContinueReading`, from a position on. -/
def iterate (endStream : Bool) : List (ReadFilter σ) → Nat → FilterManagerConnection σ → ReadIteration σ
  | [], _, c => ⟨.continue, [], c⟩
  | filter :: rest, entry, c =>
      let result := filter.onData c.kept c.readBuffer endStream
      if result.status = .stopIteration ∨ result.left = [] then
        ⟨result.status, filter :: rest, c.give filter entry endStream⟩
      else iterate endStream rest (entry + 1) (c.give filter entry endStream)

def close (c : FilterManagerConnection σ) (type : ConnectionCloseType) : FilterManagerConnection σ :=
  { c with closed := c.closed ++ [type] }

def onContinueReading (filters : List (ReadFilter σ)) (entry : Nat) (endStream : Bool)
    (c : FilterManagerConnection σ) : FilterStatus × FilterManagerConnection σ :=
  if filters = [] then (.stopIteration, c)
  else
    let done := iterate endStream filters entry c
    (done.status, if endStream ∧ done.current = [] then done.connection.close .flushWrite else done.connection)

def onRead (filters : List (ReadFilter σ)) (c : FilterManagerConnection σ) : FilterManagerConnection σ :=
  if c.initialized then (onContinueReading filters 0 c.readHalfClosed c).2 else c

/-- Every filter is told of the end of the stream, and then the connection is closed when what is pending has been
written. -/
def EndsStream (filters : List (ReadFilter σ)) (c : FilterManagerConnection σ) : Prop :=
  (onRead filters c).called = c.called ++ (List.range filters.length).map (·, true) ∧
    (onRead filters c).closed = c.closed ++ [.flushWrite]

/-- Each filter leaves something of what the ones before it left. -/
def LeavesSome : List (ReadFilter σ) → σ → Bytes → Prop
  | [], _, _ => True
  | filter :: rest, kept, buffer =>
      let result := filter.onData kept buffer true
      result.left ≠ [] ∧ LeavesSome rest result.kept result.left

/-! ### The loop -/

/-- All filters go on. -/
def Continuing (filters : List (ReadFilter σ)) : Prop :=
  ∀ filter ∈ filters, ∀ kept buffer endStream, (filter.onData kept buffer endStream).status = .continue

variable {filters : List (ReadFilter σ)}

theorem iterate_closed (endStream : Bool) (filters : List (ReadFilter σ)) (entry : Nat)
    (c : FilterManagerConnection σ) :
    (iterate endStream filters entry c).connection.closed = c.closed := by
  induction filters generalizing entry c with
  | nil => rfl
  | cons filter rest ih =>
      rw [iterate]
      split_ifs
      · rfl
      · rw [ih]
        rfl

/-- Filters that go on and leave something are all come past. -/
theorem iterate_of_leavesSome (hgoOn : Continuing filters) (entry : Nat) (c : FilterManagerConnection σ)
    (hleaves : LeavesSome filters c.kept c.readBuffer) :
    (iterate true filters entry c).current = [] ∧
      (iterate true filters entry c).connection.called =
        c.called ++ (List.range' entry filters.length).map (·, true) := by
  induction filters generalizing entry c with
  | nil => simp [iterate]
  | cons filter rest ih =>
      obtain ⟨hleft, hrest⟩ := hleaves
      have hcontinue := hgoOn filter List.mem_cons_self c.kept c.readBuffer true
      have hbehind : Continuing rest := fun other hother => hgoOn other (List.mem_cons_of_mem _ hother)
      have hnot : ¬ ((filter.onData c.kept c.readBuffer true).status = .stopIteration ∨
          (filter.onData c.kept c.readBuffer true).left = []) := by
        rw [hcontinue]
        simpa using hleft
      rw [iterate, if_neg hnot]
      obtain ⟨hpast, hcalled⟩ := ih hbehind (entry + 1) (c.give filter entry true) hrest
      refine ⟨hpast, ?_⟩
      rw [hcalled]
      show c.called ++ [(entry, true)] ++ _ = _
      rw [List.append_assoc]
      rfl

/-- The end of the chain is come to only past filters that leave something. -/
theorem leavesSome_of_iterate (entry : Nat) (c : FilterManagerConnection σ)
    (hpast : (iterate true filters entry c).current = []) : LeavesSome filters c.kept c.readBuffer := by
  induction filters generalizing entry c with
  | nil => trivial
  | cons filter rest ih =>
      rw [iterate] at hpast
      split_ifs at hpast with hstop
      exact ⟨fun hempty => hstop (Or.inr hempty), ih (entry + 1) (c.give filter entry true) hpast⟩

/-- **The end of the stream.** It reaches all of a chain that goes on, and closes the connection, exactly if there is
a filter and none leaves the buffer empty. -/
theorem endsStream_iff {c : FilterManagerConnection σ} (hinitialized : c.initialized = true)
    (hend : c.readHalfClosed = true) (hgoOn : Continuing filters) :
    EndsStream filters c ↔ filters ≠ [] ∧ LeavesSome filters c.kept c.readBuffer := by
  have hread : onRead filters c = (onContinueReading filters 0 true c).2 := by
    rw [onRead, if_pos hinitialized, hend]
  rw [EndsStream, hread, onContinueReading]
  by_cases hnone : filters = []
  · simp [hnone]
  · rw [if_neg hnone]
    by_cases hpast : (iterate true filters 0 c).current = []
    · have hleaves := leavesSome_of_iterate 0 c hpast
      obtain ⟨-, hcalled⟩ := iterate_of_leavesSome hgoOn 0 c hleaves
      simp only [hpast, and_self, if_true, close, hcalled, iterate_closed, List.range_eq_range', hnone, hleaves, ne_eq,
        not_false_eq_true]
    · have hempties : ¬ LeavesSome filters c.kept c.readBuffer := fun hleaves =>
        hpast (iterate_of_leavesSome hgoOn 0 c hleaves).1
      simp [hpast, hempties, iterate_closed]

/-! ### The manager's steps -/

/-- What the filters return one after another, as far as the iteration comes. -/
def returns (endStream : Bool) : List (ReadFilter σ) → Nat → FilterManagerConnection σ → List FilterOp
  | [], _, _ => []
  | filter :: rest, entry, c =>
      let result := filter.onData c.kept c.readBuffer endStream
      .return result.status result.left ::
        if result.status = .stopIteration ∨ result.left = [] then []
        else returns endStream rest (entry + 1) (c.give filter entry endStream)

/-- **Refinement.** The iteration is what the manager does when its filters return that: it calls the same filters, and
comes to the end of the chain when the iteration does. -/
theorem run_returns (endStream : Bool) (hsome : filters ≠ []) (entry : Nat) (c : FilterManagerConnection σ)
    {s : FilterManager} {promised : Option Nat} {completed : List (Nat × Bool)}
    (hframes : s.frames = [⟨.reading, promised, completed, entry⟩]) (hcount : s.count = entry + filters.length)
    (hcalled : s.called = c.called.map Prod.fst ++ [entry]) :
    (Runs.run FilterManager.step s (returns endStream filters entry c)).called =
        (iterate endStream filters entry c).connection.called.map Prod.fst ∧
      ((Runs.run FilterManager.step s (returns endStream filters entry c)).currentReadFilter = s.count ↔
        (iterate endStream filters entry c).current = []) := by
  induction filters generalizing entry c s completed with
  | nil => contradiction
  | cons filter rest ih =>
      have hgiven : (c.give filter entry endStream).called.map Prod.fst = s.called := by
        rw [hcalled]
        exact List.map_append
      let result := filter.onData c.kept c.readBuffer endStream
      let frame : FilterFrame := ⟨.reading, promised, completed, entry⟩
      let back := s.giveBack frame result.status result.left
      rw [List.length_cons] at hcount
      have hstep : s.step (.return result.status result.left) =
          if result.status = .stopIteration ∨ result.left = [] then back.leave frame [] false entry
          else if entry + 1 < s.count then back.goOn frame [] else back.leave frame [] true s.count := by
        rw [FilterManager.step, FilterManager.onReturn, hframes]
      rw [returns, iterate, Runs.run_cons, hstep]
      by_cases hstop : result.status = .stopIteration ∨ result.left = []
      · rw [if_pos hstop, if_pos hstop, if_pos hstop]
        refine ⟨hgiven.symm, ?_⟩
        have hbefore : entry ≠ s.count := by omega
        simpa [FilterManager.leave] using hbefore
      · rw [if_neg hstop, if_neg hstop, if_neg hstop]
        by_cases hnext : entry + 1 < s.count
        · rw [if_pos hnext]
          have hrest : rest ≠ [] := by
            intro hnone
            simp only [hnone, List.length_nil] at hcount
            omega
          have hbehind : s.count = entry + 1 + rest.length := by omega
          have hcalled' : (back.goOn frame []).called =
              (c.give filter entry endStream).called.map Prod.fst ++ [entry + 1] := by
            rw [hgiven]
            rfl
          exact ih hrest (entry + 1) (c.give filter entry endStream) rfl hbehind hcalled'
        · rw [if_neg hnext]
          have hnone : rest = [] := by
            apply List.eq_nil_of_length_eq_zero
            omega
          subst hnone
          exact ⟨hgiven.symm, iff_of_true rfl rfl⟩

/-- Takes all it is given, or nothing of it. -/
def taker : ReadFilter Unit := ⟨fun kept _ _ => ⟨.continue, kept, []⟩⟩

def looker : ReadFilter Unit := ⟨fun kept buffer _ => ⟨.continue, kept, buffer⟩⟩

/-- A connection whose peer has sent its last bytes. -/
def ending (readBuffer : Bytes) : FilterManagerConnection Unit := ⟨true, readBuffer, true, (), [], []⟩

theorem endsStream_iff_looker :
    EndsStream [looker, looker] (ending [1]) ↔
      [looker, looker] ≠ [] ∧ LeavesSome [looker, looker] () [1] := by
  apply endsStream_iff
  · rfl
  · rfl
  · intro filter hfilter
    simp only [List.mem_cons, List.not_mem_nil, or_false, or_self] at hfilter
    subst hfilter
    exact fun _ _ _ => rfl

/-- The first filter takes the last bytes: the second is not told, and nothing is closed. -/
theorem not_endsStream_taker : ¬ EndsStream [taker, looker] (ending [1]) := by
  intro h
  exact absurd h.2 (by decide)

end FilterManagerConnection

end GopherMcp
