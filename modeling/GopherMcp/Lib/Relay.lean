import Mathlib.Data.List.Basic

/-!
# A relay

A thread that copies what comes from a source to a sink, through a buffer of its own. It looks at a flag at the head
of its outer loop, where its buffer is empty, and at the head of the inner loop that writes the buffer out, and it
leaves when it finds the flag lowered. The kernel's answers are part of each move. What was read goes to the sink
once and in order unless the relay gives up its buffer, which it does when it finds the flag lowered in the inner loop
and when a write does not succeed.
-/

/-- Where the thread is: `offering` is the head of the inner loop, with what is left of the buffer. -/
inductive Relay.Phase (α : Type)
  | checking
  | waiting
  | reading
  | offering (rest : List α)
  | writing (rest : List α)
  | left

/-- `source` is what waits to be read, `sink` what was written. -/
structure Relay (α : Type) where
  phase : Relay.Phase α
  source : List α
  sink : List α

namespace Relay

variable {α : Type}

inductive WaitAnswer
  | ready | timeout | interrupted | failed
  deriving DecidableEq

inductive ReadAnswer
  | bytes (n : Nat) | endOfInput | again | interrupted | failed
  deriving DecidableEq

inductive WriteAnswer
  | bytes (n : Nat) | again | interrupted | failed
  deriving DecidableEq

inductive Move
  | check
  | wait (answer : WaitAnswer)
  | read (answer : ReadAnswer)
  | write (answer : WriteAnswer)
  deriving DecidableEq

def Phase.rest : Phase α → List α
  | .offering rest | .writing rest => rest
  | _ => []

/-- Written, in the buffer, and still to be read. -/
def flow (r : Relay α) : List α := r.sink ++ r.phase.rest ++ r.source

/-! ### Moves -/

/-- The flag is read at the head of both loops; the inner one asks first whether anything is left. -/
def check (r : Relay α) (running : Bool) : Relay α :=
  match r.phase with
  | .checking => { r with phase := if running then .waiting else .left }
  | .offering rest => { r with phase := if rest.isEmpty || !running then .checking else .writing rest }
  | _ => r

/-- Only an interrupted wait is tried again. -/
def wait (r : Relay α) (answer : WaitAnswer) : Relay α :=
  match r.phase, answer with
  | .waiting, .ready => { r with phase := .reading }
  | .waiting, .timeout | .waiting, .interrupted => { r with phase := .checking }
  | .waiting, .failed => { r with phase := .left }
  | _, _ => r

/-- A read is for `size` at most. The end of the input, and any error but `EAGAIN`, ends the outer loop. -/
def read (size : Nat) (r : Relay α) (answer : ReadAnswer) : Relay α :=
  match r.phase, answer with
  | .reading, .bytes n =>
      if 0 < n ∧ n ≤ size then { r with phase := .offering (r.source.take n), source := r.source.drop n } else r
  | .reading, .again => { r with phase := .checking }
  | .reading, .endOfInput | .reading, .interrupted | .reading, .failed => { r with phase := .left }
  | _, _ => r

/-- Any error but `EAGAIN` lowers the flag, which ends both loops. -/
def write (running : Bool) (r : Relay α) (answer : WriteAnswer) : Relay α × Bool :=
  match r.phase, answer with
  | .writing rest, .bytes n => ({ r with phase := .offering (rest.drop n), sink := r.sink ++ rest.take n }, running)
  | .writing rest, .again => ({ r with phase := .offering rest }, running)
  | .writing _, .interrupted | .writing _, .failed => ({ r with phase := .checking }, false)
  | _, _ => (r, running)

/-- A move of the relay, with the flag as it leaves it. -/
def step (size : Nat) (running : Bool) (r : Relay α) : Move → Relay α × Bool
  | .check => (r.check running, running)
  | .wait answer => (r.wait answer, running)
  | .read answer => (r.read size answer, running)
  | .write answer => r.write running answer

/-! ### What a move does -/

/-- A wait, a read or a write fails, other than by being interrupted. -/
def Move.failed : Move → Bool
  | .wait .failed | .read .failed | .write .failed => true
  | _ => false

/-- A read or a write is interrupted by a signal. -/
def Move.interrupted : Move → Bool
  | .read .interrupted | .write .interrupted => true
  | _ => false

def Move.undisturbed (move : Move) : Bool := !move.failed && !move.interrupted

/-- At the head of a loop, where the relay leaves the loop if the flag is lowered. -/
def Phase.looks : Phase α → Bool
  | .checking => true
  | .offering rest => !rest.isEmpty
  | _ => false

variable {r : Relay α} {size : Nat} {running : Bool}

/-- What an undisturbed move can do to what is in the relay. -/
inductive Moved (r : Relay α) (running : Bool) (move : Move) (t : Relay α) : Prop
  /-- It goes on with all it has. -/
  | on (hflow : t.flow = r.flow) (hsink : r.sink <+: t.sink) (hleft : t.phase = .left ↔ r.phase = .left)
  /-- Its source has ended. -/
  | ended (hmove : move = .read .endOfInput) (hphase : r.phase = .reading) (ht : t = { r with phase := .left })
  /-- It finds the flag lowered, and leaves the loop it is in. -/
  | stopped (hmove : move = .check) (hflag : running = false) (hlooks : r.phase.looks = true)
      (hphase : t.phase = .checking ∨ t.phase = .left) (hsink : t.sink = r.sink)

theorem moved_check (r : Relay α) (running : Bool) : r.Moved running .check (r.check running) := by
  unfold check
  split
  · rename_i hphase
    cases running with
    | true => exact .on (by simp [flow, hphase, Phase.rest]) (List.prefix_refl _) (by simp [hphase])
    | false =>
        exact .stopped rfl rfl (by simp [hphase, Phase.looks]) (Or.inr rfl) rfl
  · rename_i rest hphase
    cases rest with
    | nil => exact .on (by simp [flow, hphase, Phase.rest]) (List.prefix_refl _) (by simp [hphase])
    | cons byte rest =>
        cases running with
        | true => exact .on (by simp [flow, hphase, Phase.rest]) (List.prefix_refl _) (by simp [hphase])
        | false =>
            exact .stopped rfl rfl (by simp [hphase, Phase.looks]) (Or.inl rfl) rfl
  · exact .on rfl (List.prefix_refl _) Iff.rfl

theorem moved_read (size : Nat) (r : Relay α) (running : Bool) (answer : ReadAnswer)
    (hundisturbed : (Move.read answer).undisturbed = true) :
    r.Moved running (.read answer) (r.read size answer) := by
  unfold read
  split
  · rename_i n hphase
    split_ifs
    · refine .on ?_ (List.prefix_refl _) (by simp [hphase])
      simp [flow, hphase, Phase.rest]
    · exact .on rfl (List.prefix_refl _) Iff.rfl
  · rename_i hphase
    exact .on (by simp [flow, hphase, Phase.rest]) (List.prefix_refl _) (by simp [hphase])
  · exact .ended rfl ‹_› rfl
  · cases hundisturbed
  · cases hundisturbed
  · exact .on rfl (List.prefix_refl _) Iff.rfl

theorem moved (size : Nat) (running : Bool) (r : Relay α) (move : Move) (hundisturbed : move.undisturbed = true) :
    r.Moved running move (r.step size running move).1 := by
  cases move with
  | check => exact moved_check r running
  | read answer => exact moved_read size r running answer hundisturbed
  | wait answer =>
      dsimp only [step, wait]
      split
      · exact .on (by simp [flow, *, Phase.rest]) (List.prefix_refl _) (by simp [*])
      · exact .on (by simp [flow, *, Phase.rest]) (List.prefix_refl _) (by simp [*])
      · exact .on (by simp [flow, *, Phase.rest]) (List.prefix_refl _) (by simp [*])
      · cases hundisturbed
      · exact .on rfl (List.prefix_refl _) Iff.rfl
  | write answer =>
      dsimp only [step, write]
      split
      · refine .on ?_ (List.prefix_append _ _) (by simp [*])
        simp [flow, *, Phase.rest]
      · exact .on (by simp [flow, *, Phase.rest]) (List.prefix_refl _) (by simp [*])
      · cases hundisturbed
      · cases hundisturbed
      · exact .on rfl (List.prefix_refl _) Iff.rfl

theorem Moved.prefix_sink {move : Move} {t : Relay α} (h : r.Moved running move t) : r.sink <+: t.sink := by
  cases h with
  | on _ hsink _ => exact hsink
  | ended _ _ ht => exact ht ▸ List.prefix_refl r.sink
  | stopped _ _ _ _ hsink => exact hsink ▸ List.prefix_refl t.sink

/-- A relay that has left does nothing more. -/
theorem step_of_left (size : Nat) (running : Bool) (move : Move) (hleft : r.phase = .left) :
    r.step size running move = (r, running) := by
  cases move <;> simp [step, check, wait, read, write, hleft]

theorem running_of_undisturbed (size : Nat) (running : Bool) (r : Relay α) {move : Move}
    (hundisturbed : move.undisturbed = true) : (r.step size running move).2 = running := by
  cases move with
  | check | wait answer | read answer => rfl
  | write answer =>
      dsimp only [step, write]
      split <;> first | rfl | cases hundisturbed

/-! ### What was given to a relay -/

/-- It has all it was given, or it has found the flag lowered and goes no further. -/
def Holds (given : List α) (running : Bool) (r : Relay α) : Prop :=
  r.flow = given ∨ running = false ∧ (r.phase = .checking ∨ r.phase = .left) ∧ r.sink <+: given

variable {given : List α}

/-- Nothing is written twice or out of order. -/
theorem Holds.prefix_sink (h : r.Holds given running) : r.sink <+: given := by
  rcases h with hflow | ⟨-, -, hsink⟩
  · rw [← hflow, flow, List.append_assoc]
    exact List.prefix_append _ _
  · exact hsink

theorem flow_feed (r : Relay α) (more : List α) :
    ({ r with source := r.source ++ more } : Relay α).flow = r.flow ++ more := by
  simp [flow]

theorem Holds.feed (h : r.Holds given running) (more : List α) :
    ({ r with source := r.source ++ more } : Relay α).Holds (given ++ more) running := by
  rcases h with hflow | ⟨hflag, hphase, hsink⟩
  · exact Or.inl ((r.flow_feed more).trans (congrArg (· ++ more) hflow))
  · exact Or.inr ⟨hflag, hphase, hsink.trans (List.prefix_append _ _)⟩

theorem Holds.lowered (h : r.Holds given running) : r.Holds given false := by
  rcases h with hflow | ⟨-, hstopped⟩
  · exact Or.inl hflow
  · exact Or.inr ⟨rfl, hstopped⟩

/-- A relay that has found the flag lowered only leaves. -/
theorem stays_stopped (size : Nat) (move : Move) (hphase : r.phase = .checking ∨ r.phase = .left) :
    ((r.step size false move).1.phase = .checking ∨ (r.step size false move).1.phase = .left) ∧
      (r.step size false move).1.sink = r.sink := by
  rcases hphase with hphase | hphase <;> cases move <;> simp [step, check, wait, read, write, hphase]

theorem Holds.step (h : r.Holds given running) (size : Nat) {move : Move} (hundisturbed : move.undisturbed = true) :
    (r.step size running move).1.Holds given running := by
  rcases h with hflow | ⟨rfl, hphase, hsink⟩
  · cases r.moved size running move hundisturbed with
    | on hsame _ _ => exact Or.inl (hsame.trans hflow)
    | ended _ hreading ht =>
        refine Or.inl ?_
        rw [ht, ← hflow]
        simp [flow, hreading, Phase.rest]
    | stopped _ hflag _ hphase hsame =>
        have hstart : r.Holds given running := Or.inl hflow
        exact Or.inr ⟨hflag, hphase, hsame ▸ hstart.prefix_sink⟩
  · obtain ⟨hstays, hsame⟩ := stays_stopped size move hphase
    exact Or.inr ⟨rfl, hstays, hsame ▸ hsink⟩

end Relay
