import Mathlib.Data.List.Basic

/-!
# Computations with a log

A computation writes a log and ends with a value or an error; it is none where it has not enough fuel to end. What is
proved of one is that it ends, that every entry of its log is in order, and that so is its value: for computations in
sequence from the one to the other, and for a loop from an invariant of its turns.
-/

structure Logged (ω ε α : Type) where
  log : List ω
  outcome : Except ε α

namespace Logged

variable {ω ω' ε α β σ : Type}

def ret (value : α) : Option (Logged ω ε α) := some ⟨[], .ok value⟩

def fail (error : ε) : Option (Logged ω ε α) := some ⟨[], .error error⟩

/-- An entry before those of the computation. -/
def emit (entry : ω) (x : Option (Logged ω ε α)) : Option (Logged ω ε α) :=
  x.map fun run => ⟨entry :: run.log, run.outcome⟩

/-- An error ends the sequence. -/
def andThen (x : Option (Logged ω ε α)) (f : α → Option (Logged ω ε β)) : Option (Logged ω ε β) :=
  x.bind fun first =>
    match first.outcome with
    | .error error => some ⟨first.log, .error error⟩
    | .ok value => (f value).map fun second => ⟨first.log ++ second.log, second.outcome⟩

def relabel (f : ω → ω') (x : Option (Logged ω ε α)) : Option (Logged ω' ε α) :=
  x.map fun run => ⟨run.log.map f, run.outcome⟩

/-- A value in place of an error. -/
def recover (x : Option (Logged ω ε α)) (value : α) : Option (Logged ω ε α) :=
  x.map fun run =>
    match run.outcome with
    | .error _ => ⟨run.log, .ok value⟩
    | .ok _ => run

def forEach (turn : β → σ → Option (Logged ω ε σ)) : List β → σ → Option (Logged ω ε σ)
  | [], s => ret s
  | item :: rest, s => andThen (turn item s) (forEach turn rest)

/-! ### What is met -/

/-- It ends, with every entry in order, and with a value, if it has one, that is. -/
def Meets (entries : ω → Prop) (values : α → Prop) (x : Option (Logged ω ε α)) : Prop :=
  ∃ run, x = some run ∧ (∀ entry ∈ run.log, entries entry) ∧ ∀ value, run.outcome = .ok value → values value

variable {P Q : ω → Prop} {I J : α → Prop} {x : Option (Logged ω ε α)}

theorem meets_ret {value : α} (h : I value) : Meets P I (ret (ε := ε) value) := by
  refine ⟨_, rfl, ?_, ?_⟩
  · intro entry hentry
    cases hentry
  · rintro _ ⟨⟩
    exact h

theorem meets_fail (error : ε) : Meets P I (fail error : Option (Logged ω ε α)) := by
  refine ⟨_, rfl, ?_, ?_⟩
  · intro entry hentry
    cases hentry
  · rintro _ ⟨⟩

theorem Meets.mono (h : Meets P I x) (hentries : ∀ entry, P entry → Q entry) (hvalues : ∀ value, I value → J value) :
    Meets Q J x := by
  obtain ⟨run, hrun, hlog, houtcome⟩ := h
  exact ⟨run, hrun, fun entry hentry => hentries entry (hlog entry hentry),
    fun value hvalue => hvalues value (houtcome value hvalue)⟩

theorem Meets.emit {entry : ω} (h : Meets P I x) (hentry : P entry) : Meets P I (emit entry x) := by
  obtain ⟨run, rfl, hlog, houtcome⟩ := h
  exact ⟨_, rfl, List.forall_mem_cons.mpr ⟨hentry, hlog⟩, houtcome⟩

theorem Meets.andThen {K : β → Prop} {f : α → Option (Logged ω ε β)} (h : Meets P I x)
    (hf : ∀ value, I value → Meets P K (f value)) : Meets P K (andThen x f) := by
  obtain ⟨first, rfl, hlog, houtcome⟩ := h
  cases hfirst : first.outcome with
  | error error =>
      refine ⟨⟨first.log, .error error⟩, ?_, hlog, ?_⟩
      · simp only [Logged.andThen, Option.bind_some, hfirst]
      · rintro _ ⟨⟩
  | ok value =>
      obtain ⟨second, hsecond, hrest, hvalue⟩ := hf value (houtcome value hfirst)
      refine ⟨⟨first.log ++ second.log, second.outcome⟩, ?_, ?_, hvalue⟩
      · simp only [Logged.andThen, Option.bind_some, hfirst, hsecond, Option.map_some]
      · exact List.forall_mem_append.mpr ⟨hlog, hrest⟩

theorem Meets.relabel {R : ω' → Prop} {f : ω → ω'} (h : Meets P I x) (hf : ∀ entry, P entry → R (f entry)) :
    Meets R I (relabel f x) := by
  obtain ⟨run, rfl, hlog, houtcome⟩ := h
  refine ⟨_, rfl, ?_, houtcome⟩
  rw [List.forall_mem_map]
  exact fun entry hentry => hf entry (hlog entry hentry)

theorem Meets.recover {value : α} (h : Meets P I x) (hvalue : I value) : Meets P I (recover x value) := by
  obtain ⟨run, rfl, hlog, houtcome⟩ := h
  cases hrun : run.outcome with
  | error error =>
      refine ⟨⟨run.log, .ok value⟩, ?_, hlog, ?_⟩
      · simp only [Logged.recover, Option.map_some, hrun]
      · rintro _ ⟨⟩
        exact hvalue
  | ok result =>
      refine ⟨run, ?_, hlog, houtcome⟩
      simp only [Logged.recover, Option.map_some, hrun]

/-- What every turn keeps a loop keeps. -/
theorem meets_forEach {K : σ → Prop} {turn : β → σ → Option (Logged ω ε σ)} {items : List β} {s : σ} (hs : K s)
    (hturn : ∀ item ∈ items, ∀ s, K s → Meets P K (turn item s)) : Meets P K (forEach turn items s) := by
  induction items generalizing s with
  | nil => exact meets_ret hs
  | cons item rest ih =>
      rw [List.forall_mem_cons] at hturn
      exact (hturn.1 s hs).andThen fun t ht => ih ht hturn.2

/-! ### More fuel -/

/-- Where the one ends, so does the other, in the same way. -/
def Refines (x y : Option (Logged ω ε α)) : Prop := ∀ run, x = some run → y = some run

variable {y : Option (Logged ω ε α)}

theorem Refines.refl (x : Option (Logged ω ε α)) : Refines x x := fun _ h => h

theorem Refines.emit (h : Refines x y) (entry : ω) : Refines (emit entry x) (emit entry y) := by
  intro run hrun
  obtain ⟨inner, hinner, rfl⟩ := Option.map_eq_some_iff.mp hrun
  rw [Logged.emit, h inner hinner, Option.map_some]

theorem Refines.relabel (h : Refines x y) (f : ω → ω') : Refines (relabel f x) (relabel f y) := by
  intro run hrun
  obtain ⟨inner, hinner, rfl⟩ := Option.map_eq_some_iff.mp hrun
  rw [Logged.relabel, h inner hinner, Option.map_some]

theorem Refines.recover (h : Refines x y) (value : α) : Refines (recover x value) (recover y value) := by
  intro run hrun
  obtain ⟨inner, hinner, rfl⟩ := Option.map_eq_some_iff.mp hrun
  rw [Logged.recover, h inner hinner, Option.map_some]

theorem Refines.andThen {f g : α → Option (Logged ω ε β)} (h : Refines x y) (hfg : ∀ value, Refines (f value) (g value)) :
    Refines (andThen x f) (andThen y g) := by
  intro run hrun
  obtain ⟨first, hfirst, hrest⟩ := Option.bind_eq_some_iff.mp hrun
  rw [Logged.andThen, h first hfirst, Option.bind_some]
  cases houtcome : first.outcome with
  | error error =>
      rw [houtcome] at hrest
      exact hrest
  | ok value =>
      rw [houtcome] at hrest
      obtain ⟨second, hsecond, rfl⟩ := Option.map_eq_some_iff.mp hrest
      dsimp only
      rw [hfg value second hsecond, Option.map_some]

theorem refines_forEach {turn other : β → σ → Option (Logged ω ε σ)} (h : ∀ item s, Refines (turn item s) (other item s))
    (items : List β) (s : σ) : Refines (forEach turn items s) (forEach other items s) := by
  induction items generalizing s with
  | nil => exact Refines.refl _
  | cons item rest ih => exact (h item s).andThen fun t => ih t

end Logged
