import Mathlib.Data.List.Basic

/-!
# Runs of a state machine

A machine is a step function from a state and an operation to the next state, and a run is the
operations taken one after another. The rules here are the only inductions over runs a
development needs: what every step keeps holds at the end of every run, what every step relates
its two ends by relates the two ends of every run, and two machines whose steps keep a relation between
them are in it after every run. A guarded run is one whose every step meets a
condition on the operation and the state it is taken in.
-/

namespace Runs

variable {σ α : Type} (step : σ → α → σ)

/-- The state after a list of operations. -/
def run (s : σ) (ops : List α) : σ := ops.foldl step s

@[simp] theorem run_nil (s : σ) : run step s [] = s := rfl

@[simp] theorem run_cons (s : σ) (op : α) (ops : List α) :
    run step s (op :: ops) = run step (step s op) ops := rfl

theorem run_append (s : σ) (before after : List α) :
    run step s (before ++ after) = run step (run step s before) after :=
  List.foldl_append

/-- Every step of the run meets the condition in the state it is taken in. -/
def Guarded (ok : σ → α → Prop) (s : σ) : List α → Prop
  | [] => True
  | op :: ops => ok s op ∧ Guarded ok (step s op) ops

instance decidableGuarded {ok : σ → α → Prop} [∀ s op, Decidable (ok s op)] :
    (s : σ) → (ops : List α) → Decidable (Guarded step ok s ops)
  | _, [] => inferInstanceAs (Decidable True)
  | s, op :: ops => @instDecidableAnd _ _ _ (decidableGuarded (step s op) ops)

theorem guarded_append {ok : σ → α → Prop} {s : σ} {before after : List α} :
    Guarded step ok s (before ++ after) ↔
      Guarded step ok s before ∧ Guarded step ok (run step s before) after := by
  induction before generalizing s with
  | nil => simp [Guarded]
  | cons op ops ih => simp only [List.cons_append, Guarded, ih, run_cons, and_assoc]

/-- A condition on the operations alone. -/
theorem guarded_of_forall {ok : α → Prop} {ops : List α} (h : ∀ op ∈ ops, ok op) (s : σ) :
    Guarded step (fun _ op => ok op) s ops := by
  induction ops generalizing s with
  | nil => trivial
  | cons op ops ih =>
      exact ⟨h op List.mem_cons_self, ih (fun other hother => h other (List.mem_cons_of_mem _ hother)) _⟩

/-- Two conditions met along a run are met together. -/
theorem guarded_and {ok good : σ → α → Prop} {s : σ} {ops : List α} (hok : Guarded step ok s ops)
    (hgood : Guarded step good s ops) : Guarded step (fun s op => ok s op ∧ good s op) s ops := by
  induction ops generalizing s with
  | nil => trivial
  | cons op ops ih => exact ⟨⟨hok.1, hgood.1⟩, ih hok.2 hgood.2⟩

/-- Two conditions that agree where an invariant holds guard the same runs. -/
theorem guarded_iff {inv : σ → Prop} {proper ok good : σ → α → Prop}
    (same : ∀ s op, proper s op → inv s → (good s op ↔ ok s op))
    (keeps : ∀ s op, proper s op → ok s op → inv s → inv (step s op)) {s : σ} (start : inv s) {ops : List α}
    (hproper : Guarded step proper s ops) : Guarded step good s ops ↔ Guarded step ok s ops := by
  induction ops generalizing s with
  | nil => exact Iff.rfl
  | cons op ops ih =>
      rw [Guarded, Guarded, same s op hproper.1 start]
      exact and_congr_right fun hok => ih (keeps s op hproper.1 hok start) hproper.2

/-- **The invariant rule.** -/
theorem invariant {ok : σ → α → Prop} {inv : σ → Prop}
    (keeps : ∀ s op, ok s op → inv s → inv (step s op))
    {s : σ} (start : inv s) {ops : List α} (guarded : Guarded step ok s ops) :
    inv (run step s ops) := by
  induction ops generalizing s with
  | nil => exact start
  | cons op ops ih =>
      obtain ⟨hok, hrest⟩ := guarded
      exact ih (keeps s op hok start) hrest

/-- The invariant rule for a machine whose every step keeps the invariant. -/
theorem invariant_of_every_step {inv : σ → Prop} (keeps : ∀ s op, inv s → inv (step s op))
    {s : σ} (start : inv s) (ops : List α) : inv (run step s ops) := by
  induction ops generalizing s with
  | nil => exact start
  | cons op ops ih => exact ih (keeps s op start)

/-- **The two-state rule.** A reflexive and transitive relation that holds across every step holds
across every run. -/
theorem related {rel : σ → σ → Prop} (refl : ∀ s, rel s s)
    (trans : ∀ s t u, rel s t → rel t u → rel s u) (relates : ∀ s op, rel s (step s op)) (s : σ)
    (ops : List α) : rel s (run step s ops) := by
  induction ops generalizing s with
  | nil => exact refl s
  | cons op ops ih => exact trans _ _ _ (relates s op) (ih (step s op))

/-- **The simulation rule.** Two machines that take the same operations stay related. -/
theorem simulates {τ : Type} {step' : τ → α → τ} {ok : σ → α → Prop} {rel : σ → τ → Prop}
    (keeps : ∀ s t op, ok s op → rel s t → rel (step s op) (step' t op))
    {s : σ} {t : τ} (start : rel s t) {ops : List α} (guarded : Guarded step ok s ops) :
    rel (run step s ops) (run step' t ops) := by
  induction ops generalizing s t with
  | nil => exact start
  | cons op ops ih =>
      obtain ⟨hok, hrest⟩ := guarded
      exact ih (keeps s t op hok start) hrest

/-- **The exactness rule.** A condition on the steps that keeps two machines related, and whose breach is
seen at once, holds along a run exactly when they are as they should be in every state of it. -/
theorem everywhere_iff {τ : Type} {step' : τ → α → τ} {proper ok : σ → α → Prop} {rel good : σ → τ → Prop}
    (keeps : ∀ s t op, proper s op → ok s op → rel s t → rel (step s op) (step' t op))
    (shows : ∀ s t, rel s t → good s t)
    (breaks : ∀ s t op, proper s op → rel s t → ¬ ok s op → ¬ good (step s op) (step' t op)) {s : σ} {t : τ}
    (start : rel s t) {ops : List α} (hproper : Guarded step proper s ops) :
    (∀ before after, ops = before ++ after → good (run step s before) (run step' t before)) ↔
      Guarded step ok s ops := by
  induction ops generalizing s t with
  | nil =>
      refine ⟨fun _ => trivial, fun _ before after hsplit => ?_⟩
      rw [(List.append_eq_nil_iff.mp hsplit.symm).1]
      exact shows s t start
  | cons op ops ih =>
      constructor
      · intro hgood
        have hok : ok s op := by
          by_contra hnot
          exact breaks s t op hproper.1 start hnot (hgood [op] ops rfl)
        refine ⟨hok, (ih (keeps s t op hproper.1 hok start) hproper.2).mp fun before after hsplit => ?_⟩
        exact hgood (op :: before) after (congrArg (op :: ·) hsplit)
      · rintro ⟨hok, hrest⟩ before after hsplit
        cases before with
        | nil => exact shows s t start
        | cons first before =>
            rw [List.cons_append, List.cons.injEq] at hsplit
            obtain ⟨rfl, htail⟩ := hsplit
            exact (ih (keeps s t op hproper.1 hok start) hproper.2).mpr hrest before after htail

/-- The exactness rule of one machine. -/
theorem everywhere_iff_of_inv {proper ok : σ → α → Prop} {inv good : σ → Prop}
    (keeps : ∀ s op, proper s op → ok s op → inv s → inv (step s op)) (shows : ∀ s, inv s → good s)
    (breaks : ∀ s op, proper s op → inv s → ¬ ok s op → ¬ good (step s op)) {s : σ} (start : inv s) {ops : List α}
    (hproper : Guarded step proper s ops) :
    (∀ before after, ops = before ++ after → good (run step s before)) ↔ Guarded step ok s ops :=
  @everywhere_iff σ α step Unit (fun _ _ => ()) proper ok (fun s _ => inv s) (fun s _ => good s)
    (fun s _ op => keeps s op) (fun s _ => shows s) (fun s _ op => breaks s op) s () start ops hproper

end Runs
