import Mathlib.Data.List.Basic

/-!
# Machines that call back

A machine tells code outside of it what happens, and that code may call the machine again before it returns. A function
of such a machine takes what a callback does as a parameter, and works on the machine beside the state of the code that
is called back. What every function keeps, however deep the calls go, is a relation that holds of nothing done and of one
thing done after another.
-/

namespace Reentry

variable {σ χ : Type}

/-- Wherever the code runs, it leaves the machine related to what it found. -/
def Keeping (rel : σ → σ → Prop) (f : σ × χ → σ × χ) : Prop := ∀ w, rel w.1 (f w).1

variable {rel : σ → σ → Prop}

theorem keeping_id (refl : ∀ s, rel s s) : Keeping rel (id : σ × χ → σ × χ) := fun w => refl w.1

theorem Keeping.andThen (trans : ∀ s t u, rel s t → rel t u → rel s u) {f g : σ × χ → σ × χ} (hf : Keeping rel f)
    (hg : Keeping rel g) : Keeping rel fun w => g (f w) :=
  fun w => trans _ _ _ (hf w) (hg (f w))

theorem keeping_foldl (refl : ∀ s, rel s s) (trans : ∀ s t u, rel s t → rel t u → rel s u) {α : Type}
    {f : σ × χ → α → σ × χ} (hf : ∀ a, Keeping rel fun w => f w a) (l : List α) : Keeping rel fun w => l.foldl f w := by
  induction l with
  | nil => exact keeping_id refl
  | cons a rest ih => exact (hf a).andThen trans ih

section Replies

variable {ν κ : Type} (perform : (ν → σ × List (List κ) → σ × List (List κ)) → σ × List (List κ) → κ → σ × List (List κ))

/-- Code that calls the machine in any way: each time it is called back it takes the next list of calls and makes them,
so many levels deep. -/
def reply : Nat → ν → σ × List (List κ) → σ × List (List κ)
  | 0, _, w => (w.1, w.2.tail)
  | depth + 1, _, w => (w.2.headD []).foldl (perform (reply depth)) (w.1, w.2.tail)

/-- **The rule of re-entry**: where every call keeps the relation whenever what it calls back does, any code does. -/
theorem keeping_reply (refl : ∀ s, rel s s) (trans : ∀ s t u, rel s t → rel t u → rel s u)
    (keeps : ∀ callBack, (∀ notice, Keeping rel (callBack notice)) →
      ∀ call, Keeping rel fun w => perform callBack w call) (depth : Nat) (notice : ν) :
    Keeping rel (reply perform depth notice) := by
  induction depth generalizing notice with
  | zero => exact fun w => refl w.1
  | succ depth ih =>
      intro w
      exact keeping_foldl refl trans (keeps (reply perform depth) ih) (w.2.headD []) (w.1, w.2.tail)

end Replies

end Reentry
