import Mathlib.Data.List.Chain

/-!
# Walks in a graph

A walk is a list of vertices in which each has an edge to the next. What a walk passes on its way is read off the edges:
if the only way out of a set of vertices is through a gate, a walk that starts in the set and leaves it has passed the
gate; if there is no way out, it stays.
-/

namespace Walks

variable {σ : Type} {edge : σ → σ → Prop} {inside gate : σ → Prop}

/-- **The gate rule.** -/
theorem meets_gate (hstep : ∀ x y, inside x → edge x y → inside y ∨ gate y) {a b : σ} {l : List σ}
    (hwalk : List.IsChain edge (a :: l)) (ha : inside a) (hb : b ∈ l) (hout : ¬ inside b) : ∃ g ∈ l, gate g := by
  induction l generalizing a with
  | nil => cases hb
  | cons c rest ih =>
      obtain ⟨hedge, hrest⟩ := List.isChain_cons_cons.mp hwalk
      rcases hstep a c ha hedge with hc | hc
      · rcases List.mem_cons.mp hb with rfl | hb
        · exact absurd hc hout
        · obtain ⟨g, hg, hgate⟩ := ih hrest hc hb
          exact ⟨g, List.mem_cons_of_mem _ hg, hgate⟩
      · exact ⟨c, List.mem_cons_self, hc⟩

/-- The gate is passed on the way to what is outside. -/
theorem meets_gate_before (hstep : ∀ x y, inside x → edge x y → inside y ∨ gate y) {a b : σ} {before after : List σ}
    (hwalk : List.IsChain edge (a :: (before ++ b :: after))) (ha : inside a) (hout : ¬ inside b) (hgate : ¬ gate b) :
    ∃ g ∈ before, gate g := by
  have hsplit : a :: (before ++ b :: after) = (a :: (before ++ [b])) ++ after := by simp
  rw [hsplit] at hwalk
  obtain ⟨g, hg, hgate'⟩ := meets_gate hstep hwalk.left_of_append ha (List.mem_append_right _ (List.mem_singleton_self b))
    hout
  rcases List.mem_append.mp hg with hg | hg
  · exact ⟨g, hg, hgate'⟩
  · rw [List.mem_singleton.mp hg] at hgate'
    exact absurd hgate' hgate

/-- One more step, from where the walk has come to. -/
theorem isChain_concat {walk : List σ} {a b : σ} (hwalk : List.IsChain edge walk) (hlast : walk.getLast? = some a)
    (hedge : edge a b) : List.IsChain edge (walk ++ [b]) := by
  refine List.isChain_append.mpr ⟨hwalk, List.isChain_singleton b, ?_⟩
  intro x hx y hy
  rw [hlast, Option.mem_def, Option.some.injEq] at hx
  rw [List.head?_cons, Option.mem_def, Option.some.injEq] at hy
  exact hx ▸ hy ▸ hedge

end Walks
