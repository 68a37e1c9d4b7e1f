import Mathlib

/-!
# Steps that may fail

Mapping and folding with steps that give a value or an error.
-/

namespace List

variable {α β : Type} {rel : α → β → Prop} {inputs : List α} {outputs : List β}

theorem exists_of_mem_forall₂ (h : Forall₂ rel inputs outputs) {output : β} (houtput : output ∈ outputs) :
    ∃ input ∈ inputs, rel input output := by
  induction h with
  | nil => cases houtput
  | @cons input first _ _ hfirst _ ih =>
      obtain rfl | hrest := List.mem_cons.mp houtput
      · exact ⟨input, List.mem_cons_self, hfirst⟩
      · obtain ⟨other, hother, hrel⟩ := ih hrest
        exact ⟨other, List.mem_cons_of_mem _ hother, hrel⟩

end List

namespace Except

variable {ε α β σ : Type}

theorem bind_eq_ok_iff {x : Except ε α} {f : α → Except ε β} {value : β} :
    x >>= f = .ok value ↔ ∃ between, x = .ok between ∧ f between = .ok value := by
  cases x with
  | error what =>
      refine iff_of_false (fun h => ?_) (fun ⟨_, h, _⟩ => ?_)
      · cases h
      · cases h
  | ok between =>
      constructor
      · intro h
        exact ⟨between, rfl, h⟩
      · rintro ⟨other, hother, h⟩
        cases hother
        exact h

/-- A list is mapped if each of its elements is. -/
theorem mapM_eq_ok_iff {f : α → Except ε β} {inputs : List α} {outputs : List β} :
    inputs.mapM f = .ok outputs ↔ List.Forall₂ (fun input output => f input = .ok output) inputs outputs := by
  induction inputs generalizing outputs with
  | nil =>
      rw [List.mapM_nil, List.forall₂_nil_left_iff]
      exact ⟨fun h => (Except.ok.inj h).symm, fun h => congrArg Except.ok h.symm⟩
  | cons input rest ih =>
      rw [List.mapM_cons, bind_eq_ok_iff, List.forall₂_cons_left_iff]
      refine exists_congr fun output => ?_
      rw [bind_eq_ok_iff]
      constructor
      · rintro ⟨hfirst, others, hothers, hboth⟩
        exact ⟨others, hfirst, ih.mp hothers, (Except.ok.inj hboth).symm⟩
      · rintro ⟨others, hfirst, hothers, rfl⟩
        exact ⟨hfirst, others, ih.mpr hothers, rfl⟩

theorem exists_of_mem_mapM {f : α → Except ε β} {inputs : List α} {outputs : List β} (h : inputs.mapM f = .ok outputs)
    {output : β} (houtput : output ∈ outputs) : ∃ input ∈ inputs, f input = .ok output :=
  List.exists_of_mem_forall₂ (mapM_eq_ok_iff.mp h) houtput

theorem exists_mapM_eq_ok {f : α → Except ε β} {inputs : List α} (h : ∀ input ∈ inputs, ∃ output, f input = .ok output) :
    ∃ outputs, inputs.mapM f = .ok outputs := by
  induction inputs with
  | nil => exact ⟨[], rfl⟩
  | cons input rest ih =>
      rw [List.forall_mem_cons] at h
      obtain ⟨⟨output, houtput⟩, hrest⟩ := h
      obtain ⟨others, hothers⟩ := ih hrest
      exact ⟨output :: others, mapM_eq_ok_iff.mpr (.cons houtput (mapM_eq_ok_iff.mp hothers))⟩

/-- What every step keeps, a fold keeps. -/
theorem foldlM_invariant {f : σ → α → Except ε σ} {inputs : List α} {s t : σ} (inv : σ → Prop) (hs : inv s)
    (hstep : ∀ s input t, inv s → f s input = .ok t → inv t) (h : inputs.foldlM f s = .ok t) : inv t := by
  induction inputs generalizing s with
  | nil =>
      cases h
      exact hs
  | cons input rest ih =>
      rw [List.foldlM_cons, bind_eq_ok_iff] at h
      obtain ⟨next, hnext, hrest⟩ := h
      exact ih (hstep s input next hs hnext) hrest

theorem exists_foldlM_eq_ok {f : σ → α → Except ε σ} {inputs : List α}
    (h : ∀ s, ∀ input ∈ inputs, ∃ t, f s input = .ok t) (s : σ) : ∃ t, inputs.foldlM f s = .ok t := by
  induction inputs generalizing s with
  | nil => exact ⟨s, rfl⟩
  | cons input rest ih =>
      obtain ⟨next, hnext⟩ := h s input List.mem_cons_self
      obtain ⟨t, ht⟩ := ih (fun s other hother => h s other (List.mem_cons_of_mem _ hother)) next
      refine ⟨t, ?_⟩
      rw [List.foldlM_cons, bind_eq_ok_iff]
      exact ⟨next, hnext, ht⟩

/-- Where every step changes nothing, neither does a fold. -/
theorem foldlM_of_fixed {f : σ → α → Except ε σ} {inputs : List α} {s : σ}
    (h : ∀ input ∈ inputs, f s input = .ok s) : inputs.foldlM f s = .ok s := by
  induction inputs with
  | nil => rfl
  | cons input rest ih =>
      rw [List.forall_mem_cons] at h
      rw [List.foldlM_cons, bind_eq_ok_iff]
      exact ⟨s, h.1, ih h.2⟩

end Except

namespace Option

variable {α β : Type} {f : α → Option β} {inputs : List α} {outputs : List β}

theorem mapM_eq_some_iff : inputs.mapM f = some outputs ↔
    List.Forall₂ (fun input output => f input = some output) inputs outputs := by
  induction inputs generalizing outputs with
  | nil =>
      rw [List.mapM_nil, List.forall₂_nil_left_iff]
      exact ⟨fun h => (Option.some.inj h).symm, fun h => congrArg some h.symm⟩
  | cons input rest ih =>
      rw [List.mapM_cons, List.forall₂_cons_left_iff]
      refine Option.bind_eq_some_iff.trans (exists_congr fun output => ?_)
      constructor
      · rintro ⟨hfirst, hboth⟩
        obtain ⟨others, hothers, hboth⟩ := Option.bind_eq_some_iff.mp hboth
        exact ⟨others, hfirst, ih.mp hothers, (Option.some.inj hboth).symm⟩
      · rintro ⟨others, hfirst, hothers, rfl⟩
        exact ⟨hfirst, Option.bind_eq_some_iff.mpr ⟨others, ih.mpr hothers, rfl⟩⟩

theorem exists_of_mem_mapM (h : inputs.mapM f = some outputs) {output : β} (houtput : output ∈ outputs) :
    ∃ input ∈ inputs, f input = some output :=
  List.exists_of_mem_forall₂ (mapM_eq_some_iff.mp h) houtput

end Option
