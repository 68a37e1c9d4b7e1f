import GopherMcp.Lib.Runs
import Mathlib.Algebra.Order.Ring.Int
import Mathlib.Order.Interval.Set.OrdConnected
import Mathlib.Tactic.Linarith

/-!
# Admission control

A limiter is a step function from a state and the time of a request to whether the request is admitted and
the next state. The rule here bounds what is admitted while the clock is in an interval. Every request
inside pays for its admission out of a potential, so that only the potential at the first request inside
counts, and that does not depend on how long the limiter ran before. Where no request costs more than its
admission is worth, so much is admitted in a whole run. Requests that are refused can be left out of a run
where being refused changes nothing.
-/

namespace Admission

variable {σ τ : Type} (step : σ → τ → Bool × σ)

/-- The times of the requests that are admitted. -/
def admitted (s : σ) : List τ → List τ
  | [] => []
  | now :: times =>
      if (step s now).1 then now :: admitted (step s now).2 times else admitted (step s now).2 times

/-- Two limiters that do the same in the states one of them reaches admit the same. -/
theorem admitted_congr {step' : σ → τ → Bool × σ} (inv : σ → Prop)
    (agree : ∀ s now, inv s → step s now = step' s now) (keeps : ∀ s now, inv s → inv (step s now).2)
    {s : σ} (start : inv s) (times : List τ) : admitted step s times = admitted step' s times := by
  induction times generalizing s with
  | nil => rfl
  | cons now times ih =>
      rw [admitted, admitted, ← agree s now start, ih (keeps s now start)]

/-! ### Requests among others -/

/-- The state after some requests. -/
def after (s : σ) (now : τ) : σ := (step s now).2

/-- The answers to all requests but the extra ones, which are marked. -/
def answersAmong (s : σ) : List (τ × Bool) → List Bool
  | [] => []
  | (now, extra) :: rest =>
      if extra then answersAmong (after step s now) rest
      else (step s now).1 :: answersAmong (after step s now) rest

def ExtrasRefused (s : σ) : List (τ × Bool) → Prop
  | [] => True
  | (now, extra) :: rest => (extra = true → (step s now).1 = false) ∧ ExtrasRefused (after step s now) rest

def withoutExtras (requests : List (τ × Bool)) : List (τ × Bool) := requests.filter fun request => !request.2

/-- Two limiters that are related stay so where both answer a request and where one of them refuses it. -/
theorem answersAmong_of_related {ok : σ → τ → Prop} {rel : σ → σ → Prop}
    (agree : ∀ s t now, rel s t → (step s now).1 = (step t now).1 ∧ rel (after step s now) (after step t now))
    (refuse : ∀ s t now, ok s now → rel s t → (step s now).1 = false → rel (after step s now) t) {s t : σ}
    (start : rel s t) {requests : List (τ × Bool)}
    (guarded : Runs.Guarded (after step) ok s (requests.map Prod.fst)) (refused : ExtrasRefused step s requests) :
    answersAmong step t (withoutExtras requests) = answersAmong step s requests := by
  induction requests generalizing s t with
  | nil => rfl
  | cons request rest ih =>
      obtain ⟨now, extra⟩ := request
      obtain ⟨hok, hrest⟩ := guarded
      obtain ⟨hextra, hothers⟩ := refused
      cases extra with
      | true =>
          have hout : withoutExtras ((now, true) :: rest) = withoutExtras rest := rfl
          rw [hout, answersAmong, if_pos rfl]
          exact ih (refuse s t now hok start (hextra rfl)) hrest hothers
      | false =>
          obtain ⟨hsame, hrel⟩ := agree s t now start
          have hin : withoutExtras ((now, false) :: rest) = (now, false) :: withoutExtras rest := rfl
          rw [hin, answersAmong, answersAmong, if_neg Bool.false_ne_true, if_neg Bool.false_ne_true, hsame,
            ih hrel hrest hothers]

/-- **The rule of refusals.** Requests that are refused can be left out where a refusal changes nothing, and where
nothing is ever admitted. -/
theorem answersAmong_withoutExtras {ok : σ → τ → Prop} (inv : σ → Prop) (never : Prop)
    (keeps : ∀ s now, inv s → inv (after step s now)) (hopeless : never → ∀ s now, inv s → (step s now).1 = false)
    (refuse : ¬never → ∀ s now, inv s → ok s now → (step s now).1 = false → after step s now = s) {s : σ}
    (start : inv s) {requests : List (τ × Bool)}
    (guarded : Runs.Guarded (after step) ok s (requests.map Prod.fst)) (refused : ExtrasRefused step s requests) :
    answersAmong step s (withoutExtras requests) = answersAmong step s requests := by
  have hagree (s t : σ) (now : τ) (h : inv s ∧ inv t ∧ (s = t ∨ never)) : (step s now).1 = (step t now).1 ∧
      inv (after step s now) ∧ inv (after step t now) ∧ (after step s now = after step t now ∨ never) := by
    obtain ⟨hs, ht, rfl | hnever⟩ := h
    · exact ⟨rfl, keeps s now hs, keeps s now ht, Or.inl rfl⟩
    · refine ⟨?_, keeps s now hs, keeps t now ht, Or.inr hnever⟩
      rw [hopeless hnever s now hs, hopeless hnever t now ht]
  have hrefuse (s t : σ) (now : τ) (hok : ok s now) (h : inv s ∧ inv t ∧ (s = t ∨ never))
      (hanswer : (step s now).1 = false) : inv (after step s now) ∧ inv t ∧ (after step s now = t ∨ never) := by
    obtain ⟨hs, ht, hsame⟩ := h
    refine ⟨keeps s now hs, ht, ?_⟩
    by_cases hnever : never
    · exact Or.inr hnever
    · left
      rw [refuse hnever s now hs hok hanswer]
      exact hsame.resolve_right hnever
  exact answersAmong_of_related step hagree hrefuse ⟨start, start, Or.inl rfl⟩ guarded refused

/-! ### What is admitted while the clock is in an interval -/

variable (I : Set τ) [DecidablePred (· ∈ I)]

/-- How many are admitted while the clock is in the interval. -/
def admittedIn (s : σ) (times : List τ) : Nat := (admitted step s times).countP (· ∈ I)

/-- What one request adds to the count. -/
def fare (s : σ) (now : τ) : ℤ := if (step s now).1 then 1 else 0

theorem admittedIn_cons_inside {s : σ} {now : τ} {times : List τ} (inside : now ∈ I) :
    (admittedIn step I s (now :: times) : ℤ) =
      fare step s now + admittedIn step I (step s now).2 times := by
  unfold admittedIn fare
  rw [admitted]
  split
  · rw [List.countP_cons_of_pos (by simpa using inside)]
    omega
  · omega

theorem admittedIn_cons_outside {s : σ} {now : τ} {times : List τ} (outside : now ∉ I) :
    admittedIn step I s (now :: times) = admittedIn step I (step s now).2 times := by
  unfold admittedIn
  rw [admitted]
  split
  · exact List.countP_cons_of_neg (by simpa using outside)
  · rfl

variable [LinearOrder τ] [I.OrdConnected]

/-- Once the clock has left the interval nothing more is counted. -/
theorem admittedIn_past {first now : τ} (inside : first ∈ I) (past : now ∉ I) (hle : first ≤ now)
    {times : List τ} (sorted : (now :: times).Pairwise (· ≤ ·)) (s : σ) :
    admittedIn step I s times = 0 := by
  induction times generalizing s now with
  | nil => rfl
  | cons next times ih =>
      have hnext : now ≤ next := (List.pairwise_cons.mp sorted).1 next List.mem_cons_self
      have houtside : next ∉ I := fun h => past (Set.OrdConnected.out ‹_› inside h ⟨hle, hnext⟩)
      rw [admittedIn_cons_outside step I houtside]
      exact ih houtside (hle.trans hnext) (List.pairwise_cons.mp sorted).2 _

/-- What is admitted from inside the interval on is paid out of the potential. -/
theorem weight_mul_admittedIn_le_potential {w : ℤ} (Φ : σ → ℤ) (inv : σ → τ → Prop)
    (keeps : ∀ s now next, inv s now → now ≤ next → inv (step s next).2 next)
    (nonneg : ∀ s now, inv s now → now ∈ I → 0 ≤ Φ s)
    (pays : ∀ s now next, inv s now → now ≤ next → now ∈ I → next ∈ I →
      w * fare step s next + Φ (step s next).2 ≤ Φ s)
    {s : σ} {now : τ} {times : List τ} (start : inv s now) (inside : now ∈ I)
    (sorted : (now :: times).Pairwise (· ≤ ·)) :
    w * admittedIn step I s times ≤ Φ s := by
  induction times generalizing s now with
  | nil => simpa [admittedIn, admitted] using nonneg s now start inside
  | cons next times ih =>
      obtain ⟨hfirst, hsorted⟩ := List.pairwise_cons.mp sorted
      have hnext : now ≤ next := hfirst next List.mem_cons_self
      by_cases hin : next ∈ I
      · have hpays := pays s now next start hnext inside hin
        have hrest := ih (keeps s now next start hnext) hin hsorted
        rw [admittedIn_cons_inside step I hin]
        linarith
      · rw [admittedIn_cons_outside step I hin, admittedIn_past step I inside hin hnext hsorted]
        simpa using nonneg s now start inside

/-- **The amortised rule.** Where the first request inside the interval costs, with the potential it
leaves, at most `bound`, so much is admitted in the whole interval. -/
theorem weight_mul_admittedIn_le {w bound : ℤ} (Φ : σ → ℤ) (inv : σ → τ → Prop)
    (keeps : ∀ s now next, inv s now → now ≤ next → inv (step s next).2 next)
    (nonneg : ∀ s now, inv s now → now ∈ I → 0 ≤ Φ s)
    (pays : ∀ s now next, inv s now → now ≤ next → now ∈ I → next ∈ I →
      w * fare step s next + Φ (step s next).2 ≤ Φ s)
    (opens : ∀ s now next, inv s now → now ≤ next → next ∈ I →
      w * fare step s next + Φ (step s next).2 ≤ bound)
    (hbound : 0 ≤ bound) {s : σ} {now : τ} {times : List τ} (start : inv s now)
    (sorted : (now :: times).Pairwise (· ≤ ·)) :
    w * admittedIn step I s times ≤ bound := by
  induction times generalizing s now with
  | nil => simpa [admittedIn, admitted] using hbound
  | cons next times ih =>
      obtain ⟨hfirst, hsorted⟩ := List.pairwise_cons.mp sorted
      have hnext : now ≤ next := hfirst next List.mem_cons_self
      have hkept := keeps s now next start hnext
      by_cases hin : next ∈ I
      · have hopens := opens s now next start hnext hin
        have hrest := weight_mul_admittedIn_le_potential step I Φ inv keeps nonneg pays hkept hin hsorted
        rw [admittedIn_cons_inside step I hin]
        linarith
      · rw [admittedIn_cons_outside step I hin]
        exact ih hkept hsorted

omit I [DecidablePred (· ∈ I)] [I.OrdConnected] in
/-- What every request keeps while the clock goes on. -/
theorem invariant_of_sorted {ok : σ → τ → Prop} (inv : σ → τ → Prop)
    (keeps : ∀ s now next, inv s now → now ≤ next → ok s next → inv (after step s next) next)
    {s : σ} {now : τ} {times : List τ} (start : inv s now) (sorted : (now :: times).Pairwise (· ≤ ·))
    (guarded : Runs.Guarded (after step) ok s times) : inv (Runs.run (after step) s times) (times.getLastD now) := by
  induction times generalizing s now with
  | nil => exact start
  | cons next times ih =>
      obtain ⟨hfirst, hsorted⟩ := List.pairwise_cons.mp sorted
      have hnext : now ≤ next := hfirst next List.mem_cons_self
      rw [List.getLastD_cons, Runs.run_cons]
      exact ih (keeps s now next start hnext guarded.1) hsorted guarded.2

omit I [DecidablePred (· ∈ I)] [I.OrdConnected] in
/-- **The rule of accounts.** Where every request that costs potential is paid for, so is the run. -/
theorem potential_le_weight_mul_admitted_add {w : ℤ} (Φ : σ → ℤ) {ok : σ → τ → Prop} (inv : σ → τ → Prop)
    (keeps : ∀ s now next, inv s now → now ≤ next → ok s next → inv (after step s next) next)
    (pays : ∀ s now next, inv s now → now ≤ next → ok s next →
      Φ s ≤ w * fare step s next + Φ (after step s next))
    {s : σ} {now : τ} {times : List τ} (start : inv s now) (sorted : (now :: times).Pairwise (· ≤ ·))
    (guarded : Runs.Guarded (after step) ok s times) :
    Φ s ≤ w * (admitted step s times).length + Φ (Runs.run (after step) s times) := by
  induction times generalizing s now with
  | nil => simp [admitted]
  | cons next times ih =>
      obtain ⟨hfirst, hsorted⟩ := List.pairwise_cons.mp sorted
      have hnext : now ≤ next := hfirst next List.mem_cons_self
      obtain ⟨hok, hrest⟩ := guarded
      have hpays := pays s now next start hnext hok
      have hsum := ih (keeps s now next start hnext hok) hsorted hrest
      have hlength : ((admitted step s (next :: times)).length : ℤ) =
          fare step s next + (admitted step (after step s next) times).length := by
        rw [admitted, fare, after]
        split
        · rw [List.length_cons]
          omega
        · omega
      rw [hlength, Runs.run_cons]
      linarith

end Admission
