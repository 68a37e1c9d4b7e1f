import Mathlib.Data.List.Basic
import Mathlib.Data.List.Nodup
import Mathlib.Tactic.SplitIfs

/-!
# A queue of numbered items

Items are numbered as they are accepted. Each goes out at once or waits in a queue, whose front goes
out or is given up. What is out, what waits and what was given up then share out all numbers so far,
and items that waited go out in the order they came.
-/

/-- `out` are the numbers that went out, `queued` those of them that had waited. -/
structure NumberedQueue (out queued waiting dropped : List Nat) (next : Nat) : Prop where
  counted : ∀ n, out.count n + waiting.count n + dropped.count n = if n < next then 1 else 0
  among : queued ⊆ out
  inOrder : (queued ++ waiting).Pairwise (· < ·)
  oldest : (dropped ++ waiting).Pairwise (· < ·)

namespace NumberedQueue

variable {out queued waiting dropped rest : List Nat} {next front : Nat}

theorem empty : NumberedQueue [] [] [] [] 0 := ⟨by simp, by simp, by simp, by simp⟩

theorem lt_next (h : NumberedQueue out queued waiting dropped next) {n : Nat}
    (hn : n ∈ out ∨ n ∈ waiting ∨ n ∈ dropped) : n < next := by
  have hcount := h.counted n
  by_contra hle
  rw [if_neg hle] at hcount
  rcases hn with hn | hn | hn <;>
    · have hpos := List.count_pos_iff.mpr hn
      omega

/-- The newest item is behind all others. -/
theorem pairwise_concat {before : List Nat} (hsorted : (before ++ waiting).Pairwise (· < ·))
    (hlt : ∀ n, n ∈ before ∨ n ∈ waiting → n < next) :
    (before ++ (waiting ++ [next])).Pairwise (· < ·) := by
  rw [← List.append_assoc]
  refine List.pairwise_append.mpr ⟨hsorted, List.pairwise_singleton _ _, fun n hn m hm => ?_⟩
  rw [List.mem_singleton.mp hm]
  exact hlt n (List.mem_append.mp hn)

/-- An item goes out at once. -/
theorem direct (h : NumberedQueue out queued waiting dropped next) :
    NumberedQueue (out ++ [next]) queued waiting dropped (next + 1) where
  counted n := by
    have hcount := h.counted n
    rw [List.count_append, List.count_singleton]
    simp only [beq_iff_eq]
    split_ifs at hcount ⊢ <;> omega
  among := List.Subset.trans h.among (List.subset_append_left _ _)
  inOrder := h.inOrder
  oldest := h.oldest

/-- An item waits. -/
theorem enqueue (h : NumberedQueue out queued waiting dropped next) :
    NumberedQueue out queued (waiting ++ [next]) dropped (next + 1) where
  counted n := by
    have hcount := h.counted n
    rw [List.count_append, List.count_singleton]
    simp only [beq_iff_eq]
    split_ifs at hcount ⊢ <;> omega
  among := h.among
  inOrder := by
    refine pairwise_concat h.inOrder fun n hn => h.lt_next ?_
    exact hn.elim (fun hq => Or.inl (h.among hq)) fun hw => Or.inr (Or.inl hw)
  oldest := by
    refine pairwise_concat h.oldest fun n hn => h.lt_next ?_
    exact hn.elim (fun hd => Or.inr (Or.inr hd)) fun hw => Or.inr (Or.inl hw)

/-- The front is given up. -/
theorem drop (h : NumberedQueue out queued (front :: rest) dropped next) :
    NumberedQueue out queued rest (dropped ++ [front]) next where
  counted n := by
    have hcount := h.counted n
    rw [List.count_cons] at hcount
    rw [List.count_append, List.count_singleton]
    omega
  among := h.among
  inOrder := h.inOrder.sublist
    (List.Sublist.append (List.Sublist.refl _) (List.sublist_cons_self _ _))
  oldest := by
    rw [List.append_assoc, List.singleton_append]
    exact h.oldest

/-- The front goes out. -/
theorem deliver (h : NumberedQueue out queued (front :: rest) dropped next) :
    NumberedQueue (out ++ [front]) (queued ++ [front]) rest dropped next where
  counted n := by
    have hcount := h.counted n
    rw [List.count_cons] at hcount
    rw [List.count_append, List.count_singleton]
    omega
  among := by
    intro n hn
    rcases List.mem_append.mp hn with hold | hnew
    · exact List.mem_append_left _ (h.among hold)
    · exact List.mem_append_right _ hnew
  inOrder := by
    rw [List.append_assoc, List.singleton_append]
    exact h.inOrder
  oldest := h.oldest.sublist
    (List.Sublist.append (List.Sublist.refl _) (List.sublist_cons_self _ _))

end NumberedQueue
