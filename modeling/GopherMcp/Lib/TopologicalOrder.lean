import Mathlib.Data.List.Nodup
import Mathlib.Data.List.Count
import Mathlib.Logic.Relation
import Mathlib.Order.WellFounded
import Mathlib.Data.Fintype.Basic
import Mathlib.Data.Fintype.EquivFin

/-!
# Topological order

The nodes of a graph, each after those that edges lead from. A node is ready when no edge leads to it from a node
that has not been emitted; ready nodes wait in a queue, and emitting one counts its edges off. On an acyclic graph
every node is emitted, on any other graph some are not.
-/

namespace TopologicalOrder

variable {α : Type} [DecidableEq α]

/-- For each node, where its edges lead and how many lead to it. -/
structure Graph (α : Type) where
  adj : α → List α
  inDegree : α → Int

namespace Graph

def empty : Graph α := ⟨fun _ => [], fun _ => 0⟩

def addEdge (graph : Graph α) (edge : α × α) : Graph α where
  adj := Function.update graph.adj edge.1 (graph.adj edge.1 ++ [edge.2])
  inDegree := Function.update graph.inDegree edge.2 (graph.inDegree edge.2 + 1)

def ofEdges (edges : List (α × α)) : Graph α := edges.foldl addEdge empty

theorem count_adj_addEdge (graph : Graph α) (edge : α × α) (a b : α) :
    ((graph.addEdge edge).adj a).count b = (graph.adj a).count b + if edge = (a, b) then 1 else 0 := by
  obtain ⟨source, target⟩ := edge
  by_cases hsource : source = a
  · subst hsource
    simp [addEdge, List.count_singleton]
  · have hother : (graph.addEdge (source, target)).adj a = graph.adj a :=
      Function.update_of_ne (Ne.symm hsource) _ _
    simp [hother, hsource]

theorem inDegree_addEdge (graph : Graph α) (edge : α × α) (b : α) :
    (graph.addEdge edge).inDegree b = graph.inDegree b + if edge.2 = b then 1 else 0 := by
  by_cases htarget : edge.2 = b
  · subst htarget
    simp [addEdge]
  · have hother : (graph.addEdge edge).inDegree b = graph.inDegree b :=
      Function.update_of_ne (Ne.symm htarget) _ _
    simp [hother, htarget]

theorem count_adj_foldl (graph : Graph α) (edges : List (α × α)) (a b : α) :
    ((edges.foldl addEdge graph).adj a).count b = (graph.adj a).count b + edges.count (a, b) := by
  induction edges generalizing graph with
  | nil => rfl
  | cons edge rest ih =>
      rw [List.foldl_cons, ih, count_adj_addEdge, List.count_cons]
      simp only [beq_iff_eq]
      omega

theorem inDegree_foldl (graph : Graph α) (edges : List (α × α)) (b : α) :
    (edges.foldl addEdge graph).inDegree b = graph.inDegree b + edges.countP (·.2 = b) := by
  induction edges generalizing graph with
  | nil => simp
  | cons edge rest ih =>
      rw [List.foldl_cons, ih, inDegree_addEdge, List.countP_cons]
      simp only [decide_eq_true_eq]
      split <;> omega

theorem count_adj (edges : List (α × α)) (a b : α) : ((ofEdges edges).adj a).count b = edges.count (a, b) := by
  rw [ofEdges, count_adj_foldl]
  simp [empty]

theorem inDegree_eq (edges : List (α × α)) (b : α) :
    (ofEdges edges).inDegree b = edges.countP (·.2 = b) := by
  rw [ofEdges, inDegree_foldl]
  simp [empty]

end Graph

/-! ### Counting edges off -/

/-- The degrees, and the nodes that are ready. -/
abbrev Ready (α : Type) := (α → Int) × List α

/-- One edge less leads to the node. -/
def visit (ready : Ready α) (node : α) : Ready α :=
  let inDegree := Function.update ready.1 node (ready.1 node - 1)
  (inDegree, if inDegree node = 0 then ready.2 ++ [node] else ready.2)

/-- A node becomes ready once, when the last edge to it is counted off. -/
theorem visit_spec (ready : Ready α) {nodes : List α} (h : ∀ b, (nodes.count b : Int) ≤ ready.1 b) :
    (∀ b, (nodes.foldl visit ready).1 b = ready.1 b - nodes.count b) ∧
      ∃ added, (nodes.foldl visit ready).2 = ready.2 ++ added ∧ added.Nodup ∧
        ∀ b, b ∈ added ↔ b ∈ nodes ∧ ready.1 b = nodes.count b := by
  induction nodes generalizing ready with
  | nil => simp
  | cons node rest ih =>
      have hdegree (b : α) : (visit ready node).1 b = ready.1 b - if node = b then 1 else 0 := by
        by_cases hnode : node = b
        · subst hnode
          simp [visit]
        · have hother : (visit ready node).1 b = ready.1 b := Function.update_of_ne (Ne.symm hnode) _ _
          simp [hother, hnode]
      have hcount (b : α) : (node :: rest).count b = rest.count b + if node = b then 1 else 0 := by
        rw [List.count_cons]
        simp only [beq_iff_eq]
      obtain ⟨hdegrees, added, hadded, hnodup, hmem⟩ := ih (visit ready node) fun b => by
        have hle := h b
        rw [hcount] at hle
        rw [hdegree]
        split_ifs at hle ⊢ <;> omega
      rw [List.foldl_cons]
      refine ⟨fun b => ?_, ?_⟩
      · rw [hdegrees, hdegree, hcount]
        split <;> omega
      have hnode := h node
      rw [hcount, if_pos rfl] at hnode
      have hself : node ∈ rest ↔ rest.count node ≠ 0 := by
        rw [ne_eq, List.count_eq_zero, not_not]
      by_cases hlast : ready.1 node = 1
      · have hqueue : (visit ready node).2 = ready.2 ++ [node] := by simp [visit, hlast]
        have hnone : node ∉ rest := by
          rw [hself]
          omega
        refine ⟨node :: added, by rw [hadded, hqueue, List.append_assoc, List.singleton_append], ?_, fun b => ?_⟩
        · exact List.nodup_cons.mpr ⟨fun hin => hnone ((hmem node).mp hin).1, hnodup⟩
        · rw [List.mem_cons, List.mem_cons, hmem, hdegree, hcount]
          by_cases hb : b = node
          · subst hb
            simp only [true_or, true_and, if_true, true_iff]
            omega
          · rw [if_neg (Ne.symm hb), if_neg (Ne.symm hb)]
            simp [hb]
      · have hqueue : (visit ready node).2 = ready.2 := by
          have hleft : ready.1 node - 1 ≠ 0 := by omega
          simp [visit, hleft]
        refine ⟨added, by rw [hadded, hqueue], hnodup, fun b => ?_⟩
        rw [List.mem_cons, hmem, hdegree, hcount]
        by_cases hb : b = node
        · subst hb
          simp only [true_or, true_and, if_true, hself]
          omega
        · rw [if_neg (Ne.symm hb), if_neg (Ne.symm hb)]
          simp [hb]

/-! ### Emitting the nodes -/

structure State (α : Type) where
  ready : Ready α
  result : List α

/-- The first node that is ready is emitted. -/
def emit (adj : α → List α) (state : State α) (current : α) (rest : List α) : State α where
  ready := (adj current).foldl visit (state.ready.1, rest)
  result := state.result ++ [current]

/-- Nodes are emitted while there is one that is ready, so many at most. -/
def drain (adj : α → List α) : Nat → State α → State α
  | 0, state => state
  | fuel + 1, state =>
      match state.ready.2 with
      | [] => state
      | current :: rest => drain adj fuel (emit adj state current rest)

def start (nodes : List α) (edges : List (α × α)) : State α where
  ready :=
    ((Graph.ofEdges edges).inDegree, nodes.filter fun node => (Graph.ofEdges edges).inDegree node = 0)
  result := []

/-- The nodes in the order they are emitted. -/
def sort (nodes : List α) (edges : List (α × α)) : List α :=
  (drain (Graph.ofEdges edges).adj nodes.length (start nodes edges)).result

/-- The edges to a node from nodes that have not been emitted. -/
def left (edges : List (α × α)) (result : List α) (b : α) : Nat :=
  edges.countP fun edge => edge.2 = b ∧ edge.1 ∉ result

/-- What holds while nodes are emitted: each once, none before one that an edge leads from to it, and those are ready
that have no edge left. -/
structure Emitted (nodes : List α) (edges : List (α × α)) (state : State α) : Prop where
  nodup : (state.result ++ state.ready.2).Nodup
  subset : ∀ a ∈ state.result ++ state.ready.2, a ∈ nodes
  degree : ∀ b, state.ready.1 b = left edges state.result b
  ready : ∀ b ∈ nodes, b ∈ state.result ++ state.ready.2 ↔ left edges state.result b = 0
  ordered : state.result.Pairwise fun a b => (b, a) ∉ edges
  loopless : ∀ a ∈ state.result, (a, a) ∉ edges

variable {nodes : List α} {edges : List (α × α)}

theorem left_eq_zero_iff {result : List α} {b : α} :
    left edges result b = 0 ↔ ∀ a, (a, b) ∈ edges → a ∈ result := by
  rw [left, List.countP_eq_zero]
  constructor
  · intro h a hedge
    by_contra hnot
    exact h (a, b) hedge (by simpa using hnot)
  · rintro h ⟨a, target⟩ hedge hleft
    simp only [decide_eq_true_eq] at hleft
    obtain ⟨rfl, hnot⟩ := hleft
    exact hnot (h a hedge)

theorem left_concat {result : List α} {current : α} (h : current ∉ result) (b : α) :
    left edges (result ++ [current]) b + edges.count (current, b) = left edges result b := by
  rw [left, left, List.count]
  induction edges with
  | nil => rfl
  | cons edge rest ih =>
      obtain ⟨source, target⟩ := edge
      have hhead : ((if decide (target = b ∧ source ∉ result ++ [current]) then 1 else 0) +
          if (source, target) == (current, b) then 1 else 0) =
            if decide (target = b ∧ source ∉ result) then 1 else 0 := by
        by_cases htarget : target = b
        · by_cases hsource : source = current
          · subst hsource
            simp [htarget, h]
          · simp [htarget, hsource]
        · simp [htarget]
      rw [List.countP_cons, List.countP_cons, List.countP_cons]
      dsimp only
      omega

theorem left_nil (b : α) : left edges [] b = edges.countP (·.2 = b) := by simp [left]

theorem emitted_start (hnodup : nodes.Nodup) : Emitted nodes edges (start nodes edges) where
  nodup := hnodup.filter _
  subset a ha := List.mem_of_mem_filter ha
  degree b := by
    have hdegree := Graph.inDegree_eq edges b
    rwa [← left_nil] at hdegree
  ready b hb := by
    have hdegree := Graph.inDegree_eq edges b
    rw [← left_nil] at hdegree
    rw [start, List.nil_append, List.mem_filter, hdegree]
    simp [hb]
  ordered := List.Pairwise.nil
  loopless a ha := absurd ha List.not_mem_nil

theorem Emitted.emit {state : State α} (h : Emitted nodes edges state) (htargets : ∀ edge ∈ edges, edge.2 ∈ nodes)
    {current : α} {rest : List α} (hready : state.ready.2 = current :: rest) :
    Emitted nodes edges (emit (Graph.ofEdges edges).adj state current rest) := by
  obtain ⟨hnodup, hsubset, hdegree, hiff, hordered, hloopless⟩ := h
  rw [hready] at hnodup hsubset hiff
  have hfresh : current ∉ state.result := by
    intro hin
    exact (List.nodup_append.mp hnodup).2.2 current hin current List.mem_cons_self rfl
  have hsplit (b : α) := @left_concat _ _ edges _ _ hfresh b
  have hold (a : α) (ha : a ∈ state.result ++ current :: rest) :
      ∀ source, (source, a) ∈ edges → source ∈ state.result :=
    left_eq_zero_iff.mp ((hiff a (hsubset a ha)).mp ha)
  obtain ⟨hcounted, added, hadded, haddedNodup, hmem⟩ :=
    visit_spec (state.ready.1, rest) (fun b => show (((Graph.ofEdges edges).adj current).count b : Int) ≤ _ by
      have := hsplit b
      rw [Graph.count_adj, hdegree]
      omega)
  have hnew (b : α) : b ∈ added ↔ (current, b) ∈ edges ∧ left edges (state.result ++ [current]) b = 0 := by
    have hedge : b ∈ (Graph.ofEdges edges).adj current ↔ (current, b) ∈ edges := by
      rw [← List.count_pos_iff, Graph.count_adj, List.count_pos_iff]
    have hsum := hsplit b
    rw [hmem, hedge]
    refine and_congr_right fun _ => ?_
    rw [hdegree, Graph.count_adj]
    omega
  have hall : state.result ++ [current] ++ (rest ++ added) = state.result ++ current :: rest ++ added := by simp
  have hqueue : (TopologicalOrder.emit (Graph.ofEdges edges).adj state current rest).ready.2 = rest ++ added := hadded
  have hready' (b : α) (hb : b ∈ nodes) :
      b ∈ state.result ++ current :: rest ++ added ↔ left edges (state.result ++ [current]) b = 0 := by
    have hsum := hsplit b
    rw [List.mem_append, hiff b hb, hnew, ← List.count_pos_iff]
    omega
  constructor
  · rw [hqueue]
    show (state.result ++ [current] ++ (rest ++ added)).Nodup
    rw [hall]
    refine List.nodup_append.mpr ⟨hnodup, haddedNodup, fun a ha b hb hab => ?_⟩
    subst hab
    exact hfresh (hold a ha current ((hnew a).mp hb).1)
  · rw [hqueue]
    show ∀ a ∈ state.result ++ [current] ++ (rest ++ added), a ∈ nodes
    rw [hall]
    intro a ha
    rcases List.mem_append.mp ha with hbefore | hafter
    · exact hsubset a hbefore
    · exact htargets (current, a) ((hnew a).mp hafter).1
  · intro b
    have hsum := hsplit b
    show ((((Graph.ofEdges edges).adj current).foldl visit (state.ready.1, rest)).1 b : Int) =
      left edges (state.result ++ [current]) b
    rw [hcounted, hdegree, Graph.count_adj]
    omega
  · rw [hqueue]
    show ∀ b ∈ nodes, b ∈ state.result ++ [current] ++ (rest ++ added) ↔
      left edges (state.result ++ [current]) b = 0
    rw [hall]
    exact hready'
  · refine List.pairwise_append.mpr ⟨hordered, List.pairwise_singleton _ _, fun a ha b hb => ?_⟩
    rw [List.mem_singleton.mp hb]
    exact fun hedge => hfresh (hold a (List.mem_append_left _ ha) current hedge)
  · intro a ha
    rcases List.mem_append.mp ha with hbefore | hlast
    · exact hloopless a hbefore
    · rw [List.mem_singleton.mp hlast]
      exact fun hedge => hfresh (hold current (List.mem_append_right _ List.mem_cons_self) current hedge)

/-- As many nodes as there are can be emitted before none is ready. -/
theorem Emitted.drain (htargets : ∀ edge ∈ edges, edge.2 ∈ nodes) {state : State α}
    (h : Emitted nodes edges state) {fuel : Nat} (hfuel : nodes.length ≤ fuel + state.result.length) :
    Emitted nodes edges (drain (Graph.ofEdges edges).adj fuel state) ∧
      (drain (Graph.ofEdges edges).adj fuel state).ready.2 = [] := by
  induction fuel generalizing state with
  | zero =>
      have hlength := (h.nodup.subperm h.subset).length_le
      rw [List.length_append] at hlength
      exact ⟨h, List.length_eq_zero_iff.mp (show state.ready.2.length = 0 by omega)⟩
  | succ fuel ih =>
      rw [TopologicalOrder.drain]
      cases hready : state.ready.2 with
      | nil => exact ⟨h, hready⟩
      | cons current rest =>
          refine ih (h.emit htargets hready) ?_
          rw [TopologicalOrder.emit, List.length_append, List.length_singleton]
          omega

/-! ### The order -/

/-- What stands before another element of a list. -/
theorem pair_sublist_of_idxOf_lt {a b : α} {l : List α} (hb : b ∈ l) (h : l.idxOf a < l.idxOf b) :
    [a, b].Sublist l := by
  induction l with
  | nil => exact absurd hb List.not_mem_nil
  | cons first rest ih =>
      have hbfirst : b ≠ first := by
        rintro rfl
        rw [List.idxOf_cons_self] at h
        exact Nat.not_lt_zero _ h
      have hbrest : b ∈ rest := (List.mem_cons.mp hb).resolve_left hbfirst
      by_cases hafirst : a = first
      · subst hafirst
        exact (List.singleton_sublist.mpr hbrest).cons_cons a
      · rw [List.idxOf_cons_ne _ (Ne.symm hafirst), List.idxOf_cons_ne _ (Ne.symm hbfirst)] at h
        exact (ih hbrest (Nat.lt_of_succ_lt_succ h)).cons first

/-- No edges lead from a node back to it. -/
def Acyclic (edges : List (α × α)) : Prop := ∀ a, ¬Relation.TransGen (fun a b => (a, b) ∈ edges) a a

/-- A graph whose edges lead from a node to a node. -/
structure Within (nodes : List α) (edges : List (α × α)) : Prop where
  nodup : nodes.Nodup
  sources : ∀ edge ∈ edges, edge.1 ∈ nodes
  targets : ∀ edge ∈ edges, edge.2 ∈ nodes

variable (within : Within nodes edges)

include within

theorem emitted_sort :
    ∃ state, Emitted nodes edges state ∧ state.ready.2 = [] ∧ state.result = sort nodes edges :=
  have hdrain := (emitted_start within.nodup).drain within.targets (Nat.le_refl _)
  ⟨_, hdrain.1, hdrain.2, rfl⟩

theorem nodup_sort : (sort nodes edges).Nodup := by
  obtain ⟨state, h, -, hresult⟩ := emitted_sort within
  exact hresult ▸ (List.nodup_append.mp h.nodup).1

theorem subset_sort : sort nodes edges ⊆ nodes := by
  obtain ⟨state, h, -, hresult⟩ := emitted_sort within
  exact fun a ha => h.subset a (List.mem_append_left _ (hresult ▸ ha))

/-- A node is emitted if those are that edges lead from to it. -/
theorem mem_sort_iff {b : α} (hb : b ∈ nodes) :
    b ∈ sort nodes edges ↔ ∀ a, (a, b) ∈ edges → a ∈ sort nodes edges := by
  obtain ⟨state, h, hnone, hresult⟩ := emitted_sort within
  have hiff := h.ready b hb
  rwa [hnone, List.append_nil, left_eq_zero_iff, hresult] at hiff

/-- Edges lead forward. -/
theorem idxOf_lt_of_edge {a b : α} (hedge : (a, b) ∈ edges) (ha : a ∈ sort nodes edges)
    (hb : b ∈ sort nodes edges) : (sort nodes edges).idxOf a < (sort nodes edges).idxOf b := by
  obtain ⟨state, h, -, hresult⟩ := emitted_sort within
  have hordered := List.pairwise_iff_getElem.mp (hresult ▸ h.ordered)
  have ha' := List.idxOf_lt_length_iff.mpr ha
  have hb' := List.idxOf_lt_length_iff.mpr hb
  rcases Nat.lt_trichotomy ((sort nodes edges).idxOf a) ((sort nodes edges).idxOf b) with hlt | heq | hgt
  · exact hlt
  · have hsame : a = b := (List.idxOf_inj ha).mp heq
    subst hsame
    exact absurd hedge (h.loopless a (hresult ▸ ha))
  · have hback := hordered _ _ hb' ha' hgt
    rw [List.getElem_idxOf, List.getElem_idxOf] at hback
    exact absurd hedge hback

/-- Both ends of an edge, in their order. -/
theorem pair_sublist_sort {a b : α} (hedge : (a, b) ∈ edges) (ha : a ∈ sort nodes edges) (hb : b ∈ sort nodes edges) :
    [a, b].Sublist (sort nodes edges) :=
  pair_sublist_of_idxOf_lt hb (idxOf_lt_of_edge within hedge ha hb)

/-- **On an acyclic graph every node is emitted.** -/
theorem mem_sort_of_acyclic (hacyclic : Acyclic edges) {b : α} (hb : b ∈ nodes) : b ∈ sort nodes edges := by
  have htrans : IsTrans { node // node ∈ nodes }
      (fun a b => Relation.TransGen (fun a b => (a, b) ∈ edges) a.1 b.1) := ⟨fun _ _ _ => Relation.TransGen.trans⟩
  have hirrefl : Std.Irrefl (fun a b : { node // node ∈ nodes } =>
      Relation.TransGen (fun a b => (a, b) ∈ edges) a.1 b.1) := ⟨fun a => hacyclic a.1⟩
  have hfinite : Finite { node // node ∈ nodes } := inferInstance
  have hwf := Finite.wellFounded_of_trans_of_irrefl (fun a b : { node // node ∈ nodes } =>
    Relation.TransGen (fun a b => (a, b) ∈ edges) a.1 b.1)
  suffices hall : ∀ b : { node // node ∈ nodes }, b.1 ∈ sort nodes edges from hall ⟨b, hb⟩
  intro b
  induction b using hwf.induction with
  | _ b ih =>
      rw [mem_sort_iff within b.2]
      intro a hedge
      exact ih ⟨a, within.sources _ hedge⟩ (Relation.TransGen.single hedge)

/-- **Where every node is emitted the graph is acyclic.** -/
theorem acyclic_of_mem_sort (hall : ∀ b ∈ nodes, b ∈ sort nodes edges) : Acyclic edges := by
  have hforward (a b : α) (h : Relation.TransGen (fun a b => (a, b) ∈ edges) a b) :
      (sort nodes edges).idxOf a < (sort nodes edges).idxOf b := by
    have hedge (a b : α) (h : (a, b) ∈ edges) : (sort nodes edges).idxOf a < (sort nodes edges).idxOf b :=
      idxOf_lt_of_edge within h (hall a (within.sources _ h)) (hall b (within.targets _ h))
    induction h with
    | single h => exact hedge _ _ h
    | tail _ h ih => exact ih.trans (hedge _ _ h)
  exact fun a h => Nat.lt_irrefl _ (hforward a a h)

/-- A graph is acyclic if as many nodes are emitted as there are. -/
theorem length_sort_eq_iff : (sort nodes edges).length = nodes.length ↔ Acyclic edges := by
  have hsubperm := (nodup_sort within).subperm (subset_sort within)
  constructor
  · intro hlength
    have hperm := hsubperm.perm_of_length_le hlength.ge
    exact acyclic_of_mem_sort within fun b hb => hperm.mem_iff.mpr hb
  · intro hacyclic
    have hsubset : nodes ⊆ sort nodes edges := fun b hb => mem_sort_of_acyclic within hacyclic hb
    exact Nat.le_antisymm hsubperm.length_le (within.nodup.subperm hsubset).length_le

theorem sort_perm (hacyclic : Acyclic edges) : (sort nodes edges).Perm nodes :=
  ((nodup_sort within).subperm (subset_sort within)).perm_of_length_le ((length_sort_eq_iff within).mpr hacyclic).ge

end TopologicalOrder
