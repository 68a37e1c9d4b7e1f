import GopherMcp.Config.FilterOrderValidator

/-!
# What reordering a chain gives

Whatever is registered and depended on, a reordered chain has the filters of the chain, by stage and then by
priority. Dependencies are kept only where these do not say otherwise: the sort that comes last does not look at them.
-/

namespace GopherMcp

namespace FilterOrderValidator

variable {v : FilterOrderValidator} {iteration : Iteration} {filters : List FilterConfig}

/-! ### The stable sort -/

theorem toNat_injective {a b : FilterStage} (h : a.toNat = b.toNat) : a = b := by
  cases a <;> cases b <;> first | rfl | exact absurd h (by decide)

theorem comesBefore_iff {a b : FilterConfig} :
    v.comesBefore a b ↔ (v.getFilterStage a.name).toNat < (v.getFilterStage b.name).toNat ∨
      (v.getFilterStage a.name).toNat = (v.getFilterStage b.name).toNat ∧ a.priority < b.priority := by
  rw [comesBefore]
  split_ifs with h
  · have hne : (v.getFilterStage a.name).toNat ≠ (v.getFilterStage b.name).toNat := fun heq => h (toNat_injective heq)
    omega
  · rw [not_not] at h
    rw [h]
    omega

instance : Std.Total v.inOrder where
  total a b := by
    rw [inOrder, inOrder, comesBefore_iff, comesBefore_iff]
    omega

instance : IsTrans FilterConfig v.inOrder where
  trans a b c hab hbc := by
    rw [inOrder, comesBefore_iff] at hab hbc ⊢
    omega

theorem stage_le_of_inOrder {a b : FilterConfig} (h : v.inOrder a b) :
    (v.getFilterStage a.name).toNat ≤ (v.getFilterStage b.name).toNat := by
  rw [inOrder, comesBefore_iff] at h
  omega

theorem perm_stableSort (v : FilterOrderValidator) (filters : List FilterConfig) :
    (v.stableSort filters).Perm filters := List.perm_insertionSort _ _

theorem pairwise_stableSort (v : FilterOrderValidator) (filters : List FilterConfig) :
    (v.stableSort filters).Pairwise v.inOrder := List.pairwise_insertionSort _ _

theorem pair_sublist_stableSort {a b : FilterConfig} (hab : v.inOrder a b) (h : [a, b].Sublist filters) :
    [a, b].Sublist (v.stableSort filters) := List.pair_sublist_insertionSort hab h

/-- Two elements of a list stand in some order. -/
theorem pair_sublist_or {α : Type} {a b : α} {l : List α} (hne : a ≠ b) (ha : a ∈ l) (hb : b ∈ l) :
    [a, b].Sublist l ∨ [b, a].Sublist l := by
  induction l with
  | nil => exact absurd ha List.not_mem_nil
  | cons first rest ih =>
      rcases List.mem_cons.mp ha with rfl | harest
      · have hbrest := (List.mem_cons.mp hb).resolve_left (Ne.symm hne)
        exact Or.inl ((List.singleton_sublist.mpr hbrest).cons_cons a)
      · rcases List.mem_cons.mp hb with rfl | hbrest
        · exact Or.inr ((List.singleton_sublist.mpr harest).cons_cons b)
        · exact (ih harest hbrest).imp (·.cons first) (·.cons first)

/-- What comes before another stands before it. -/
theorem pair_sublist_of_comesBefore {a b : FilterConfig} (hab : v.comesBefore a b) (ha : a ∈ filters)
    (hb : b ∈ filters) : [a, b].Sublist (v.stableSort filters) := by
  have hne : a ≠ b := by
    rintro rfl
    rw [comesBefore_iff] at hab
    omega
  have hperm := perm_stableSort v filters
  rcases pair_sublist_or hne (hperm.mem_iff.mpr ha) (hperm.mem_iff.mpr hb) with h | h
  · exact h
  · exact absurd hab (List.pairwise_iff_forall_sublist.mp (pairwise_stableSort v filters) h)

/-! ### The topological sort -/

/-- Filters that are all enabled, under names that differ. -/
structure Distinct (filters : List FilterConfig) : Prop where
  enabled : ∀ filter ∈ filters, filter.enabled = true
  names : (filters.map (·.name)).Nodup

theorem Distinct.filter_enabled (h : Distinct filters) : filters.filter (·.enabled) = filters :=
  List.filter_eq_self.mpr h.enabled

theorem Distinct.find?_filterMap (h : Distinct filters) {name : Bytes} {filter : FilterConfig} :
    (filterMap filters).find? name = some filter ↔ filter ∈ filters ∧ filter.name = name := by
  have hkeys : ((filters.map fun filter => (filter.name, filter)).map Prod.fst).Nodup := by
    rw [List.map_map]
    exact h.names
  rw [filterMap, h.filter_enabled, OrdMap.find?_ofEntries_eq_some_iff hkeys, List.mem_map]
  constructor
  · rintro ⟨found, hfound, heq⟩
    obtain ⟨rfl, rfl⟩ := Prod.mk.inj heq
    exact ⟨hfound, rfl⟩
  · rintro ⟨hfilter, rfl⟩
    exact ⟨filter, hfilter, rfl⟩

theorem Distinct.find?_name (h : Distinct filters) {filter : FilterConfig} (hfilter : filter ∈ filters) :
    (filterMap filters).find? filter.name = some filter := h.find?_filterMap.mpr ⟨hfilter, rfl⟩

theorem Distinct.isSome_find?_iff (h : Distinct filters) {name : Bytes} :
    ((filterMap filters).find? name).isSome ↔ name ∈ filters.map (·.name) := by
  rw [Option.isSome_iff_exists, List.mem_map]
  exact exists_congr fun filter => h.find?_filterMap

theorem Distinct.keys_perm (h : Distinct filters) : (filterMap filters).keys.Perm (filters.map (·.name)) := by
  refine (List.perm_ext_iff_of_nodup (OrdMap.nodup_keys _) h.names).mpr fun name => ?_
  rw [OrdMap.mem_keys_iff, h.isSome_find?_iff]

theorem mem_dependencyEdges (h : Distinct filters) {edge : Bytes × Bytes} :
    edge ∈ v.dependencyEdges filters ↔
      ∃ filter ∈ filters, (edge.1 ∈ v.dependsOn filter ∧ edge.1 ∈ filters.map (·.name)) ∧ filter.name = edge.2 := by
  rw [dependencyEdges, h.filter_enabled, List.mem_flatMap]
  refine exists_congr fun filter => and_congr_right fun _ => ?_
  rw [List.mem_map]
  constructor
  · rintro ⟨name, hname, rfl⟩
    rw [List.mem_filter, h.isSome_find?_iff] at hname
    exact ⟨hname, rfl⟩
  · rintro ⟨hname, hfilter⟩
    refine ⟨edge.1, ?_, Prod.ext rfl hfilter⟩
    rw [List.mem_filter, h.isSome_find?_iff]
    exact hname

/-- The names there are, and the edges between them, are a graph. -/
theorem Distinct.within (h : Distinct filters) (v : FilterOrderValidator) (iteration : Iteration) :
    TopologicalOrder.Within (iteration.visit (filterMap filters).keys) (v.dependencyEdges filters) := by
  have hperm := (iteration.visit_perm (filterMap filters).keys).trans h.keys_perm
  refine ⟨hperm.nodup_iff.mpr h.names, fun edge hedge => ?_, fun edge hedge => ?_⟩
  · obtain ⟨_, _, ⟨-, hsource⟩, -⟩ := (mem_dependencyEdges h).mp hedge
    exact hperm.mem_iff.mpr hsource
  · obtain ⟨filter, hfilter, -, htarget⟩ := (mem_dependencyEdges h).mp hedge
    exact hperm.mem_iff.mpr (htarget ▸ List.mem_map_of_mem hfilter)

theorem Distinct.size_eq (h : Distinct filters) : (filterMap filters).size = filters.length := by
  have hlength := h.keys_perm.length_eq
  rwa [OrdMap.keys, List.length_map, List.length_map] at hlength

/-- What the names in some order are the names of. -/
theorem Distinct.filterMap_perm (h : Distinct filters) {names : List Bytes}
    (hnames : names.Perm (filters.map (·.name))) :
    (names.filterMap (filterMap filters).find?).Perm filters := by
  have hself : (filters.map (·.name)).filterMap (filterMap filters).find? = filters := by
    rw [List.filterMap_map]
    have hcongr : filters.filterMap ((filterMap filters).find? ∘ (·.name)) = filters.filterMap some :=
      List.filterMap_congr fun filter hfilter => h.find?_name hfilter
    rw [hcongr, List.filterMap_some]
  exact (hnames.filterMap _).trans (List.Perm.of_eq hself)

/-- **The topological sort has a result where the dependencies are acyclic.** -/
theorem topologicalSort_of_acyclic (h : Distinct filters)
    (hacyclic : TopologicalOrder.Acyclic (v.dependencyEdges filters)) :
    (v.topologicalSort iteration filters).Perm filters ∧
      ∀ a ∈ filters, ∀ b ∈ filters, a.name ∈ v.dependsOn b →
        [a, b].Sublist (v.topologicalSort iteration filters) := by
  have hwithin := h.within v iteration
  have hsort := TopologicalOrder.sort_perm hwithin hacyclic
  have hnames := (hsort.trans (iteration.visit_perm _)).trans h.keys_perm
  have hperm := h.filterMap_perm hnames
  have hresult : v.topologicalSort iteration filters =
      (TopologicalOrder.sort (iteration.visit (filterMap filters).keys) (v.dependencyEdges filters)).filterMap
        (filterMap filters).find? := by
    rw [topologicalSort, hperm.length_eq, h.size_eq]
    exact if_neg fun hne => hne rfl
  rw [hresult]
  refine ⟨hperm, fun a ha b hb hdepends => ?_⟩
  have hedge : (a.name, b.name) ∈ v.dependencyEdges filters :=
    (mem_dependencyEdges h).mpr ⟨b, hb, ⟨hdepends, List.mem_map_of_mem ha⟩, rfl⟩
  have hpair := TopologicalOrder.pair_sublist_sort hwithin hedge (hnames.mem_iff.mpr (List.mem_map_of_mem ha))
    (hnames.mem_iff.mpr (List.mem_map_of_mem hb))
  have hfound := hpair.filterMap (filterMap filters).find?
  rwa [List.filterMap_cons_some (h.find?_name ha), List.filterMap_cons_some (h.find?_name hb),
    List.filterMap_nil] at hfound

theorem topologicalSort_of_cyclic (h : Distinct filters)
    (hcyclic : ¬TopologicalOrder.Acyclic (v.dependencyEdges filters)) :
    v.topologicalSort iteration filters = [] := by
  have hwithin := h.within v iteration
  have hperm := (iteration.visit_perm (filterMap filters).keys).trans h.keys_perm
  have hlength := mt (TopologicalOrder.length_sort_eq_iff hwithin).mp hcyclic
  rw [hperm.length_eq, List.length_map] at hlength
  have hle := List.length_filterMap_le (filterMap filters).find?
    (TopologicalOrder.sort (iteration.visit (filterMap filters).keys) (v.dependencyEdges filters))
  have hmost := ((TopologicalOrder.nodup_sort hwithin).subperm (TopologicalOrder.subset_sort hwithin)).length_le
  rw [hperm.length_eq, List.length_map] at hmost
  rw [topologicalSort, h.size_eq]
  exact if_pos (by omega)

/-! ### The reordered chain -/

theorem reorder_of_cyclic (h : Distinct filters)
    (hcyclic : ¬TopologicalOrder.Acyclic (v.dependencyEdges filters)) :
    v.reorder iteration filters = v.stableSort filters := by
  rw [reorder, topologicalSort_of_cyclic h hcyclic]
  split
  case isTrue hempty =>
    rw [List.isEmpty_iff.mp hempty]
    rfl
  case isFalse => rfl

theorem reorder_of_acyclic (h : Distinct filters)
    (hacyclic : TopologicalOrder.Acyclic (v.dependencyEdges filters)) :
    v.reorder iteration filters = v.stableSort (v.topologicalSort iteration filters) := by
  have hperm := (@topologicalSort_of_acyclic v iteration filters h hacyclic).1
  rw [reorder]
  cases filters with
  | nil =>
      rw [hperm.eq_nil]
      rfl
  | cons first rest =>
      rw [List.isEmpty_cons, if_neg Bool.false_ne_true, if_pos]
      rw [Bool.not_eq_true', List.isEmpty_eq_false_iff]
      exact fun hnil => List.cons_ne_nil first rest (hnil ▸ hperm).nil_eq.symm

/-- Whatever depends on what, the filters are the same. -/
theorem reorder_perm (h : Distinct filters) : (v.reorder iteration filters).Perm filters := by
  by_cases hacyclic : TopologicalOrder.Acyclic (v.dependencyEdges filters)
  · rw [reorder_of_acyclic h hacyclic]
    exact (perm_stableSort v _).trans (topologicalSort_of_acyclic h hacyclic).1
  · rw [reorder_of_cyclic h hacyclic]
    exact perm_stableSort v filters

theorem pairwise_reorder (h : Distinct filters) : (v.reorder iteration filters).Pairwise v.inOrder := by
  by_cases hacyclic : TopologicalOrder.Acyclic (v.dependencyEdges filters)
  · rw [reorder_of_acyclic h hacyclic]
    exact pairwise_stableSort v _
  · rw [reorder_of_cyclic h hacyclic]
    exact pairwise_stableSort v filters

/-- One filter stands before another where stage and priority say so, or where the other depends on it and they do not
say otherwise. -/
def Precedes (v : FilterOrderValidator) (a b : FilterConfig) : Prop :=
  v.comesBefore a b ∨ v.inOrder a b ∧ a.name ∈ v.dependsOn b

theorem pair_sublist_reorder (h : Distinct filters) (hacyclic : TopologicalOrder.Acyclic (v.dependencyEdges filters))
    {a b : FilterConfig} (ha : a ∈ filters) (hb : b ∈ filters) (hprecedes : v.Precedes a b) :
    [a, b].Sublist (v.reorder iteration filters) := by
  obtain ⟨hperm, hpairs⟩ := @topologicalSort_of_acyclic v iteration filters h hacyclic
  rw [reorder_of_acyclic h hacyclic]
  rcases hprecedes with hbefore | ⟨horder, hdepends⟩
  · exact pair_sublist_of_comesBefore hbefore (hperm.mem_iff.mpr ha) (hperm.mem_iff.mpr hb)
  · exact pair_sublist_stableSort horder (hpairs a ha b hb hdepends)

/-! ### Validating the reordered chain -/

theorem ofWarnings_valid (warnings : List Bytes) : (ValidationResult.ofWarnings warnings).valid = true := by
  have hfold (result : ValidationResult) :
      (warnings.foldl ValidationResult.addWarning result).valid = result.valid := by
    induction warnings generalizing result with
    | nil => rfl
    | cons warning rest ih => exact ih _
  exact hfold .empty

theorem Distinct.filter_zipIdx (h : Distinct filters) :
    (filters.zipIdx.filter fun entry => entry.1.enabled) = filters.zipIdx := by
  refine List.filter_eq_self.mpr fun entry hentry => ?_
  exact h.enabled entry.1 (List.fst_mem_of_mem_zipIdx hentry)

/-- Where a filter stands in a chain of filters that are enabled under names that differ. -/
theorem Distinct.find?_positions (h : Distinct filters) {name : Bytes} {i : Nat} :
    (positions filters).find? name = some i ↔ ∃ hi : i < filters.length, (filters[i]).name = name := by
  have hkeys : ((filters.zipIdx.map fun entry => (entry.1.name, entry.2)).map Prod.fst).Nodup := by
    have hnames : (filters.zipIdx.map fun entry => (entry.1.name, entry.2)).map Prod.fst =
        (filters.zipIdx.map Prod.fst).map (·.name) := by
      rw [List.map_map, List.map_map]
      rfl
    rw [hnames, List.zipIdx_map_fst]
    exact h.names
  rw [positions, h.filter_zipIdx, OrdMap.find?_ofEntries_eq_some_iff hkeys, List.mem_map]
  constructor
  · rintro ⟨⟨filter, j⟩, hentry, heq⟩
    obtain ⟨rfl, rfl⟩ := Prod.mk.inj heq
    obtain ⟨hj, hfilter⟩ := List.getElem?_eq_some_iff.mp (List.mem_zipIdx_iff_getElem?.mp hentry)
    exact ⟨hj, congrArg _ hfilter⟩
  · rintro ⟨hi, rfl⟩
    exact ⟨(filters[i], i), List.mem_zipIdx_iff_getElem?.mpr (List.getElem?_eq_getElem hi), rfl⟩

theorem errorsOfEach_eq_nil {errors : FilterConfig → Nat → List Bytes}
    (h : ∀ (i : Nat) (hi : i < filters.length), errors filters[i] i = []) : errorsOfEach filters errors = [] := by
  refine List.flatMap_eq_nil_iff.mpr fun entry hentry => ?_
  obtain ⟨hi, hfilter⟩ := List.getElem?_eq_some_iff.mp (List.mem_zipIdx_iff_getElem?.mp hentry)
  rw [← hfilter, h entry.2 hi, ite_self]

theorem stageErrors_eq_nil {chainName : Bytes} {i : Nat} {prevStage : FilterStage} {prevFilter : Bytes}
    (hprev : ∀ filter ∈ filters, prevStage.toNat ≤ (v.getFilterStage filter.name).toNat)
    (horder : filters.Pairwise v.inOrder) : v.stageErrors chainName i prevStage prevFilter filters = [] := by
  induction filters generalizing i prevStage prevFilter with
  | nil => rfl
  | cons first rest ih =>
      obtain ⟨hfirst, hrest⟩ := List.pairwise_cons.mp horder
      have hlater : v.stageErrors chainName (i + 1) (v.getFilterStage first.name) first.name rest = [] :=
        ih (fun filter hfilter => stage_le_of_inOrder (hfirst filter hfilter)) hrest
      have hskip : v.stageErrors chainName (i + 1) prevStage prevFilter rest = [] :=
        ih (fun filter hfilter => hprev filter (List.mem_cons_of_mem _ hfilter)) hrest
      have hstage := hprev first List.mem_cons_self
      rw [stageErrors]
      split
      · exact hskip
      · rw [if_neg (by omega)]
        exact hlater

/-- What stands before another element stands at a lower index. -/
theorem lt_of_pair_sublist {α : Type} {l : List α} (hnodup : l.Nodup) {i j : Nat} (hi : i < l.length)
    (hj : j < l.length) (h : [l[i], l[j]].Sublist l) : i < j := by
  have hlower : l.Pairwise fun x y =>
      ∀ (i j : Nat) (hi : i < l.length) (hj : j < l.length), l[i] = x → l[j] = y → i < j := by
    refine List.pairwise_iff_getElem.mpr fun p q hp hq hpq i j hi hj hx hy => ?_
    rw [hnodup.getElem_inj_iff] at hx hy
    omega
  exact List.pairwise_iff_forall_sublist.mp hlower h i j hi hj rfl rfl

theorem Distinct.nodup (h : Distinct filters) : filters.Nodup := h.names.of_map

/-- A chain is valid that has everything it names, by stage, with what must come before something else before that. -/
theorem validate_of_placed (h : Distinct filters) (horder : filters.Pairwise v.inOrder)
    (hthere : ∀ filter ∈ filters, ∀ name ∈ v.dependsOn filter, name ∈ filters.map (·.name))
    (hbefore : ∀ a ∈ filters, ∀ b ∈ filters, a ≠ b → b.name ∈ (v.metadataOf a).before → [a, b].Sublist filters)
    (hafter : ∀ a ∈ filters, ∀ b ∈ filters, a ≠ b → a.name ∈ (v.metadataOf b).after → [a, b].Sublist filters)
    (htransport : v.transportType = .httpWithSse → ∃ a ∈ filters, ∃ b ∈ filters,
      a.name = ascii "http_codec" ∧ b.name = ascii "sse_codec" ∧ [a, b].Sublist filters) :
    (v.validate filters).1 = true := by
  have havailable (name : Bytes) : (available filters).contains name = true ↔ name ∈ filters.map (·.name) := by
    rw [available, h.filter_enabled, List.contains_iff_mem]
  have hstages : (v.validateStageOrdering filters []).valid = true := by
    rw [validateStageOrdering, stageErrors_eq_nil (fun _ _ => Nat.zero_le _) horder]
    rfl
  have hdependencies : (v.validateDependencies filters []).valid = true := by
    rw [validateDependencies, errorsOfEach_eq_nil]
    · rfl
    · intro i hi
      have hall := hthere filters[i] (List.getElem_mem hi)
      rw [List.append_eq_nil_iff, List.map_eq_nil_iff, List.map_eq_nil_iff, List.filter_eq_nil_iff,
        List.filter_eq_nil_iff]
      constructor
      · intro dep hdep
        rw [(havailable dep).mpr (hall dep (List.mem_append_left _ hdep))]
        exact Bool.false_ne_true
      · intro req hreq
        rw [(havailable req).mpr (hall req (List.mem_append_right _ hreq))]
        exact Bool.false_ne_true
  have hconstraints : (v.validateConstraints filters []).valid = true := by
    rw [validateConstraints, errorsOfEach_eq_nil]
    · rfl
    · intro i hi
      have hin := List.getElem_mem hi
      rw [List.append_eq_nil_iff, List.map_eq_nil_iff, List.map_eq_nil_iff, List.filter_eq_nil_iff,
        List.filter_eq_nil_iff]
      constructor
      · intro before hname hany
        obtain ⟨p, hfound, hlt⟩ := (Option.any_eq_true _ _).mp hany
        obtain ⟨hp, rfl⟩ := h.find?_positions.mp hfound
        have hlt := of_decide_eq_true hlt
        have hne : filters[i] ≠ filters[p] := fun heq => by
          have := h.nodup.getElem_inj_iff.mp heq
          omega
        have hpair := hbefore _ hin _ (List.getElem_mem hp) hne hname
        have := lt_of_pair_sublist h.nodup hi hp hpair
        omega
      · intro after hname hany
        obtain ⟨p, hfound, hlt⟩ := (Option.any_eq_true _ _).mp hany
        obtain ⟨hp, rfl⟩ := h.find?_positions.mp hfound
        have hlt := of_decide_eq_true hlt
        have hne : filters[p] ≠ filters[i] := fun heq => by
          have := h.nodup.getElem_inj_iff.mp heq
          omega
        have hpair := hafter _ (List.getElem_mem hp) _ hin hne hname
        have := lt_of_pair_sublist h.nodup hp hi hpair
        omega
  have hspecific : (v.validateTransportSpecific filters).valid = true := by
    rw [validateTransportSpecific]
    cases htype : v.transportType with
    | generic => rfl
    | tcp => rfl
    | http => exact ofWarnings_valid _
    | stdio => exact ofWarnings_valid _
    | webSocket => exact ofWarnings_valid _
    | httpWithSse =>
        obtain ⟨a, ha, b, hb, hhttp, hsse, hpair⟩ := htransport htype
        obtain ⟨p, hp, rfl⟩ := List.getElem_of_mem ha
        obtain ⟨q, hq, rfl⟩ := List.getElem_of_mem hb
        have hlt := lt_of_pair_sublist h.nodup hp hq hpair
        dsimp only
        rw [unlessThere, if_pos ((havailable _).mpr (hhttp ▸ List.mem_map_of_mem ha)), unlessThere,
          if_pos ((havailable _).mpr (hsse ▸ List.mem_map_of_mem hb)), h.find?_positions.mpr ⟨hp, hhttp⟩,
          h.find?_positions.mpr ⟨hq, hsse⟩]
        dsimp only
        rw [if_neg (by omega)]
        rfl
  rw [validate]
  split
  · rfl
  · simp [ValidationResult.merge, ValidationResult.empty, hstages, hdependencies, hconstraints, hspecific]

/-- Nothing that is named is missing, what must come before something else does by stage and priority or because that
depends on it, and the transport has what it needs. -/
structure Satisfiable (v : FilterOrderValidator) (filters : List FilterConfig) : Prop where
  there : ∀ filter ∈ filters, ∀ name ∈ v.dependsOn filter, name ∈ filters.map (·.name)
  before : ∀ a ∈ filters, ∀ b ∈ filters, a ≠ b → b.name ∈ (v.metadataOf a).before → v.Precedes a b
  after : ∀ a ∈ filters, ∀ b ∈ filters, a ≠ b → a.name ∈ (v.metadataOf b).after → v.Precedes a b
  transport : v.transportType = .httpWithSse → ∃ a ∈ filters, ∃ b ∈ filters,
    a.name = ascii "http_codec" ∧ b.name = ascii "sse_codec" ∧ v.Precedes a b

/-- A filter as the defaults of its fields leave it. -/
def plain (name : Bytes) (dependencies : List Bytes) : FilterConfig :=
  ⟨name, .emptyObject, true, dependencies, .null, 0⟩

/-- Keys in the order they are kept in. -/
def keyOrder : Iteration := ⟨id, fun _ => List.Perm.refl _⟩

/-- Two filters, the second of which the first depends on. -/
def codecs : List FilterConfig :=
  [plain (ascii "sse_codec") [ascii "http_codec"], plain (ascii "http_codec") []]

theorem distinct_codecs : Distinct codecs := ⟨by decide, by decide⟩

theorem satisfiable_codecs : new.Satisfiable codecs where
  there := by decide +kernel
  before a ha b hb hne hname := by
    have hsse : (new.metadataOf (plain (ascii "sse_codec") [ascii "http_codec"])).before = [] := by decide +kernel
    rcases List.mem_cons.mp ha with rfl | ha
    · exact absurd (hsse ▸ hname) List.not_mem_nil
    · obtain rfl := List.mem_singleton.mp ha
      rcases List.mem_cons.mp hb with rfl | hb
      · exact Or.inr ⟨by decide +kernel, by decide +kernel⟩
      · exact absurd (List.mem_singleton.mp hb).symm hne
  after a _ b hb _ hname := by
    have hnone : ∀ filter ∈ codecs, (new.metadataOf filter).after = [] := by decide +kernel
    exact absurd (hnone b hb ▸ hname) List.not_mem_nil
  transport h := absurd h (by decide +kernel)

/-- A filter of the first stage that depends on one of the last. -/
def lateDependency : List FilterConfig := [plain (ascii "json_rpc") [], plain (ascii "auth") [ascii "json_rpc"]]

/-- Two filters that depend on each other. -/
def eachOther : List FilterConfig := [plain (ascii "a") [ascii "b"], plain (ascii "b") [ascii "a"]]

theorem distinct_lateDependency : Distinct lateDependency := ⟨by decide, by decide⟩

end FilterOrderValidator

end GopherMcp
