import Mathlib

/-!
# Maps kept in key order

An ordered map is the list of its entries, strictly increasing in the key, so two entries never
share one and walking the map visits the keys in order. The list functions come first and need no
ordering to be right about look-ups; the structure carries the ordering, which is what makes an
entry of the list and a successful look-up the same thing.
-/

namespace OrdMap

variable {κ ν : Type}

/-! ### Entry lists -/

/-- The value under a key. -/
def findEntry [DecidableEq κ] (key : κ) : List (κ × ν) → Option ν
  | [] => none
  | (k, value) :: rest => if k = key then some value else findEntry key rest

/-- Put a value under a key, in place of the one there, else where the order puts it. -/
def insertEntry [LinearOrder κ] (key : κ) (value : ν) : List (κ × ν) → List (κ × ν)
  | [] => [(key, value)]
  | (k, old) :: rest =>
      if key < k then (key, value) :: (k, old) :: rest
      else if key = k then (key, value) :: rest
      else (k, old) :: insertEntry key value rest

theorem findEntry_insertEntry_self [LinearOrder κ] [DecidableEq κ] (key : κ) (value : ν)
    (entries : List (κ × ν)) :
    findEntry key (insertEntry key value entries) = some value := by
  induction entries with
  | nil => simp [insertEntry, findEntry]
  | cons entry rest ih =>
      obtain ⟨k, old⟩ := entry
      rw [insertEntry]
      split_ifs with hlt heq
      · simp [findEntry]
      · simp [findEntry]
      · simp [findEntry, Ne.symm heq, ih]

theorem findEntry_insertEntry_of_ne [LinearOrder κ] [DecidableEq κ] {key other : κ} (hne : other ≠ key)
    (value : ν) (entries : List (κ × ν)) :
    findEntry other (insertEntry key value entries) = findEntry other entries := by
  induction entries with
  | nil => simp [insertEntry, findEntry, hne.symm]
  | cons entry rest ih =>
      obtain ⟨k, old⟩ := entry
      rw [insertEntry]
      split_ifs with hlt heq
      · simp [findEntry, hne.symm]
      · subst heq
        simp [findEntry, hne.symm]
      · by_cases hk : k = other <;> simp [findEntry, hk, ih]

theorem mem_of_findEntry [DecidableEq κ] {key : κ} {value : ν} {entries : List (κ × ν)}
    (h : findEntry key entries = some value) : (key, value) ∈ entries := by
  induction entries with
  | nil => simp [findEntry] at h
  | cons entry rest ih =>
      obtain ⟨k, old⟩ := entry
      rw [findEntry] at h
      split_ifs at h with heq
      · cases h
        simp [heq]
      · exact List.mem_cons_of_mem _ (ih h)

theorem findEntry_eq_none_iff [DecidableEq κ] {key : κ} {entries : List (κ × ν)} :
    findEntry key entries = none ↔ key ∉ entries.map Prod.fst := by
  induction entries with
  | nil => simp [findEntry]
  | cons entry rest ih =>
      obtain ⟨k, old⟩ := entry
      by_cases hk : k = key
      · simp [findEntry, hk]
      · simp [findEntry, hk, ih, Ne.symm hk]

theorem mem_insertEntry [LinearOrder κ] {key : κ} {value : ν} {entry : κ × ν}
    {entries : List (κ × ν)} (h : entry ∈ insertEntry key value entries) :
    entry = (key, value) ∨ entry ∈ entries := by
  induction entries with
  | nil => simpa [insertEntry] using h
  | cons head rest ih =>
      obtain ⟨k, old⟩ := head
      rw [insertEntry] at h
      split_ifs at h with hlt heq
      · simpa using h
      · rcases List.mem_cons.mp h with rfl | hrest
        · exact Or.inl rfl
        · exact Or.inr (List.mem_cons_of_mem _ hrest)
      · rcases List.mem_cons.mp h with rfl | hrest
        · exact Or.inr List.mem_cons_self
        · exact (ih hrest).imp id (List.mem_cons_of_mem _)

theorem mem_keys_insertEntry [LinearOrder κ] (key other : κ) (value : ν) (entries : List (κ × ν)) :
    other ∈ (insertEntry key value entries).map Prod.fst ↔
      other = key ∨ other ∈ entries.map Prod.fst := by
  induction entries with
  | nil => simp [insertEntry]
  | cons head rest ih =>
      obtain ⟨k, old⟩ := head
      rw [insertEntry]
      split_ifs with hlt heq
      · simp
      · subst heq
        simp
      · simp only [List.map_cons, List.mem_cons, ih]
        tauto

/-- The order an entry list is kept in. -/
def EntriesSorted [LinearOrder κ] (entries : List (κ × ν)) : Prop :=
  entries.Pairwise fun left right => left.1 < right.1

theorem entriesSorted_insertEntry [LinearOrder κ] {entries : List (κ × ν)}
    (h : EntriesSorted entries) (key : κ) (value : ν) :
    EntriesSorted (insertEntry key value entries) := by
  induction entries with
  | nil => simp [EntriesSorted, insertEntry]
  | cons head rest ih =>
      obtain ⟨k, old⟩ := head
      obtain ⟨hhead, hrest⟩ := List.pairwise_cons.mp h
      rw [insertEntry]
      split_ifs with hlt heq
      · refine List.pairwise_cons.mpr ⟨fun entry hentry => ?_, h⟩
        rcases List.mem_cons.mp hentry with rfl | hentry
        · exact hlt
        · exact hlt.trans (hhead entry hentry)
      · subst heq
        exact List.pairwise_cons.mpr ⟨hhead, hrest⟩
      · refine List.pairwise_cons.mpr ⟨fun entry hentry => ?_, ih hrest⟩
        rcases mem_insertEntry hentry with rfl | hentry
        · exact lt_of_le_of_ne (not_lt.mp hlt) (Ne.symm heq)
        · exact hhead entry hentry

theorem findEntry_of_mem [LinearOrder κ] [DecidableEq κ] {entries : List (κ × ν)}
    (h : EntriesSorted entries) {key : κ} {value : ν} (hmem : (key, value) ∈ entries) :
    findEntry key entries = some value := by
  induction entries with
  | nil => simp at hmem
  | cons head rest ih =>
      obtain ⟨k, old⟩ := head
      obtain ⟨hhead, hrest⟩ := List.pairwise_cons.mp h
      rcases List.mem_cons.mp hmem with heq | htail
      · cases heq
        simp [findEntry]
      · have hne : k ≠ key := (hhead _ htail).ne
        rw [findEntry, if_neg hne]
        exact ih hrest htail

/-- Taking keys out leaves the order alone. -/
theorem entriesSorted_filter [LinearOrder κ] {entries : List (κ × ν)} (h : EntriesSorted entries)
    (keep : κ × ν → Bool) : EntriesSorted (entries.filter keep) :=
  h.sublist List.filter_sublist

theorem findEntry_filter_ne [DecidableEq κ] {key other : κ} (hne : other ≠ key)
    (entries : List (κ × ν)) :
    findEntry other (entries.filter fun entry => entry.1 ≠ key) = findEntry other entries := by
  induction entries with
  | nil => rfl
  | cons head rest ih =>
      obtain ⟨k, old⟩ := head
      by_cases hk : k = key
      · subst hk
        simpa [findEntry, hne.symm] using ih
      · rw [List.filter_cons_of_pos (by simpa using hk), findEntry, findEntry]
        split_ifs with hother
        · rfl
        · exact ih

/-- An insertion puts one entry beside those under other keys. -/
theorem insertEntry_perm [LinearOrder κ] {entries : List (κ × ν)} (h : EntriesSorted entries)
    (key : κ) (value : ν) :
    List.Perm (insertEntry key value entries)
      ((key, value) :: entries.filter fun entry => entry.1 ≠ key) := by
  induction entries with
  | nil => exact List.Perm.refl _
  | cons head rest ih =>
      obtain ⟨k, old⟩ := head
      obtain ⟨hhead, hrest⟩ := List.pairwise_cons.mp h
      have hkept (hle : key ≤ k) : (rest.filter fun entry => entry.1 ≠ key) = rest := by
        apply List.filter_eq_self.mpr
        intro entry hentry
        simpa using (hle.trans_lt (hhead entry hentry)).ne'
      rw [insertEntry]
      split_ifs with hlt heq
      · rw [List.filter_cons_of_pos (by simpa using hlt.ne'), hkept hlt.le]
      · rw [List.filter_cons_of_neg (by simp [heq]), hkept heq.le]
      · rw [List.filter_cons_of_pos (by simpa using Ne.symm heq)]
        exact (List.Perm.cons _ (ih hrest)).trans (List.Perm.swap _ _ _)

/-- Putting back what is there changes nothing. -/
theorem insertEntry_of_findEntry [LinearOrder κ] [DecidableEq κ] {entries : List (κ × ν)}
    (h : EntriesSorted entries) {key : κ} {value : ν} (hfind : findEntry key entries = some value) :
    insertEntry key value entries = entries := by
  induction entries with
  | nil => simp [findEntry] at hfind
  | cons head rest ih =>
      obtain ⟨k, old⟩ := head
      obtain ⟨hhead, hrest⟩ := List.pairwise_cons.mp h
      rw [findEntry] at hfind
      rw [insertEntry]
      split_ifs at hfind with heq
      · cases hfind
        rw [if_neg (by simp [heq]), if_pos heq.symm, heq]
      · have hlt : k < key := hhead _ (mem_of_findEntry hfind)
        rw [if_neg hlt.not_gt, if_neg (Ne.symm heq), ih hrest hfind]

/-- What is put in last counts. -/
theorem insertEntry_insertEntry_self [LinearOrder κ] (key : κ) (value old : ν) (entries : List (κ × ν)) :
    insertEntry key value (insertEntry key old entries) = insertEntry key value entries := by
  induction entries with
  | nil => simp [insertEntry]
  | cons head rest ih =>
      obtain ⟨k, older⟩ := head
      by_cases hlt : key < k
      · simp [insertEntry, hlt]
      · by_cases heq : key = k
        · simp [insertEntry, heq]
        · rw [insertEntry, if_neg hlt, if_neg heq, insertEntry, if_neg hlt, if_neg heq, insertEntry,
            if_neg hlt, if_neg heq, ih]

/-- In key order, entry lists that look the same are the same. -/
theorem entriesSorted_ext [LinearOrder κ] [DecidableEq κ] {left right : List (κ × ν)} (hleft : EntriesSorted left)
    (hright : EntriesSorted right) (h : ∀ key, findEntry key left = findEntry key right) : left = right := by
  have hmem (entry : κ × ν) : entry ∈ left ↔ entry ∈ right := by
    constructor
    · intro hentry
      exact mem_of_findEntry ((h entry.1).symm.trans (findEntry_of_mem hleft hentry))
    · intro hentry
      exact mem_of_findEntry ((h entry.1).trans (findEntry_of_mem hright hentry))
  have hperm : List.Perm left right :=
    (List.perm_ext_iff_of_nodup (hleft.imp fun hlt heq => absurd (congrArg Prod.fst heq) hlt.ne)
      (hright.imp fun hlt heq => absurd (congrArg Prod.fst heq) hlt.ne)).mpr hmem
  apply List.Perm.eq_of_pairwise _ hleft hright hperm
  intro first second _ _ hlt hgt
  exact absurd hgt hlt.not_gt

end OrdMap

/-! ### The map -/

/-- A map from keys to values, held as its entries in strictly increasing key order. -/
structure OrdMap (κ ν : Type) [LinearOrder κ] where
  entries : List (κ × ν)
  sorted : OrdMap.EntriesSorted entries

namespace OrdMap

variable {κ ν : Type} [LinearOrder κ]

def empty : OrdMap κ ν := ⟨[], List.Pairwise.nil⟩

def find? (m : OrdMap κ ν) (key : κ) : Option ν := findEntry key m.entries

def insert (m : OrdMap κ ν) (key : κ) (value : ν) : OrdMap κ ν :=
  ⟨insertEntry key value m.entries, entriesSorted_insertEntry m.sorted key value⟩

def erase (m : OrdMap κ ν) (key : κ) : OrdMap κ ν :=
  ⟨m.entries.filter fun entry => entry.1 ≠ key, entriesSorted_filter m.sorted _⟩

/-- The entries that satisfy a test. -/
def filter (m : OrdMap κ ν) (keep : κ → ν → Bool) : OrdMap κ ν :=
  ⟨m.entries.filter fun entry => keep entry.1 entry.2, entriesSorted_filter m.sorted _⟩

def contains (m : OrdMap κ ν) (key : κ) : Bool := (m.find? key).isSome

def keys (m : OrdMap κ ν) : List κ := m.entries.map Prod.fst

def values (m : OrdMap κ ν) : List ν := m.entries.map Prod.snd

@[simp] theorem find?_empty (key : κ) : (empty : OrdMap κ ν).find? key = none := rfl

@[simp] theorem find?_insert_self (m : OrdMap κ ν) (key : κ) (value : ν) :
    (m.insert key value).find? key = some value :=
  findEntry_insertEntry_self key value m.entries

@[simp] theorem insert_insert_self (m : OrdMap κ ν) (key : κ) (value old : ν) :
    (m.insert key old).insert key value = m.insert key value := by
  unfold insert
  congr 1
  exact insertEntry_insertEntry_self key value old m.entries

theorem find?_insert_of_ne (m : OrdMap κ ν) {key other : κ} (hne : other ≠ key) (value : ν) :
    (m.insert key value).find? other = m.find? other :=
  findEntry_insertEntry_of_ne hne value m.entries

theorem find?_insert (m : OrdMap κ ν) (key other : κ) (value : ν) :
    (m.insert key value).find? other = if other = key then some value else m.find? other := by
  split_ifs with h
  · subst h
    exact find?_insert_self m other value
  · exact find?_insert_of_ne m h value

@[simp] theorem find?_erase_self (m : OrdMap κ ν) (key : κ) : (m.erase key).find? key = none := by
  refine findEntry_eq_none_iff.mpr fun hmem => ?_
  obtain ⟨entry, hentry, hkey⟩ := List.mem_map.mp hmem
  exact absurd hkey (by simpa using (List.mem_filter.mp hentry).2)

theorem find?_erase_of_ne (m : OrdMap κ ν) {key other : κ} (hne : other ≠ key) :
    (m.erase key).find? other = m.find? other :=
  findEntry_filter_ne hne m.entries

theorem find?_erase (m : OrdMap κ ν) (key other : κ) :
    (m.erase key).find? other = if other = key then none else m.find? other := by
  split_ifs with h
  · subst h
    exact find?_erase_self m other
  · exact find?_erase_of_ne m h

/-- Maps that look the same are the same. -/
theorem eq_of_find?_eq {left right : OrdMap κ ν} (h : ∀ key, left.find? key = right.find? key) : left = right := by
  obtain ⟨entries, hleft⟩ := left
  obtain ⟨others, hright⟩ := right
  obtain rfl : entries = others := entriesSorted_ext hleft hright h
  rfl

@[simp] theorem insert_erase_self (m : OrdMap κ ν) (key : κ) (value : ν) :
    (m.erase key).insert key value = m.insert key value := by
  apply eq_of_find?_eq
  intro other
  rw [find?_insert, find?_insert, find?_erase]
  split_ifs <;> rfl

theorem find?_erase_eq_some_iff {m : OrdMap κ ν} {key other : κ} {value : ν} :
    (m.erase key).find? other = some value ↔ m.find? other = some value ∧ other ≠ key := by
  rw [find?_erase]
  split_ifs with hother
  · simp [hother]
  · simp [hother]

/-- Walking the map and looking keys up in it see the same entries. -/
theorem mem_entries_iff (m : OrdMap κ ν) {key : κ} {value : ν} :
    (key, value) ∈ m.entries ↔ m.find? key = some value :=
  ⟨findEntry_of_mem m.sorted, mem_of_findEntry⟩

theorem mem_keys_iff (m : OrdMap κ ν) {key : κ} : key ∈ m.keys ↔ (m.find? key).isSome := by
  rw [keys, find?, Option.isSome_iff_ne_none, ne_eq, findEntry_eq_none_iff, not_not]

theorem contains_iff (m : OrdMap κ ν) (key : κ) : m.contains key = true ↔ key ∈ m.keys := by
  rw [mem_keys_iff, contains]

@[simp] theorem keys_empty : (empty : OrdMap κ ν).keys = [] := rfl

theorem keys_eq_nil_iff (m : OrdMap κ ν) : m.keys = [] ↔ m.entries.isEmpty = true := by
  rw [keys, List.map_eq_nil_iff, List.isEmpty_iff]

theorem mem_keys_insert (m : OrdMap κ ν) (key other : κ) (value : ν) :
    other ∈ (m.insert key value).keys ↔ other = key ∨ other ∈ m.keys :=
  mem_keys_insertEntry key other value m.entries

theorem mem_keys_erase (m : OrdMap κ ν) (key other : κ) :
    other ∈ (m.erase key).keys ↔ other ∈ m.keys ∧ other ≠ key := by
  rw [mem_keys_iff, mem_keys_iff, find?_erase]
  split_ifs with h <;> simp [h]

theorem mem_values_iff (m : OrdMap κ ν) {value : ν} :
    value ∈ m.values ↔ ∃ key, m.find? key = some value := by
  simp only [values, List.mem_map, Prod.exists, mem_entries_iff, exists_eq_right]

theorem find?_filter (m : OrdMap κ ν) (keep : κ → ν → Bool) (key : κ) :
    (m.filter keep).find? key = (m.find? key).filter (keep key) := by
  cases hfind : m.find? key with
  | none =>
      rw [Option.filter_none]
      refine findEntry_eq_none_iff.mpr fun hmem => findEntry_eq_none_iff.mp hfind ?_
      obtain ⟨entry, hentry, hkey⟩ := List.mem_map.mp hmem
      exact List.mem_map.mpr ⟨entry, List.mem_of_mem_filter hentry, hkey⟩
  | some value =>
      have hmem := mem_of_findEntry hfind
      cases hkeep : keep key value with
      | true =>
          rw [Option.filter_some_pos hkeep]
          exact findEntry_of_mem (m.filter keep).sorted (List.mem_filter.mpr ⟨hmem, hkeep⟩)
      | false =>
          rw [Option.filter_some_neg (by simp [hkeep])]
          refine findEntry_eq_none_iff.mpr fun hin => ?_
          obtain ⟨⟨k, other⟩, hentry, hkey⟩ := List.mem_map.mp hin
          obtain ⟨hother, hkept⟩ := List.mem_filter.mp hentry
          subst hkey
          have hsame := (findEntry_of_mem m.sorted hother).symm.trans hfind
          cases hsame
          simp [hkeep] at hkept

/-- What the values weigh together. -/
def total (weight : ν → Nat) (m : OrdMap κ ν) : Nat := (m.values.map weight).sum

@[simp] theorem total_empty (weight : ν → Nat) : (empty : OrdMap κ ν).total weight = 0 := rfl

/-- The weight under one key and the weight of the rest. -/
theorem total_insert (weight : ν → Nat) (m : OrdMap κ ν) (key : κ) (value : ν) :
    (m.insert key value).total weight = (m.erase key).total weight + weight value := by
  have hperm := (insertEntry_perm m.sorted key value).map fun entry => weight entry.2
  have hsum := hperm.sum_eq
  rw [List.map_cons, List.sum_cons, Nat.add_comm] at hsum
  simpa [total, values, insert, erase, Function.comp_def] using hsum

theorem total_of_find? (weight : ν → Nat) {m : OrdMap κ ν} {key : κ} {value : ν}
    (h : m.find? key = some value) :
    m.total weight = (m.erase key).total weight + weight value := by
  have hsame : (m.insert key value).entries = m.entries := insertEntry_of_findEntry m.sorted h
  rw [← total_insert, total, total, values, values, hsame]

/-- A key that is not there has nothing to take out. -/
theorem erase_of_find?_eq_none {m : OrdMap κ ν} {key : κ} (h : m.find? key = none) :
    m.erase key = m := by
  obtain ⟨entries, sorted⟩ := m
  simp only [erase, mk.injEq]
  apply List.filter_eq_self.mpr
  intro entry hentry
  have hnot := findEntry_eq_none_iff.mp h
  simp only [ne_eq, decide_not, Bool.not_eq_eq_eq_not, Bool.not_true, decide_eq_false_iff_not]
  intro hkey
  exact hnot (hkey ▸ List.mem_map_of_mem hentry)

def size (m : OrdMap κ ν) : Nat := m.entries.length

theorem size_eq_total (m : OrdMap κ ν) : m.size = m.total fun _ => 1 := by
  rw [size, total, values, List.map_map, Function.comp_def, List.map_const', List.sum_replicate,
    smul_eq_mul, Nat.mul_one]

theorem size_insert (m : OrdMap κ ν) (key : κ) (value : ν) :
    (m.insert key value).size = (m.erase key).size + 1 := by
  rw [size_eq_total, size_eq_total, total_insert]

theorem size_of_find? {m : OrdMap κ ν} {key : κ} {value : ν} (h : m.find? key = some value) :
    m.size = (m.erase key).size + 1 := by
  rw [size_eq_total, size_eq_total, total_of_find? _ h]

/-- Entries put in one after another. -/
def ofEntries (entries : List (κ × ν)) : OrdMap κ ν :=
  entries.foldl (fun m entry => m.insert entry.1 entry.2) empty

theorem insertEntry_of_lt {key : κ} (value : ν) {entries : List (κ × ν)}
    (h : ∀ entry ∈ entries, entry.1 < key) : insertEntry key value entries = entries ++ [(key, value)] := by
  induction entries with
  | nil => rfl
  | cons entry rest ih =>
      obtain ⟨k, old⟩ := entry
      have hlt : k < key := h (k, old) List.mem_cons_self
      rw [insertEntry, if_neg hlt.not_gt, if_neg hlt.ne',
        ih fun other hother => h other (List.mem_cons_of_mem _ hother), List.cons_append]

/-- Put in again in their order, the entries of a map make the map. -/
theorem ofEntries_entries (m : OrdMap κ ν) : ofEntries m.entries = m := by
  have hall (before after : List (κ × ν)) (hsorted : EntriesSorted (before ++ after)) (built : OrdMap κ ν)
      (hbuilt : built.entries = before) :
      (after.foldl (fun m entry => m.insert entry.1 entry.2) built).entries = before ++ after := by
    induction after generalizing before built with
    | nil => rw [List.foldl_nil, List.append_nil, hbuilt]
    | cons entry rest ih =>
        have hlt : ∀ other ∈ before, other.1 < entry.1 := by
          intro other hother
          exact (List.pairwise_append.mp hsorted).2.2 other hother entry List.mem_cons_self
        have hnext : (built.insert entry.1 entry.2).entries = before ++ [entry] := by
          change insertEntry entry.1 entry.2 built.entries = _
          rw [hbuilt, insertEntry_of_lt entry.2 hlt]
        rw [← List.singleton_append, ← List.append_assoc] at hsorted ⊢
        exact ih (before ++ [entry]) hsorted _ hnext
  have hentries := hall [] m.entries m.sorted empty rfl
  obtain ⟨entries, sorted⟩ := m
  rw [OrdMap.mk.injEq]
  exact hentries

/-- Where no key comes twice, each entry put in is there. -/
theorem find?_ofEntries {entries : List (κ × ν)} (h : (entries.map Prod.fst).Nodup) (key : κ) :
    (ofEntries entries).find? key = findEntry key entries := by
  have hfold (entries : List (κ × ν)) (hnodup : (entries.map Prod.fst).Nodup) (m : OrdMap κ ν) :
      (entries.foldl (fun m entry => m.insert entry.1 entry.2) m).find? key =
        (findEntry key entries).or (m.find? key) := by
    induction entries generalizing m with
    | nil => rfl
    | cons entry rest ih =>
        obtain ⟨k, value⟩ := entry
        rw [List.map_cons, List.nodup_cons] at hnodup
        rw [List.foldl_cons, ih hnodup.2, find?_insert, findEntry]
        by_cases hkey : k = key
        · subst hkey
          rw [if_pos rfl, if_pos rfl, findEntry_eq_none_iff.mpr hnodup.1]
          rfl
        · rw [if_neg hkey, if_neg (Ne.symm hkey)]
  rw [ofEntries, hfold entries h, find?_empty, Option.or_none]

theorem find?_ofEntries_eq_some_iff {entries : List (κ × ν)} (h : (entries.map Prod.fst).Nodup) {key : κ}
    {value : ν} : (ofEntries entries).find? key = some value ↔ (key, value) ∈ entries := by
  rw [find?_ofEntries h]
  constructor
  · exact mem_of_findEntry
  · intro hentry
    cases hfound : findEntry key entries with
    | none => exact absurd (List.mem_map_of_mem hentry) (findEntry_eq_none_iff.mp hfound)
    | some other =>
        have hsame := List.inj_on_of_nodup_map h (mem_of_findEntry hfound) hentry rfl
        rw [(Prod.mk.inj hsame).2]

theorem nodup_keys (m : OrdMap κ ν) : m.keys.Nodup :=
  List.pairwise_map.mpr (m.sorted.imp fun h => h.ne)

/-- A map with its keys renamed, where no two among `names` get the same name. -/
theorem find?_ofEntries_rename {κ' : Type} [LinearOrder κ'] {rename : κ → κ'} {m : OrdMap κ ν} {names : List κ}
    (hnodup : (names.map rename).Nodup) (hkeys : ∀ key ∈ m.keys, key ∈ names) {key : κ} (hkey : key ∈ names) :
    (ofEntries (m.entries.map fun entry => (rename entry.1, entry.2))).find? (rename key) = m.find? key := by
  have hinj := List.inj_on_of_nodup_map hnodup
  have hrenamed : (m.entries.map fun entry => (rename entry.1, entry.2)).map Prod.fst = m.keys.map rename := by
    rw [List.map_map, keys, List.map_map]
    rfl
  rw [find?_ofEntries]
  · have hfind (entries : List (κ × ν)) (h : ∀ other ∈ entries.map Prod.fst, other ∈ names) :
        findEntry (rename key) (entries.map fun entry => (rename entry.1, entry.2)) = findEntry key entries := by
      induction entries with
      | nil => rfl
      | cons entry rest ih =>
          rw [List.map_cons, List.forall_mem_cons] at h
          rw [List.map_cons, findEntry, findEntry, ih h.2]
          by_cases hsame : entry.1 = key
          · rw [if_pos hsame, if_pos (congrArg rename hsame)]
          · rw [if_neg hsame, if_neg fun hname => hsame (hinj h.1 hkey hname)]
    exact hfind m.entries hkeys
  · rw [hrenamed]
    exact m.nodup_keys.map_on fun left hleft right hright hname =>
      hinj (hkeys left hleft) (hkeys right hright) hname

/-! ### Walking the map -/

section Walk

variable {σ τ : Type} {visit : σ → κ × ν → σ} (part : σ → τ)

/-- A walk leaves alone what no entry touches. -/
theorem foldl_entries_of_untouched (h : ∀ s entry, part (visit s entry) = part s) (m : OrdMap κ ν) (s : σ) :
    part (m.entries.foldl visit s) = part s :=
  List.foldlRecOn m.entries visit (motive := fun t => part t = part s) rfl
    fun t ht entry _ => (h t entry).trans ht

/-- What only the entry under one key touches is left as that entry leaves it. -/
theorem foldl_entries_of_key {key : κ} {value : ν → τ} (hkey : ∀ s v, part (visit s (key, v)) = value v)
    (hother : ∀ s entry, entry.1 ≠ key → part (visit s entry) = part s) (m : OrdMap κ ν) (s : σ) :
    part (m.entries.foldl visit s) = (m.find? key).elim (part s) value := by
  obtain ⟨entries, hsorted⟩ := m
  show _ = (findEntry key entries).elim (part s) value
  induction entries generalizing s with
  | nil => rfl
  | cons entry rest ih =>
      obtain ⟨k, v⟩ := entry
      obtain ⟨hfirst, hrest⟩ := List.pairwise_cons.mp hsorted
      rw [List.foldl_cons, ih (visit s (k, v)) hrest, findEntry]
      split_ifs with hk
      · subst hk
        have hnone : findEntry k rest = none := by
          refine findEntry_eq_none_iff.mpr fun hin => ?_
          obtain ⟨other, hother, hname⟩ := List.mem_map.mp hin
          exact absurd hname (hfirst other hother).ne'
        rw [hnone]
        exact hkey s v
      · rw [hother s (k, v) hk]

end Walk

/-! ### Entries that may have no value -/

/-- Put an entry in if it has a value. -/
def insertSome (m : OrdMap κ ν) (entry : κ × Option ν) : OrdMap κ ν :=
  match entry.2 with
  | some value => m.insert entry.1 value
  | none => m

theorem find?_insertSome_of_ne (m : OrdMap κ ν) {entry : κ × Option ν} {key : κ} (hne : key ≠ entry.1) :
    (m.insertSome entry).find? key = m.find? key := by
  unfold insertSome
  cases entry.2 with
  | none => rfl
  | some value => rw [find?_insert, if_neg hne]

theorem find?_foldl_insertSome_of_not_mem (m : OrdMap κ ν) {entries : List (κ × Option ν)} {key : κ}
    (h : key ∉ entries.map Prod.fst) : (entries.foldl insertSome m).find? key = m.find? key := by
  induction entries generalizing m with
  | nil => rfl
  | cons entry rest ih =>
      rw [List.map_cons, List.mem_cons, not_or] at h
      rw [List.foldl_cons, ih _ h.2, find?_insertSome_of_ne m h.1]

/-- Under keys that differ and are not there yet, each entry has its own value. -/
theorem find?_foldl_insertSome {m : OrdMap κ ν} {entries : List (κ × Option ν)} {key : κ} {value : Option ν}
    (hnodup : (entries.map Prod.fst).Nodup) (hentry : (key, value) ∈ entries) (hfresh : m.find? key = none) :
    (entries.foldl insertSome m).find? key = value := by
  obtain ⟨before, after, rfl⟩ := List.append_of_mem hentry
  rw [List.map_append, List.map_cons, List.nodup_append] at hnodup
  obtain ⟨-, hafter, hapart⟩ := hnodup
  have hbefore : key ∉ before.map Prod.fst := fun hmem => hapart key hmem key List.mem_cons_self rfl
  rw [List.foldl_append, List.foldl_cons,
    find?_foldl_insertSome_of_not_mem _ (List.nodup_cons.mp hafter).1]
  cases value with
  | none => rw [insertSome, find?_foldl_insertSome_of_not_mem _ hbefore, hfresh]
  | some value => rw [insertSome, find?_insert_self]

end OrdMap
