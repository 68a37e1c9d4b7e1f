import GopherMcp.Server.TaskStore

/-!
# The keys of a question

A question puts its keys among the used and the outstanding ones and publishes a request under each.
Answers take keys out of the outstanding ones, and what is published shrinks to what is left.
-/

namespace GopherMcp

namespace TaskStore

variable {key : Bytes}

theorem isObject_of_mem_keys {json : JsonValue} (h : key ∈ json.keys) : json.isObject = true := by
  cases json <;> simp_all [JsonValue.keys, JsonValue.isObject]

/-! ### Asking -/

theorem mem_askKeys (requests : InputRequests) (keys : KeySet) :
    key ∈ (askKeys requests keys).keys ↔ key ∈ requests.keys ∨ key ∈ keys.keys := by
  unfold askKeys
  induction requests.keys generalizing keys with
  | nil => simp
  | cons asked rest ih =>
      rw [List.foldl_cons, ih, OrdMap.mem_keys_insert, List.mem_cons]
      tauto

/-- Setting a field for each of some keys adds these keys. -/
theorem mem_keys_foldl_set {json : JsonValue} (hobject : json.isObject = true) (keys : List Bytes)
    (value : Bytes → JsonValue) :
    (keys.foldl (fun json key => json.set key (value key)) json).isObject = true ∧
      (key ∈ (keys.foldl (fun json key => json.set key (value key)) json).keys ↔
        key ∈ keys ∨ key ∈ json.keys) := by
  induction keys generalizing json with
  | nil => simp [hobject]
  | cons asked rest ih =>
      obtain ⟨hset, hkeys⟩ := ih (JsonValue.isObject_set hobject asked (value asked))
      refine ⟨hset, ?_⟩
      rw [List.foldl_cons, hkeys, JsonValue.mem_keys_set hobject, List.mem_cons]
      tauto

theorem mem_askRequests (requests : InputRequests) (published : JsonValue) :
    key ∈ (askRequests requests published).keys ↔ key ∈ requests.keys ∨ key ∈ published.keys := by
  unfold askRequests
  split_ifs with hobject
  · exact (mem_keys_foldl_set hobject _ _).2
  · rw [(mem_keys_foldl_set rfl _ _).2]
    have hnone : key ∉ published.keys := fun hmem => hobject (isObject_of_mem_keys hmem)
    simp [hnone]

/-! ### Answering -/

/-- What an answer takes, it takes out. -/
theorem mem_takeAnswer_foldl (responses : JsonValue) (outstanding : KeySet) (keys : List Bytes)
    (taken : KeySet × Answers)
    (hleft : key ∈ taken.1.keys ↔ key ∈ outstanding.keys ∧ key ∉ taken.2.keys)
    (hanswers : key ∈ taken.2.keys → key ∈ outstanding.keys) :
    (key ∈ (keys.foldl (takeAnswer responses) taken).1.keys ↔
        key ∈ outstanding.keys ∧ key ∉ (keys.foldl (takeAnswer responses) taken).2.keys) ∧
      (key ∈ (keys.foldl (takeAnswer responses) taken).2.keys → key ∈ outstanding.keys) := by
  induction keys generalizing taken with
  | nil => exact ⟨hleft, hanswers⟩
  | cons given rest ih =>
      rw [List.foldl_cons, takeAnswer]
      split_ifs with hcontains
      · rw [OrdMap.contains_iff] at hcontains
        refine ih _ ?_ ?_
        · rw [OrdMap.mem_keys_erase, OrdMap.mem_keys_insert, hleft]
          tauto
        · rw [OrdMap.mem_keys_insert]
          rintro (rfl | hold)
          · exact (hleft.mp hcontains).1
          · exact hanswers hold
      · exact ih _ hleft hanswers

theorem mem_takeAnswers (responses : JsonValue) (outstanding : KeySet) (key : Bytes) :
    (key ∈ (takeAnswers responses outstanding).1.keys ↔
        key ∈ outstanding.keys ∧ key ∉ (takeAnswers responses outstanding).2.keys) ∧
      (key ∈ (takeAnswers responses outstanding).2.keys → key ∈ outstanding.keys) := by
  unfold takeAnswers
  split_ifs
  · exact mem_takeAnswer_foldl responses outstanding _ _ (by simp) (by simp)
  · simp

theorem mem_leftRequest_foldl (requests : JsonValue) (keys : List Bytes) {left : JsonValue}
    (hobject : left.isObject = true) :
    key ∈ (keys.foldl (leftRequest requests) left).keys ↔
      (key ∈ keys ∧ key ∈ requests.keys) ∨ key ∈ left.keys := by
  induction keys generalizing left with
  | nil => simp
  | cons head rest ih =>
      have hkept : (requests.isObject && requests.contains head) = true ↔ head ∈ requests.keys := by
        rw [Bool.and_eq_true, JsonValue.contains_iff_mem_keys]
        exact ⟨And.right, fun hmem => ⟨isObject_of_mem_keys hmem, hmem⟩⟩
      rw [List.foldl_cons, leftRequest]
      split_ifs with hhead
      · rw [ih (JsonValue.isObject_set hobject _ _), JsonValue.mem_keys_set hobject, List.mem_cons]
        have hmem := hkept.mp hhead
        constructor
        · rintro (⟨hrest, hrequested⟩ | rfl | hleft)
          · exact Or.inl ⟨Or.inr hrest, hrequested⟩
          · exact Or.inl ⟨Or.inl rfl, hmem⟩
          · exact Or.inr hleft
        · tauto
      · rw [ih hobject, List.mem_cons]
        have hnot : head ∉ requests.keys := fun hmem => hhead (hkept.mpr hmem)
        constructor
        · tauto
        · rintro (⟨rfl | hrest, hrequested⟩ | hleft)
          · exact absurd hrequested hnot
          · exact Or.inl ⟨hrest, hrequested⟩
          · exact Or.inr hleft

theorem mem_leftRequests (requests : JsonValue) (outstanding : KeySet) :
    key ∈ (leftRequests requests outstanding).keys ↔
      key ∈ outstanding.keys ∧ key ∈ requests.keys := by
  rw [leftRequests, mem_leftRequest_foldl requests outstanding.keys rfl]
  simp

end TaskStore

end GopherMcp
