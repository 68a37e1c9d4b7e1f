import GopherMcp.Config.Versions

/-!
# Versions that can be trusted

A version id says the second and the number it was made with, so two versions of the history have the same id only if
they were made in the same second with the same four digits of the number. The version that a thread is told is the
one it last loaded, and that is the current one as long as no reload and no rollback puts another in its place.
-/

namespace GopherMcp

/-! ### What an id says -/

theorem length_padded (width n : Nat) : (padded width n).length = width := by
  induction width generalizing n with
  | zero => rfl
  | succ width ih => rw [padded, List.length_append, ih, List.length_singleton]

theorem digit_inj {a b : Nat} (ha : a < 10) (hb : b < 10) (h : UInt8.ofNat (48 + a) = UInt8.ofNat (48 + b)) : a = b := by
  have hnat := congrArg UInt8.toNat h
  rw [UInt8.toNat_ofNat', UInt8.toNat_ofNat'] at hnat
  omega

theorem padded_inj {width n other : Nat} (hn : n < 10 ^ width) (hother : other < 10 ^ width)
    (h : padded width n = padded width other) : n = other := by
  induction width generalizing n other with
  | zero =>
      rw [pow_zero, Nat.lt_one_iff] at hn hother
      rw [hn, hother]
  | succ width ih =>
      rw [pow_succ] at hn hother
      obtain ⟨hfront, hlast⟩ := List.append_inj' h rfl
      have htens := ih (Nat.div_lt_of_lt_mul (by omega)) (Nat.div_lt_of_lt_mul (by omega)) hfront
      have hones := digit_inj (Nat.mod_lt n (by decide)) (Nat.mod_lt other (by decide)) (List.cons.inj hlast).1
      omega

theorem yearText_injective : Function.Injective yearText := by
  intro year other h
  have hdash (n m : Nat) : ascii "-" ++ toDecimal n ≠ toDecimal m := by
    intro hsame
    have hmem : (45 : UInt8) ∈ toDecimal m := by
      rw [← hsame]
      exact List.mem_append_left _ (by decide)
    exact absurd (toNat_of_mem_toDecimal hmem).1 (by decide)
  unfold yearText at h
  split_ifs at h with hyear hother hother
  · have habs := toDecimal_injective (List.append_cancel_left h)
    omega
  · exact absurd h (hdash _ _)
  · exact absurd h.symm (hdash _ _)
  · have habs := toDecimal_injective h
    omega

/-- A second is told by its text. -/
theorem timeText_inj {second other : Int}
    (h : timeText (CivilTime.ofSeconds second) = timeText (CivilTime.ofSeconds other)) : second = other := by
  obtain ⟨hmonth, hday, hhour, hminute, hsecond⟩ := CivilTime.ofSeconds_range second
  obtain ⟨hmonth', hday', hhour', hminute', hsecond'⟩ := CivilTime.ofSeconds_range other
  obtain ⟨hyear, hrest⟩ := List.append_inj' h (by simp only [List.length_append, length_padded])
  obtain ⟨hrest, hsecondText⟩ := List.append_inj' hrest (by simp only [length_padded])
  obtain ⟨hrest, hminuteText⟩ := List.append_inj' hrest (by simp only [length_padded])
  obtain ⟨hrest, hhourText⟩ := List.append_inj' hrest (by simp only [length_padded])
  obtain ⟨hrest, -⟩ := List.append_inj' hrest rfl
  obtain ⟨hmonthText, hdayText⟩ := List.append_inj' hrest (by simp only [length_padded])
  apply CivilTime.ofSeconds_injective
  apply CivilTime.ext
  · exact yearText_injective hyear
  · exact padded_inj hmonth hmonth' hmonthText
  · exact padded_inj hday hday' hdayText
  · exact padded_inj hhour hhour' hhourText
  · exact padded_inj hminute hminute' hminuteText
  · exact padded_inj hsecond hsecond' hsecondText

theorem versionIdOf_eq_iff {second other : Int} {count number : Nat} :
    versionIdOf second count = versionIdOf other number ↔ second = other ∧ count % 10000 = number % 10000 := by
  constructor
  · intro h
    obtain ⟨htime, hnumber⟩ := List.append_inj' h (by simp only [List.length_append, length_padded])
    have hdigits := List.append_cancel_left hnumber
    exact ⟨timeText_inj htime, padded_inj (Nat.mod_lt _ (by decide)) (Nat.mod_lt _ (by decide)) hdigits⟩
  · rintro ⟨rfl, hcount⟩
    rw [versionIdOf, versionIdOf, hcount]

/-! ### What is promised -/

namespace ConfigurationManager

variable {Config : Type}

/-- Configuration, history, reload count and current version are as they were. -/
structure Untouched (m after : ConfigurationManager Config) : Prop where
  current : after.current = m.current
  history : after.versionHistory = m.versionHistory
  reloads : after.reloadCount = m.reloadCount
  version : after.getCurrentVersion = m.getCurrentVersion

/-- The snapshot that was last announced under an id. -/
def announcedUnder (m : ConfigurationManager Config) (versionId : Bytes) : Option (ConfigSnapshot Config) :=
  m.announced.reverse.find? fun snapshot => snapshot.versionId = versionId

/-- What is left of the history when a version is stored. -/
def staying (m : ConfigurationManager Config) : List (ConfigSnapshot Config) :=
  m.versionHistory.drop (m.versionHistory.length + 1 - m.maxVersionHistory)

/-- No version that stays was made in this second with the number that comes next. -/
def Unused (m : ConfigurationManager Config) (second : Int) : Prop :=
  ∀ snapshot ∈ m.staying, snapshot.second = second → snapshot.number % 10000 ≠ m.numberAt second % 10000

end ConfigurationManager

namespace ConfigThread

variable {Config : Type}

/-- What is promised of an operation itself. -/
def KeepsPromise (s after : ConfigThread Config) (outcome : ConfigOutcome) : ConfigOp → Prop
  | .loadConfiguration _ _ _ | .reload _ _ _ => outcome = .threw → s.manager.Untouched after.manager
  | .rollback versionId _ =>
      (outcome = .returned true ↔ versionId ∈ s.manager.getVersionHistory) ∧
        (outcome = .returned true → s.manager.announcedUnder versionId = some after.manager.current)
  | .destroyGuard place =>
      ∀ guard, s.guards[place]? = some guard → guard.committed = false →
        guard.found ∈ s.manager.versionHistory → after.manager.current = guard.found
  | .makeGuard | .commitGuard _ => True

/-- The ids in the history differ, the current version is the one that is told, and the operation keeps its promise. -/
structure Trusted (parse : JsonValue → Option Config) (s : ConfigThread Config) (op : ConfigOp) : Prop where
  distinct : (s.step parse op).manager.getVersionHistory.Nodup
  version : (s.step parse op).manager.getCurrentVersion = (s.step parse op).manager.current.versionId
  promise : s.KeepsPromise (s.step parse op) (s.perform parse op).2 op

/-- A thread that is told the current version after it goes to another one. -/
def MayGoTo (s : ConfigThread Config) (versionId : Bytes) : Prop :=
  s.manager.lastVersionId = [] ∨ s.manager.lastVersionId = versionId

/-- What has to be true of an operation, in the state it is taken in. -/
def Sure (parse : JsonValue → Option Config) (s : ConfigThread Config) : ConfigOp → Prop
  | .loadConfiguration sources second escapes =>
      s.manager.initialized = true → (parse (ConfigurationManager.mergeConfigurations sources)).isSome →
        s.manager.Unused second ∧ escapes = false
  | .reload sources second escapes =>
      s.manager.initialized = true → sources.any SourceReading.hasChanged = true →
        (parse (ConfigurationManager.mergeConfigurations sources)).isSome →
          s.manager.Unused second ∧ escapes = false ∧ s.manager.lastVersionId = []
  | .rollback versionId escapes =>
      versionId ∈ s.manager.getVersionHistory → escapes = false ∧ s.MayGoTo versionId
  | .destroyGuard place =>
      ∀ guard, s.guards[place]? = some guard → guard.committed = false →
        guard.savedVersion ∈ s.manager.getVersionHistory → s.MayGoTo guard.savedVersion
  | .makeGuard | .commitGuard _ => True

end ConfigThread

/-! ### The invariant -/

namespace ConfigurationManager

variable {Config : Type}

structure Sound (m : ConfigurationManager Config) : Prop where
  distinct : m.getVersionHistory.Nodup
  version : m.getCurrentVersion = m.current.versionId
  spelled : ∀ snapshot ∈ m.versionHistory, snapshot.versionId = versionIdOf snapshot.second snapshot.number
  announced : m.versionHistory <:+ m.announced
  counted : ∀ snapshot ∈ m.current :: m.versionHistory, snapshot.made ≤ m.announced.length
  last : m.lastVersionId ≠ [] → (m.versionHistory.getLast?.map ConfigSnapshot.versionId) = some m.lastVersionId
  room : 2 ≤ m.maxVersionHistory

variable {m : ConfigurationManager Config} {parse : JsonValue → Option Config}

theorem sound_new (initialized : Bool) : (new initialized : ConfigurationManager Config).Sound where
  distinct := List.nodup_nil
  version := rfl
  spelled _ h := absurd h List.not_mem_nil
  announced := List.suffix_refl _
  counted := by simp [new]
  last h := absurd rfl h
  room := Nat.le_of_ble_eq_true rfl

theorem find_of_nodup_map {α β : Type} [DecidableEq β] {f : α → β} {items : List α} {item : α}
    (h : (items.map f).Nodup) (hmem : item ∈ items) : items.find? (fun other => f other = f item) = some item := by
  obtain ⟨found, hfound⟩ : ∃ found, items.find? (fun other => f other = f item) = some found := by
    rw [← Option.isSome_iff_exists, List.find?_isSome]
    exact ⟨item, hmem, decide_eq_true rfl⟩
  have hsame : f found = f item := by simpa using List.find?_some hfound
  rw [hfound, List.inj_on_of_nodup_map h (List.mem_of_find?_eq_some hfound) hmem hsame]

/-- The one snapshot of the history that has an id. -/
theorem Sound.find (h : m.Sound) {snapshot : ConfigSnapshot Config} (hmem : snapshot ∈ m.versionHistory) :
    m.versionHistory.find? (fun other => other.versionId = snapshot.versionId) = some snapshot :=
  find_of_nodup_map h.distinct hmem

theorem Sound.announcedUnder (h : m.Sound) {snapshot : ConfigSnapshot Config} (hmem : snapshot ∈ m.versionHistory) :
    m.announcedUnder snapshot.versionId = some snapshot := by
  obtain ⟨older, hannounced⟩ := h.announced
  have hdistinct : (m.versionHistory.reverse.map ConfigSnapshot.versionId).Nodup := by
    rw [List.map_reverse, List.nodup_reverse]
    exact h.distinct
  rw [ConfigurationManager.announcedUnder, ← hannounced, List.reverse_append, List.find?_append,
    find_of_nodup_map hdistinct (List.mem_reverse.mpr hmem), Option.some_or]

/-! ### Storing a version -/

/-- A snapshot that is made now, in a second. -/
structure Makes (m : ConfigurationManager Config) (now : Int) (snapshot : ConfigSnapshot Config) : Prop where
  second : snapshot.second = now
  number : snapshot.number = m.numberAt now
  spelled : snapshot.versionId = versionIdOf now (m.numberAt now)
  made : snapshot.made = m.announced.length + 1

/-- The snapshot is current, and the last of the history. -/
structure Stores (m : ConfigurationManager Config) (snapshot : ConfigSnapshot Config)
    (after : ConfigurationManager Config) : Prop where
  current : after.current = snapshot
  history : after.versionHistory = (m.versionHistory ++ [snapshot]).drop (m.versionHistory.length + 1 - m.maxVersionHistory)
  announced : after.announced = m.announced ++ [snapshot]
  room : after.maxVersionHistory = m.maxVersionHistory

section Storing

variable {second : Int} {snapshot : ConfigSnapshot Config} {after : ConfigurationManager Config}

theorem Stores.history_eq (h : m.Stores snapshot after) (hroom : 2 ≤ m.maxVersionHistory) :
    after.versionHistory = m.staying ++ [snapshot] :=
  h.history.trans (List.drop_append_of_le_length (by omega))

theorem Stores.distinct_iff (h : m.Stores snapshot after) (hmakes : m.Makes second snapshot) (hsound : m.Sound) :
    after.getVersionHistory.Nodup ↔ m.Unused second := by
  have hstaying : (m.staying.map ConfigSnapshot.versionId).Nodup :=
    hsound.distinct.sublist ((List.drop_sublist _ _).map _)
  have hspelled : ∀ other ∈ m.staying, other.versionId = versionIdOf other.second other.number :=
    fun other hother => hsound.spelled other (List.mem_of_mem_drop hother)
  rw [getVersionHistory, h.history_eq hsound.room, List.map_append, List.map_singleton, List.nodup_append,
    hmakes.spelled]
  constructor
  · rintro ⟨-, -, hdisjoint⟩ other hother hsecond hnumber
    have hsame : other.versionId = versionIdOf second (m.numberAt second) :=
      (hspelled other hother).trans (versionIdOf_eq_iff.mpr ⟨hsecond, hnumber⟩)
    exact hdisjoint _ (List.mem_map_of_mem hother) _ (List.mem_singleton_self _) hsame
  · intro hunused
    refine ⟨hstaying, List.nodup_singleton _, fun versionId hid last hlast hsame => ?_⟩
    obtain ⟨other, hother, rfl⟩ := List.mem_map.mp hid
    rw [hspelled other hother, List.mem_singleton.mp hlast, versionIdOf_eq_iff] at hsame
    exact hunused other hother hsame.1 hsame.2

theorem Stores.sound (h : m.Stores snapshot after) (hmakes : m.Makes second snapshot) (hsound : m.Sound)
    (hunused : m.Unused second) (hlast : after.lastVersionId = [] ∨ after.lastVersionId = snapshot.versionId) :
    after.Sound where
  distinct := (h.distinct_iff hmakes hsound).mpr hunused
  version := by
    rw [getCurrentVersion, h.current]
    obtain hnone | hsome := hlast
    · rw [if_neg (not_not_intro hnone)]
    · split_ifs
      · exact hsome
      · rfl
  spelled := by
    rw [h.history_eq hsound.room, List.forall_mem_append, List.forall_mem_singleton]
    refine ⟨fun other hother => hsound.spelled other (List.mem_of_mem_drop hother), ?_⟩
    rw [hmakes.spelled, hmakes.second, hmakes.number]
  announced := by
    rw [h.history_eq hsound.room, h.announced]
    obtain ⟨older, holder⟩ := (List.drop_suffix _ _).trans hsound.announced
    exact ⟨older, by rw [← List.append_assoc]; exact congrArg (· ++ [snapshot]) holder⟩
  counted := by
    have hcounted := hsound.counted
    rw [List.forall_mem_cons] at hcounted
    rw [h.current, h.history_eq hsound.room, h.announced, List.length_append, List.length_singleton,
      List.forall_mem_cons, List.forall_mem_append, List.forall_mem_singleton, hmakes.made]
    refine ⟨Nat.le_refl _, fun other hother => ?_, Nat.le_refl _⟩
    exact (hcounted.2 other (List.mem_of_mem_drop hother)).trans (Nat.le_succ _)
  last := by
    intro hsome
    rw [h.history_eq hsound.room, List.getLast?_concat, Option.map_some, hlast.resolve_left hsome]
  room := h.room.symm ▸ hsound.room

/-- A thread that is told another version keeps being told it. -/
theorem Stores.not_trusted (h : m.Stores snapshot after) (hmakes : m.Makes second snapshot) (hsound : m.Sound)
    (hunused : m.Unused second) (hsome : m.lastVersionId ≠ []) (hsame : after.lastVersionId = m.lastVersionId) :
    after.getCurrentVersion ≠ after.current.versionId := by
  obtain ⟨last, hlast, hid⟩ := Option.map_eq_some_iff.mp (hsound.last hsome)
  have hstays : last ∈ m.staying := by
    obtain ⟨front, hfront⟩ := List.getLast?_eq_some_iff.mp hlast
    have hroom := hsound.room
    rw [staying, hfront, List.drop_append_of_le_length (by rw [List.length_append, List.length_singleton]; omega)]
    exact List.mem_append_right _ (List.mem_singleton_self _)
  rw [getCurrentVersion, hsame, if_pos hsome, h.current, ← hid, hmakes.spelled,
    hsound.spelled last (List.mem_of_mem_drop hstays)]
  intro hboth
  obtain ⟨hsecond, hnumber⟩ := versionIdOf_eq_iff.mp hboth
  exact hunused last hstays hsecond hnumber

end Storing

/-! ### What the operations do -/

theorem Sound.generateVersionId (h : m.Sound) (second : Int) : (m.generateVersionId second).1.Sound := { h with }

theorem untouched_self (m : ConfigurationManager Config) : m.Untouched m := ⟨rfl, rfl, rfl, rfl⟩

theorem untouched_generateVersionId (m : ConfigurationManager Config) (second : Int) :
    m.Untouched (m.generateVersionId second).1 := ⟨rfl, rfl, rfl, rfl⟩

/-- A snapshot that was just made is not the one that was current. -/
theorem Stores.touched {second : Int} {snapshot : ConfigSnapshot Config} {after : ConfigurationManager Config}
    (h : m.Stores snapshot after) (hmakes : m.Makes second snapshot) (hsound : m.Sound) : ¬ m.Untouched after := by
  intro huntouched
  have hcounted := hsound.counted m.current List.mem_cons_self
  rw [← huntouched.current, h.current, hmakes.made] at hcounted
  omega

/-- How a load or a reload that goes on to parse ends. After a load the thread is told the new version. -/
inductive Loads (parse : JsonValue → Option Config) (m : ConfigurationManager Config) (sources : List SourceReading)
    (now : Int) (escapes told : Bool) : ConfigurationManager Config × ConfigOutcome → Prop
  | refused (hparse : ¬ (parse (mergeConfigurations sources)).isSome) :
      Loads parse m sources now escapes told ((m.generateVersionId now).1, .threw)
  | stored {snapshot : ConfigSnapshot Config} {after : ConfigurationManager Config}
      (hparse : (parse (mergeConfigurations sources)).isSome) (hmakes : m.Makes now snapshot)
      (hstores : m.Stores snapshot after)
      (hlast : after.lastVersionId = if told then snapshot.versionId else m.lastVersionId) :
      Loads parse m sources now escapes told (after, ended escapes (if told then .done else .returned true))

variable {sources : List SourceReading} {now : Int} {escapes told : Bool}

theorem loads_loadConfiguration (hinitialized : m.initialized = true) (sources : List SourceReading) (now : Int)
    (escapes : Bool) : Loads parse m sources now escapes true (m.loadConfiguration parse sources now escapes) := by
  rw [loadConfiguration, hinitialized]
  cases hparse : parse (mergeConfigurations sources) with
  | none =>
      simp only [parseConfiguration, hparse]
      exact .refused (by simp [hparse])
  | some config =>
      simp only [parseConfiguration, hparse]
      refine .stored (by simp [hparse]) ⟨rfl, rfl, rfl, rfl⟩ ⟨rfl, ?_, rfl, rfl⟩ rfl
      simp [storeVersion, trimVersionHistory, notifyListeners, generateVersionId]

theorem loads_reload (hinitialized : m.initialized = true) (hchanged : sources.any SourceReading.hasChanged = true)
    (now : Int) (escapes : Bool) : Loads parse m sources now escapes false (m.reload parse sources now escapes) := by
  rw [reload, hinitialized, hchanged]
  cases hparse : parse (mergeConfigurations sources) with
  | none =>
      simp only [parseConfiguration, hparse]
      exact .refused (by simp [hparse])
  | some config =>
      simp only [parseConfiguration, hparse]
      refine .stored (by simp [hparse]) ⟨rfl, rfl, rfl, rfl⟩ ⟨rfl, ?_, rfl, rfl⟩ rfl
      simp [storeVersion, trimVersionHistory, notifyListeners, generateVersionId]

theorem loadConfiguration_of_uninitialized (h : m.initialized = false) (sources : List SourceReading) (now : Int)
    (escapes : Bool) : m.loadConfiguration parse sources now escapes = (m, .threw) := by
  rw [loadConfiguration, h]
  rfl

theorem reload_of_unchanged (h : ¬ (m.initialized = true ∧ sources.any SourceReading.hasChanged = true)) (now : Int)
    (escapes : Bool) : m.reload parse sources now escapes = (m, .returned false) := by
  rw [reload]
  by_cases hinitialized : m.initialized = true
  · rw [hinitialized, Bool.eq_false_of_not_eq_true fun hchanged => h ⟨hinitialized, hchanged⟩]
    rfl
  · rw [Bool.eq_false_of_not_eq_true hinitialized]
    rfl

/-- What is promised of a load or a reload. -/
structure LoadsWell (m : ConfigurationManager Config) (result : ConfigurationManager Config × ConfigOutcome) : Prop where
  distinct : result.1.getVersionHistory.Nodup
  version : result.1.getCurrentVersion = result.1.current.versionId
  untouched : result.2 = .threw → m.Untouched result.1

/-- Where a version is stored, it has to have an id of its own, nothing may be thrown past it, and the thread must
not be told another one. -/
def StoresWell (m : ConfigurationManager Config) (now : Int) (escapes told : Bool) : Prop :=
  m.Unused now ∧ escapes = false ∧ (told = false → m.lastVersionId = [])

theorem Loads.sound {result : ConfigurationManager Config × ConfigOutcome}
    (h : Loads parse m sources now escapes told result) (hsound : m.Sound)
    (hwell : (parse (mergeConfigurations sources)).isSome → m.StoresWell now escapes told) : result.1.Sound := by
  cases h with
  | refused hparse => exact hsound.generateVersionId now
  | stored hparse hmakes hstores hlast =>
      obtain ⟨hunused, -, htold⟩ := hwell hparse
      refine hstores.sound hmakes hsound hunused ?_
      cases told with
      | true => exact .inr hlast
      | false => exact .inl (hlast.trans (htold rfl))

theorem Loads.loadsWell_iff {result : ConfigurationManager Config × ConfigOutcome}
    (h : Loads parse m sources now escapes told result) (hsound : m.Sound) :
    m.LoadsWell result ↔ ((parse (mergeConfigurations sources)).isSome → m.StoresWell now escapes told) := by
  constructor
  · intro hloads hsome
    cases h with
    | refused hparse => exact absurd hsome hparse
    | stored hparse hmakes hstores hlast =>
        have hunused : m.Unused now := (hstores.distinct_iff hmakes hsound).mp hloads.distinct
        refine ⟨hunused, ?_, fun htold => ?_⟩
        · by_contra hescapes
          rw [Bool.not_eq_false] at hescapes
          exact hstores.touched hmakes hsound (hloads.untouched (by rw [hescapes]; rfl))
        · by_contra hother
          rw [htold] at hlast
          exact hstores.not_trusted hmakes hsound hunused hother hlast hloads.version
  · intro hwell
    have hafter := h.sound hsound hwell
    refine ⟨hafter.distinct, hafter.version, fun hthrew => ?_⟩
    cases h with
    | refused hparse => exact untouched_generateVersionId m now
    | stored hparse hmakes hstores hlast =>
        rw [(hwell hparse).2.1] at hthrew
        cases told <;> simp [ended] at hthrew

/-! ### Going back -/

theorem mem_getVersionHistory {versionId : Bytes} :
    versionId ∈ m.getVersionHistory ↔ ∃ snapshot ∈ m.versionHistory, snapshot.versionId = versionId := List.mem_map

theorem rollback_of_notMem {versionId : Bytes} (h : versionId ∉ m.getVersionHistory) (escapes : Bool) :
    m.rollback versionId escapes = (m, .returned false) := by
  have hnone : m.versionHistory.find? (fun snapshot => snapshot.versionId = versionId) = none := by
    rw [List.find?_eq_none]
    intro snapshot hsnapshot hid
    exact h (mem_getVersionHistory.mpr ⟨snapshot, hsnapshot, of_decide_eq_true hid⟩)
  rw [rollback, hnone]

theorem Sound.rollback_of_mem (h : m.Sound) {snapshot : ConfigSnapshot Config} (hmem : snapshot ∈ m.versionHistory)
    (escapes : Bool) :
    m.rollback snapshot.versionId escapes =
      ({ m with current := snapshot }.notifyListeners ⟨.rollback, m.current.versionId, snapshot.versionId⟩,
        ended escapes (.returned true)) := by
  rw [rollback, h.find hmem]

/-- A version is gone back to. -/
theorem Sound.goTo (h : m.Sound) {snapshot : ConfigSnapshot Config} (hmem : snapshot ∈ m.versionHistory)
    (hgo : m.lastVersionId = [] ∨ m.lastVersionId = snapshot.versionId) (event : ConfigChangeEvent) :
    ({ m with current := snapshot }.notifyListeners event).Sound where
  distinct := h.distinct
  version := by
    obtain hnone | hsame := hgo
    · exact if_neg (not_not_intro hnone)
    · rw [getCurrentVersion]
      split_ifs
      · exact hsame
      · rfl
  spelled := h.spelled
  announced := h.announced
  counted := by
    have hcounted := (List.forall_mem_cons.mp h.counted).2
    exact List.forall_mem_cons.mpr ⟨hcounted snapshot hmem, hcounted⟩
  last := h.last
  room := h.room

/-- A thread that is told another version is told a wrong one. -/
theorem goTo_of_version {snapshot : ConfigSnapshot Config} {event : ConfigChangeEvent}
    (h : ({ m with current := snapshot }.notifyListeners event).getCurrentVersion = snapshot.versionId) :
    m.lastVersionId = [] ∨ m.lastVersionId = snapshot.versionId := by
  by_cases hnone : m.lastVersionId = []
  · exact .inl hnone
  · exact .inr ((if_pos hnone).symm.trans h)

end ConfigurationManager

namespace ConfigThread

variable {Config : Type} {parse : JsonValue → Option Config} {s : ConfigThread Config}

/-- A guard that was not committed has the version of what it found. -/
structure Sound (s : ConfigThread Config) : Prop where
  manager : s.manager.Sound
  saved : ∀ guard ∈ s.guards, guard.committed = false → guard.savedVersion = guard.found.versionId

theorem sound_new (initialized : Bool) : (new initialized : ConfigThread Config).Sound where
  manager := ConfigurationManager.sound_new initialized
  saved _ h := absurd h List.not_mem_nil

/-! ### Each operation -/

open ConfigurationManager

theorem trusted_of_manager (h : s.Sound) {op : ConfigOp} (hsame : (s.step parse op).manager = s.manager)
    (hpromise : s.KeepsPromise (s.step parse op) (s.perform parse op).2 op) : s.Trusted parse op where
  distinct := by
    rw [hsame]
    exact h.manager.distinct
  version := by
    rw [hsame]
    exact h.manager.version
  promise := hpromise

theorem trusted_loadConfiguration_iff (h : s.Sound) (sources : List SourceReading) (second : Int) (escapes : Bool) :
    s.Trusted parse (.loadConfiguration sources second escapes) ↔
      s.Sure parse (.loadConfiguration sources second escapes) := by
  cases hinitialized : s.manager.initialized with
  | false =>
      have hsame : (s.step parse (.loadConfiguration sources second escapes)).manager = s.manager :=
        congrArg Prod.fst (loadConfiguration_of_uninitialized hinitialized sources second escapes)
      refine iff_of_true (trusted_of_manager h hsame fun _ => hsame ▸ untouched_self _) fun hset => ?_
      exact absurd (hinitialized.symm.trans hset) (by decide)
  | true =>
      have hloads : Loads parse s.manager sources second escapes true _ :=
        loads_loadConfiguration hinitialized sources second escapes
      have hwell := hloads.loadsWell_iff h.manager
      constructor
      · intro htrusted _ hsome
        obtain ⟨hunused, hescapes, -⟩ := hwell.mp ⟨htrusted.distinct, htrusted.version, htrusted.promise⟩ hsome
        exact ⟨hunused, hescapes⟩
      · intro hsure
        obtain ⟨hdistinct, hversion, huntouched⟩ := hwell.mpr fun hsome =>
          ⟨(hsure hinitialized hsome).1, (hsure hinitialized hsome).2, fun htold => absurd htold (by decide)⟩
        exact ⟨hdistinct, hversion, huntouched⟩

theorem trusted_reload_iff (h : s.Sound) (sources : List SourceReading) (second : Int) (escapes : Bool) :
    s.Trusted parse (.reload sources second escapes) ↔ s.Sure parse (.reload sources second escapes) := by
  by_cases hgoes : s.manager.initialized = true ∧ sources.any SourceReading.hasChanged = true
  · have hloads : Loads parse s.manager sources second escapes false _ := loads_reload hgoes.1 hgoes.2 second escapes
    have hwell := hloads.loadsWell_iff h.manager
    constructor
    · intro htrusted _ _ hsome
      obtain ⟨hunused, hescapes, htold⟩ := hwell.mp ⟨htrusted.distinct, htrusted.version, htrusted.promise⟩ hsome
      exact ⟨hunused, hescapes, htold rfl⟩
    · intro hsure
      obtain ⟨hdistinct, hversion, huntouched⟩ := hwell.mpr fun hsome =>
        ⟨(hsure hgoes.1 hgoes.2 hsome).1, (hsure hgoes.1 hgoes.2 hsome).2.1,
          fun _ => (hsure hgoes.1 hgoes.2 hsome).2.2⟩
      exact ⟨hdistinct, hversion, huntouched⟩
  · have hsame : (s.step parse (.reload sources second escapes)).manager = s.manager :=
      congrArg Prod.fst (reload_of_unchanged hgoes second escapes)
    refine iff_of_true (trusted_of_manager h hsame fun _ => hsame ▸ untouched_self _) fun hinitialized hchanged => ?_
    exact absurd ⟨hinitialized, hchanged⟩ hgoes

theorem trusted_rollback_iff (h : s.Sound) (versionId : Bytes) (escapes : Bool) :
    s.Trusted parse (.rollback versionId escapes) ↔ s.Sure parse (.rollback versionId escapes) := by
  by_cases hmem : versionId ∈ s.manager.getVersionHistory
  · obtain ⟨snapshot, hsnapshot, rfl⟩ := mem_getVersionHistory.mp hmem
    have hgoes := h.manager.rollback_of_mem hsnapshot escapes
    constructor
    · rintro ⟨-, hversion, hreturns, -⟩ -
      rw [step, perform, hgoes] at hversion
      rw [perform, hgoes] at hreturns
      refine ⟨?_, goTo_of_version hversion⟩
      by_contra hescapes
      rw [Bool.not_eq_false] at hescapes
      rw [hescapes] at hreturns
      exact absurd (hreturns.mpr hmem) (by simp [ended])
    · intro hsure
      obtain ⟨rfl, hgo⟩ := hsure hmem
      have hafter := h.manager.goTo hsnapshot hgo ⟨.rollback, s.manager.current.versionId, snapshot.versionId⟩
      have hmanager : (s.step parse (.rollback snapshot.versionId false)).manager = _ :=
        congrArg Prod.fst hgoes
      refine ⟨?_, ?_, ⟨fun _ => hmem, fun _ => congrArg Prod.snd hgoes⟩, fun _ => ?_⟩
      · rw [hmanager]
        exact hafter.distinct
      · rw [hmanager]
        exact hafter.version
      · rw [hmanager]
        exact h.manager.announcedUnder hsnapshot
  · have hreturns := rollback_of_notMem hmem escapes
    have hsame : (s.step parse (.rollback versionId escapes)).manager = s.manager := congrArg Prod.fst hreturns
    have hrefused : (s.perform parse (.rollback versionId escapes)).2 ≠ .returned true := by
      simp [perform, hreturns]
    refine iff_of_true (trusted_of_manager h hsame ⟨⟨fun hreturned => ?_, fun hin => ?_⟩, fun hreturned => ?_⟩) fun hin => ?_
    · exact absurd hreturned hrefused
    · exact absurd hin hmem
    · exact absurd hreturned hrefused
    · exact absurd hin hmem

theorem trusted_destroyGuard_iff (h : s.Sound) (place : Nat) :
    s.Trusted parse (.destroyGuard place) ↔ s.Sure parse (.destroyGuard place) := by
  cases hguard : s.guards[place]? with
  | none =>
      have hsame : s.step parse (.destroyGuard place) = s := by
        rw [step, perform, destroyGuard, hguard]
      refine iff_of_true (trusted_of_manager h (congrArg manager hsame) ?_) ?_
      · exact fun guard hsome => absurd (hguard.symm.trans hsome) (Option.some_ne_none _).symm
      · exact fun guard hsome => absurd (hguard.symm.trans hsome) (Option.some_ne_none _).symm
  | some guard =>
      have hmanager : (s.step parse (.destroyGuard place)).manager =
          if guard.committed then s.manager else (s.manager.rollback guard.savedVersion false).1 := by
        rw [step, perform, destroyGuard, hguard]
      have honly {other : ConfigUpdateGuard Config} (hother : s.guards[place]? = some other) : other = guard :=
        Option.some.inj (hother.symm.trans hguard)
      cases hcommitted : guard.committed with
      | true =>
          rw [hcommitted, if_pos rfl] at hmanager
          refine iff_of_true (trusted_of_manager h hmanager fun other hother hopen => ?_) fun other hother hopen => ?_
          · exact absurd (hcommitted.symm.trans (honly hother ▸ hopen)) (by decide)
          · exact absurd (hcommitted.symm.trans (honly hother ▸ hopen)) (by decide)
      | false =>
          rw [hcommitted, if_neg (by decide)] at hmanager
          have hsaved := h.saved guard (List.mem_of_getElem? hguard) hcommitted
          by_cases hmem : guard.savedVersion ∈ s.manager.getVersionHistory
          · obtain ⟨snapshot, hsnapshot, hid⟩ := mem_getVersionHistory.mp hmem
            rw [← hid, h.manager.rollback_of_mem hsnapshot] at hmanager
            constructor
            · rintro ⟨-, hversion, -⟩ other hother - -
              rw [honly hother, ← hid]
              rw [hmanager] at hversion
              exact goTo_of_version hversion
            · intro hsure
              have hgo := hsure guard hguard hcommitted hmem
              rw [← hid] at hgo
              have hafter := h.manager.goTo hsnapshot hgo ⟨.rollback, s.manager.current.versionId, snapshot.versionId⟩
              refine ⟨?_, ?_, fun other hother _ hfound => ?_⟩
              · rw [hmanager]
                exact hafter.distinct
              · rw [hmanager]
                exact hafter.version
              · rw [hmanager]
                rw [honly hother] at hfound ⊢
                have hsame : snapshot.versionId = guard.found.versionId := hid.trans hsaved
                exact List.inj_on_of_nodup_map h.manager.distinct hsnapshot hfound hsame
          · rw [rollback_of_notMem hmem] at hmanager
            refine iff_of_true (trusted_of_manager h hmanager fun other hother _ hfound => ?_)
              fun other hother _ hin => ?_
            · rw [honly hother] at hfound
              exact absurd (mem_getVersionHistory.mpr ⟨guard.found, hfound, hsaved.symm⟩) hmem
            · rw [honly hother] at hin
              exact absurd hin hmem

theorem trusted_iff_sure (h : s.Sound) (op : ConfigOp) : s.Trusted parse op ↔ s.Sure parse op := by
  cases op with
  | loadConfiguration sources second escapes => exact trusted_loadConfiguration_iff h sources second escapes
  | reload sources second escapes => exact trusted_reload_iff h sources second escapes
  | rollback versionId escapes => exact trusted_rollback_iff h versionId escapes
  | makeGuard => exact iff_of_true (trusted_of_manager h rfl trivial) trivial
  | commitGuard place => exact iff_of_true (trusted_of_manager h rfl trivial) trivial
  | destroyGuard place => exact trusted_destroyGuard_iff h place

/-! ### Runs -/

theorem Sound.rollback (h : s.manager.Sound) {versionId : Bytes} (escapes : Bool)
    (hgo : versionId ∈ s.manager.getVersionHistory → s.MayGoTo versionId) :
    (s.manager.rollback versionId escapes).1.Sound := by
  by_cases hmem : versionId ∈ s.manager.getVersionHistory
  · obtain ⟨snapshot, hsnapshot, rfl⟩ := mem_getVersionHistory.mp hmem
    rw [h.rollback_of_mem hsnapshot]
    exact h.goTo hsnapshot (hgo hmem) _
  · rw [rollback_of_notMem hmem]
    exact h

theorem Sound.step (h : s.Sound) (op : ConfigOp) (hsure : s.Sure parse op) : (s.step parse op).Sound := by
  cases op with
  | loadConfiguration sources second escapes =>
      refine ⟨?_, h.saved⟩
      cases hinitialized : s.manager.initialized with
      | true =>
          have hloads : Loads parse s.manager sources second escapes true _ :=
            loads_loadConfiguration hinitialized sources second escapes
          refine hloads.sound h.manager fun hsome => ?_
          exact ⟨(hsure hinitialized hsome).1, (hsure hinitialized hsome).2, fun htold => absurd htold (by decide)⟩
      | false =>
          rw [ConfigThread.step, perform, loadConfiguration_of_uninitialized hinitialized]
          exact h.manager
  | reload sources second escapes =>
      refine ⟨?_, h.saved⟩
      by_cases hgoes : s.manager.initialized = true ∧ sources.any SourceReading.hasChanged = true
      · have hloads : Loads parse s.manager sources second escapes false _ :=
          loads_reload hgoes.1 hgoes.2 second escapes
        refine hloads.sound h.manager fun hsome => ?_
        obtain ⟨hunused, hescapes, hnone⟩ := hsure hgoes.1 hgoes.2 hsome
        exact ⟨hunused, hescapes, fun _ => hnone⟩
      · rw [ConfigThread.step, perform, reload_of_unchanged hgoes]
        exact h.manager
  | rollback versionId escapes => exact ⟨Sound.rollback h.manager escapes fun hmem => (hsure hmem).2, h.saved⟩
  | makeGuard =>
      refine ⟨h.manager, ?_⟩
      simp only [ConfigThread.step, perform, makeGuard, List.forall_mem_append, List.forall_mem_singleton]
      exact ⟨h.saved, fun _ => h.manager.version⟩
  | commitGuard place =>
      refine ⟨h.manager, fun guard hguard hopen => ?_⟩
      obtain ⟨other, hother⟩ := List.mem_iff_getElem?.mp hguard
      rw [ConfigThread.step, perform, commitGuard, List.getElem?_modify] at hother
      obtain ⟨old, hold, rfl⟩ := Option.map_eq_some_iff.mp hother
      split_ifs at hopen ⊢
      exact h.saved old (List.mem_of_getElem? hold) hopen
  | destroyGuard place =>
      rw [ConfigThread.step, perform, destroyGuard]
      cases hguard : s.guards[place]? with
      | none => exact h
      | some guard =>
          refine ⟨?_, fun other hother => h.saved other (List.mem_of_mem_eraseIdx hother)⟩
          simp only
          split_ifs with hcommitted
          · exact h.manager
          · exact Sound.rollback h.manager false (hsure guard hguard (Bool.eq_false_of_not_eq_true hcommitted))

/-- **Versions can be trusted** along a run just if every step of it is sure. -/
theorem trusted_iff (parse : JsonValue → Option Config) (initialized : Bool) (ops : List ConfigOp) :
    Runs.Guarded (step parse) (Trusted parse) (new initialized) ops ↔
      Runs.Guarded (step parse) (Sure parse) (new initialized) ops := by
  have hproper : Runs.Guarded (step parse) (fun _ _ => True) (new initialized) ops :=
    Runs.guarded_of_forall (step parse) (fun _ _ => trivial) _
  have hsame (s : ConfigThread Config) (op : ConfigOp) (_ : True) (hsound : s.Sound) :
      s.Trusted parse op ↔ s.Sure parse op := trusted_iff_sure hsound op
  have hkeeps (s : ConfigThread Config) (op : ConfigOp) (_ : True) (hsure : s.Sure parse op) (hsound : s.Sound) :
      (s.step parse op).Sound := hsound.step op hsure
  exact Runs.guarded_iff (step parse) hsame hkeeps (sound_new initialized) hproper

/-- A source that was read and has changed since. -/
def changedSource : SourceReading := ⟨true, some JsonValue.emptyObject, true⟩

/-- After a reload the thread is told the version that it loaded before. -/
theorem not_trusted_reload :
    ¬ Runs.Guarded (step (some : JsonValue → Option JsonValue)) (Trusted some) (new true)
      [.loadConfiguration [changedSource] 951782400 false, .reload [changedSource] 951782401 false] := by
  rintro ⟨-, ⟨-, hversion, -⟩, -⟩
  exact absurd hversion (by decide)

end ConfigThread

end GopherMcp
