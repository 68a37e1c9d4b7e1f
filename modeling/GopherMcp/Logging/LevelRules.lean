import GopherMcp.Logging.LoggerRegistry

/-!
# Levels as the rule has them

The rule for the level of a name is followed where a logger is made. A setter keeps to it if the loggers it writes
to have no pattern or component that goes first with another level; and a name that has no logger, or is not in the
Bloom filter, is answered by the global level, whatever its pattern or its component says.
-/

namespace GopherMcp

theorem LogLevel.toNat_injective : Function.Injective LogLevel.toNat := by
  intro level other h
  cases level <;> cases other <;> first | rfl | exact absurd h (by decide)

theorem LogLevel.eq_of_thresholds {level other : LogLevel} (h : ∀ asked, level ≤ asked ↔ other ≤ asked) :
    level = other :=
  toNat_injective (Nat.le_antisymm ((h other).mpr (Nat.le_refl _)) ((h level).mp (Nat.le_refl _)))

namespace LoggerRegistry

variable {library : LoggingLibrary} {r : LoggerRegistry}

/-! ### What is promised -/

/-- Every logger has the level that the rule gives its name. -/
def LevelsRight (library : LoggingLibrary) (r : LoggerRegistry) : Prop :=
  ∀ entry ∈ r.loggers, entry.2.level = r.getEffectiveLevel library entry.1

/-- Every logger has its level, and every name is answered by it. -/
structure Right (library : LoggingLibrary) (r : LoggerRegistry) : Prop where
  levels : r.LevelsRight library
  answers : ∀ name level, r.shouldLog library name level = true ↔ r.getEffectiveLevel library name ≤ level

/-- The level that a pattern or a component sets for a name, if one does. -/
def ownLevel (library : LoggingLibrary) (r : LoggerRegistry) (name : Bytes) : Option LogLevel :=
  (r.patternLevel library name).or (r.componentLevel name)

/-- Nothing but the global level is set for a name that has no logger, or that the Bloom filter does not hold. -/
def Settled (library : LoggingLibrary) (r : LoggerRegistry) : Prop :=
  ∀ name, r.find name = none ∨ r.bloomFilter.mayContain library.hash name = false →
    (r.ownLevel library name).getD r.globalLevel = r.globalLevel

/-- No level but this one goes first. -/
def Yields (first : Option LogLevel) (level : LogLevel) : Prop := first.getD level = level

/-- The loggers a setter writes to have nothing else that goes first. -/
def Fits (library : LoggingLibrary) (r : LoggerRegistry) : RegistryOp → Prop
  | .setGlobalLevel level =>
      ∀ entry ∈ r.loggers, r.patternLevel library entry.1 = none → Yields (r.componentLevel entry.1) level
  | .setComponentLevel component level =>
      ∀ entry ∈ r.loggers, componentOf entry.1 = some component → Yields (r.patternLevel library entry.1) level
  | .setPattern glob level =>
      library.valid (globToRegex glob) = true → ∀ entry ∈ r.loggers,
        library.regexMatch (globToRegex glob) entry.1 = true → Yields (r.patternLevel library entry.1) level
  | .getOrCreateLogger _ | .setBloomFilter _ _ _ _ => True

/-! ### The rule -/

theorem getEffectiveLevel_eq (r : LoggerRegistry) (name : Bytes) :
    r.getEffectiveLevel library name = (r.ownLevel library name).getD r.globalLevel := by
  rw [getEffectiveLevel, ownLevel]
  cases r.patternLevel library name <;> rfl

theorem any_regexMatch_eq (r : LoggerRegistry) (name : Bytes) :
    (r.patterns.any fun pattern => library.regexMatch pattern.pattern name) = (r.patternLevel library name).isSome := by
  rw [patternLevel, Option.isSome_map, Bool.eq_iff_iff, List.find?_isSome, List.any_eq_true]

/-- What stands before the first dot, and the dot. -/
theorem takeWhile_dot {name : Bytes} (h : 46 ∈ name) : name.takeWhile (· ≠ 46) ++ [46] <+: name := by
  induction name with
  | nil => exact absurd h List.not_mem_nil
  | cons c name ih =>
      by_cases hc : c = 46
      · rw [List.takeWhile_cons_of_neg (by simpa using hc), hc]
        exact ⟨name, rfl⟩
      · rw [List.takeWhile_cons_of_pos (by simpa using hc), List.cons_append, List.prefix_cons_inj]
        exact ih ((List.mem_cons.mp h).resolve_left (Ne.symm hc))

theorem takeWhile_of_no_dot {first : Bytes} (h : 46 ∉ first) (rest : Bytes) :
    (first ++ 46 :: rest).takeWhile (· ≠ 46) = first := by
  rw [List.takeWhile_append_of_pos, List.takeWhile_cons_of_neg (by decide), List.append_nil]
  intro c hc
  exact decide_eq_true fun hdot => h (hdot ▸ hc)

theorem find_componentToString (component : Component) :
    (Component.all.find? fun other => componentToString other = componentToString component) = some component := by
  cases component <;> decide

/-- A name begins with a component and a dot where the component stands before its first dot. -/
theorem isPrefixOf_iff (component : Component) (name : Bytes) :
    (componentToString component ++ ascii ".").isPrefixOf name = true ↔ componentOf name = some component := by
  have hnodot : 46 ∉ componentToString component := by
    cases component <;> decide
  have hbegins : (componentToString component ++ ascii ".").isPrefixOf name = true ↔
      componentToString component ++ ascii "." <+: name := List.isPrefixOf_iff_prefix
  rw [hbegins, componentOf]
  constructor
  · rintro ⟨rest, rfl⟩
    have htaken := takeWhile_of_no_dot hnodot rest
    have hname : componentToString component ++ ascii "." ++ rest = componentToString component ++ 46 :: rest :=
      List.append_assoc ..
    rw [hname, if_pos (by simp), htaken]
    exact find_componentToString component
  · intro hcomponent
    split_ifs at hcomponent with hdot
    have hsame : componentToString component = name.takeWhile (· ≠ 46) := by simpa using List.find?_some hcomponent
    rw [hsame]
    exact takeWhile_dot (List.contains_iff_mem.mp hdot)

/-! ### The setters -/

theorem setLevels_loggers (r : LoggerRegistry) (chosen : Bytes → Bool) (level : LogLevel) :
    (r.setLevels chosen level).loggers =
      r.loggers.map fun entry => if chosen entry.1 then (entry.1, { entry.2 with level }) else entry := rfl

theorem getEffectiveLevel_setLevels (r : LoggerRegistry) (chosen : Bytes → Bool) (level : LogLevel) (name : Bytes) :
    (r.setLevels chosen level).getEffectiveLevel library name = r.getEffectiveLevel library name := rfl

/-- Levels are right after a setter if what it wrote is, and if the rule is the same where it did not write. -/
theorem levelsRight_setLevels_iff {before : LoggerRegistry} (h : before.LevelsRight library)
    (hloggers : r.loggers = before.loggers) {chosen : Bytes → Bool} {level : LogLevel}
    (hsame : ∀ name, chosen name = false → r.getEffectiveLevel library name = before.getEffectiveLevel library name) :
    (r.setLevels chosen level).LevelsRight library ↔
      ∀ entry ∈ before.loggers, chosen entry.1 = true → r.getEffectiveLevel library entry.1 = level := by
  simp only [LevelsRight, setLevels_loggers, getEffectiveLevel_setLevels, List.forall_mem_map, hloggers]
  constructor
  · intro hright entry hentry hchosen
    have hlevel := hright entry hentry
    simp only [hchosen, if_true] at hlevel
    exact hlevel.symm
  · intro hall entry hentry
    cases hchosen : chosen entry.1 with
    | true =>
        simp only [if_true]
        exact (hall entry hentry hchosen).symm
    | false =>
        simp only [Bool.false_eq_true, if_false]
        exact (h entry hentry).trans (hsame entry.1 hchosen).symm

theorem levelsRight_getOrCreateLogger (h : r.LevelsRight library) (name : Bytes) :
    (r.getOrCreateLogger library name).LevelsRight library := by
  rw [getOrCreateLogger]
  split_ifs
  · exact h
  · exact List.forall_mem_append.mpr ⟨h, List.forall_mem_singleton.mpr rfl⟩

theorem levelsRight_setGlobalLevel_iff (h : r.LevelsRight library) (level : LogLevel) :
    (r.setGlobalLevel library level).LevelsRight library ↔ r.Fits library (.setGlobalLevel level) := by
  have hchosen (name : Bytes) : (!r.patterns.any fun pattern => library.regexMatch pattern.pattern name) = true ↔
      r.patternLevel library name = none := by
    rw [any_regexMatch_eq, Bool.not_eq_true', Option.isSome_eq_false_iff, Option.isNone_iff_eq_none]
  rw [setGlobalLevel, levelsRight_setLevels_iff h]
  · refine forall₂_congr fun entry _ => ?_
    rw [hchosen]
    refine imp_congr_right fun hnone => ?_
    rw [getEffectiveLevel_eq, ownLevel]
    have hpattern : ({ r with globalLevel := level } : LoggerRegistry).patternLevel library entry.1 = none := hnone
    rw [hpattern, Option.none_or]
    rfl
  · rfl
  · intro name hmatched
    have hsome : r.patternLevel library name ≠ none := fun hnone =>
      absurd ((hchosen name).mpr hnone) (Bool.eq_false_iff.mp hmatched)
    obtain ⟨first, hfirst⟩ := Option.ne_none_iff_exists'.mp hsome
    have hpattern : ({ r with globalLevel := level } : LoggerRegistry).patternLevel library name = some first := hfirst
    rw [getEffectiveLevel, getEffectiveLevel, hpattern, hfirst]

/-- The level of a name for which one is set behind the patterns. -/
theorem getD_or_some (first : Option LogLevel) (level last : LogLevel) :
    (first.or (some level)).getD last = first.getD level := by
  cases first <;> rfl

theorem levelsRight_setComponentLevel_iff (h : r.LevelsRight library) (component : Component) (level : LogLevel) :
    (r.setComponentLevel component level).LevelsRight library ↔
      r.Fits library (.setComponentLevel component level) := by
  rw [setComponentLevel, levelsRight_setLevels_iff h]
  · refine forall₂_congr fun entry _ => ?_
    rw [isPrefixOf_iff]
    refine imp_congr_right fun hcomponent => ?_
    have hset : ({ r with componentLevels := Function.update r.componentLevels component (some level) } :
        LoggerRegistry).componentLevel entry.1 = some level := by
      rw [componentLevel, hcomponent]
      exact Function.update_self ..
    rw [getEffectiveLevel_eq, ownLevel, hset, getD_or_some]
    rfl
  · rfl
  · intro name hother
    have hnot : componentOf name ≠ some component := fun hcomponent =>
      absurd ((isPrefixOf_iff component name).mpr hcomponent) (Bool.eq_false_iff.mp hother)
    have hsame : ({ r with componentLevels := Function.update r.componentLevels component (some level) } :
        LoggerRegistry).componentLevel name = r.componentLevel name := by
      rw [componentLevel, componentLevel]
      cases hname : componentOf name with
      | none => rfl
      | some other =>
          rw [hname] at hnot
          exact Function.update_of_ne (fun hboth => hnot (congrArg some hboth)) _ _
    rw [getEffectiveLevel_eq, getEffectiveLevel_eq, ownLevel, hsame]
    rfl

/-- A new pattern comes behind those there are. -/
theorem patternLevel_concat (r : LoggerRegistry) (pattern : LogPattern) (name : Bytes) :
    ({ r with patterns := r.patterns ++ [pattern] } : LoggerRegistry).patternLevel library name =
      (r.patternLevel library name).or (if library.regexMatch pattern.pattern name then some pattern.level else none) := by
  simp only [patternLevel, List.find?_append, Option.map_or, List.find?_singleton]
  split_ifs <;> rfl

theorem levelsRight_setPattern_iff (h : r.LevelsRight library) (glob : Bytes) (level : LogLevel) :
    (r.setPattern library glob level).LevelsRight library ↔ r.Fits library (.setPattern glob level) := by
  rw [setPattern]
  split_ifs with hvalid
  · dsimp only
    rw [levelsRight_setLevels_iff h, Fits, forall_prop_of_true hvalid]
    · refine forall₂_congr fun entry _ => imp_congr_right fun hmatches => ?_
      rw [getEffectiveLevel_eq, ownLevel, patternLevel_concat, if_pos hmatches, Option.or_assoc, Option.some_or,
        getD_or_some]
      rfl
    · rfl
    · intro name hother
      rw [getEffectiveLevel_eq, getEffectiveLevel_eq, ownLevel, patternLevel_concat,
        if_neg (Bool.eq_false_iff.mp hother), Option.or_none]
      rfl
  · exact iff_of_true h fun hset => absurd hset hvalid

theorem levelsRight_setBloomFilter (h : r.LevelsRight library) (enabled : Bool) (size numHashes : Nat) :
    (r.setBloomFilter library enabled size numHashes).LevelsRight library := by
  rw [setBloomFilter]
  split_ifs <;> exact List.forall_mem_map.mpr h

/-- A step keeps the levels right exactly if it fits. -/
theorem levelsRight_step_iff (h : r.LevelsRight library) (op : RegistryOp) :
    (r.step library op).LevelsRight library ↔ r.Fits library op := by
  cases op with
  | getOrCreateLogger name => exact iff_of_true (levelsRight_getOrCreateLogger h name) trivial
  | setGlobalLevel level => exact levelsRight_setGlobalLevel_iff h level
  | setComponentLevel component level => exact levelsRight_setComponentLevel_iff h component level
  | setPattern glob level => exact levelsRight_setPattern_iff h glob level
  | setBloomFilter enabled size numHashes _ => exact iff_of_true (levelsRight_setBloomFilter h enabled size numHashes) trivial

/-! ### Answers -/

theorem shouldLog_iff_global {name : Bytes}
    (h : r.find name = none ∨ r.bloomFilter.mayContain library.hash name = false) (level : LogLevel) :
    r.shouldLog library name level = true ↔ r.globalLevel ≤ level := by
  rw [shouldLog]
  split_ifs with hheld
  · rw [decide_eq_true_iff]
  · have hnone : r.find name = none := h.resolve_right fun hnot => hheld (by rw [hnot]; rfl)
    rw [checkActualLevel, hnone]
    exact decide_eq_true_iff

theorem LevelsRight.shouldLog_iff (h : r.LevelsRight library) {name : Bytes} (hfound : r.find name ≠ none)
    (hheld : r.bloomFilter.mayContain library.hash name = true) (level : LogLevel) :
    r.shouldLog library name level = true ↔ r.getEffectiveLevel library name ≤ level := by
  obtain ⟨logger, hlogger⟩ := Option.ne_none_iff_exists'.mp hfound
  obtain ⟨entry, hentry, rfl⟩ := Option.map_eq_some_iff.mp hlogger
  have hname : entry.1 = name := by simpa using List.find?_some hentry
  have hlevel := h entry (List.mem_of_find?_eq_some hentry)
  rw [hname] at hlevel
  rw [shouldLog, hheld, checkActualLevel, hlogger]
  simp [loggerShouldLog, hheld, hlevel]

/-- Where the levels are right, every name is answered by its level exactly if the registry is settled. -/
theorem right_iff (h : r.LevelsRight library) : r.Right library ↔ r.Settled library := by
  constructor
  · intro hright name hname
    rw [← getEffectiveLevel_eq]
    apply LogLevel.eq_of_thresholds
    intro asked
    rw [← hright.answers name asked, shouldLog_iff_global hname]
  · intro hsettled
    refine ⟨h, fun name level => ?_⟩
    by_cases hname : r.find name = none ∨ r.bloomFilter.mayContain library.hash name = false
    · rw [shouldLog_iff_global hname, getEffectiveLevel_eq, hsettled name hname]
    · push Not at hname
      exact h.shouldLog_iff hname.1 (Bool.eq_true_of_not_eq_false hname.2) level

/-! ### Runs -/

theorem levelsRight_new (library : LoggingLibrary) (initialLevel : LogLevel) (flowEnabled : Bool) :
    (new library initialLevel flowEnabled).LevelsRight library := by
  have hdefaults : (initializeDefaults library initialLevel).LevelsRight library :=
    List.forall_mem_singleton.mpr rfl
  rw [new]
  split_ifs
  · apply levelsRight_getOrCreateLogger
    apply (levelsRight_setPattern_iff hdefaults _ _).mpr
    exact fun _ _ _ _ => rfl
  · exact hdefaults

/-- **Levels do not depend on when a logger was made** along a run just if every step fits and every state is
settled. -/
theorem right_everywhere_iff (library : LoggingLibrary) (initialLevel : LogLevel) (flowEnabled : Bool)
    (ops : List RegistryOp) :
    (∀ before after, ops = before ++ after →
        (Runs.run (step library) (new library initialLevel flowEnabled) before).Right library) ↔
      Runs.Guarded (step library) (Fits library) (new library initialLevel flowEnabled) ops ∧
        ∀ before after, ops = before ++ after →
          (Runs.run (step library) (new library initialLevel flowEnabled) before).Settled library := by
  have hkeeps (r : LoggerRegistry) (op : RegistryOp) (_ : True) (hfits : r.Fits library op)
      (hright : r.LevelsRight library) : (r.step library op).LevelsRight library :=
    (levelsRight_step_iff hright op).mpr hfits
  have hbreaks (r : LoggerRegistry) (op : RegistryOp) (_ : True) (hright : r.LevelsRight library)
      (hnot : ¬ r.Fits library op) : ¬ (r.step library op).LevelsRight library :=
    fun hstep => hnot ((levelsRight_step_iff hright op).mp hstep)
  have hproper : Runs.Guarded (step library) (fun _ _ => True) (new library initialLevel flowEnabled) ops :=
    Runs.guarded_of_forall (step library) (fun _ _ => trivial) _
  have hlevels := Runs.everywhere_iff_of_inv (step library) hkeeps (fun _ hright => hright) hbreaks
    (levelsRight_new library initialLevel flowEnabled) hproper
  constructor
  · intro hright
    refine ⟨hlevels.mp fun before after hsplit => (hright before after hsplit).levels, fun before after hsplit => ?_⟩
    exact (right_iff (hright before after hsplit).levels).mp (hright before after hsplit)
  · rintro ⟨hfits, hsettled⟩ before after hsplit
    exact (right_iff (hlevels.mpr hfits before after hsplit)).mpr (hsettled before after hsplit)

/-- A library in which a text matches itself. -/
def literalLibrary : LoggingLibrary := ⟨fun _ => true, fun pattern name => pattern = name, fun _ => 0⟩

/-- The global level goes over the level of the component where the logger was there before it. -/
theorem not_right_globalLevel :
    ¬ ∀ before after : List RegistryOp,
      [.setComponentLevel .server .debug, .getOrCreateLogger (ascii "Server.x"), .setGlobalLevel .error] = before ++ after →
        (Runs.run (step literalLibrary) (new literalLibrary .info false) before).Right literalLibrary := by
  intro hall
  have hright := (hall _ [] (List.append_nil _).symm).levels
  have hlevels := hright (ascii "Server.x", ⟨.error, true⟩) (by decide)
  exact absurd hlevels (by decide)

end LoggerRegistry

end GopherMcp
