import GopherMcp.Filter.CircuitBreakerRuns

/-!
# What opens a circuit

The breaker counts as it goes, and forgets what is old. What it decides is read off the whole log of what was recorded all
the same: which outcomes are recent, and how many failures there were since the last success.
-/

namespace GopherMcp

namespace CircuitBreaker

variable {s t : CircuitBreaker} {log : List RequestOutcome}

/-! ### The log -/

/-- The outcomes that are recorded on an operation. -/
def recorded (s : CircuitBreaker) : CircuitBreakerOp → List RequestOutcome
  | .request _ => []
  | .respond number error =>
      match (s.arrivals[number]?).bind fun id => s.pendingRequests.find? (requestIdToString id) with
      | none => []
      | some info =>
          if s.countsAsSuccess error then [⟨s.now, true, (s.elapsedMs info.startTime).toNat⟩] else [⟨s.now, false, 0⟩]
  | .protocolError => if s.config.trackErrors then [⟨s.now, false, 0⟩] else []
  | .advance _ => []

/-- Everything that is recorded in a run. -/
def recordedIn (s : CircuitBreaker) : List CircuitBreakerOp → List RequestOutcome
  | [] => []
  | op :: rest => s.recorded op ++ (s.step op).recordedIn rest

/-- The failures since the last success. -/
def trailingFailures (log : List RequestOutcome) : Nat := (log.reverse.takeWhile (!·.success)).length

/-- What is dropped when old outcomes are. -/
def tooOld (s : CircuitBreaker) (outcome : RequestOutcome) : Bool :=
  s.config.windowSize < s.elapsedMs outcome.timestamp

def recent (s : CircuitBreaker) (log : List RequestOutcome) : List RequestOutcome :=
  log.filter fun outcome => s.elapsedMs outcome.timestamp ≤ s.config.windowSize

/-- Whether one more failure opens a closed circuit with this log. -/
def OpensOnFailure (s : CircuitBreaker) (log : List RequestOutcome) : Prop :=
  s.config.failureThreshold ≤ trailingFailures log + 1 ∨
    s.config.minRequests ≤ (s.recent log).length + 1 ∧
      s.config.errorRateExceeds ((s.recent log).countP (!·.success) + 1) ((s.recent log).length + 1) = true

/-! ### What the breaker keeps of it -/

theorem elapsedMs_le {since : Nat} (h : s.now ≤ t.now) : s.elapsedMs since ≤ t.elapsedMs since := by
  rw [elapsedMs, elapsedMs]
  exact_mod_cast Nat.div_le_div_right (Nat.sub_le_sub_right h since)

theorem elapsedMs_antitone {first second : Nat} (h : first ≤ second) : s.elapsedMs second ≤ s.elapsedMs first := by
  rw [elapsedMs, elapsedMs]
  exact_mod_cast Nat.div_le_div_right (Nat.sub_le_sub_left h s.now)

/-- The end of the log is kept, and what was dropped of it is too old. -/
structure Logged (s : CircuitBreaker) (log : List RequestOutcome) : Prop where
  kept : ∃ old, log = old ++ s.requestOutcomes ∧ ∀ outcome ∈ old, s.config.windowSize < s.elapsedMs outcome.timestamp
  ordered : log.Pairwise fun first second => first.timestamp ≤ second.timestamp
  past : ∀ outcome ∈ log, outcome.timestamp ≤ s.now
  failing : s.consecutiveFailures = trailingFailures log

/-- What is counted of the log. -/
def counted (s : CircuitBreaker) := (s.config, s.requestOutcomes, s.consecutiveFailures)

theorem Logged.of_counted (h : Logged s log) (hcounted : t.counted = s.counted) (hnow : s.now ≤ t.now) :
    Logged t log := by
  simp only [counted, Prod.mk.injEq] at hcounted
  obtain ⟨hconfig, houtcomes, hfailures⟩ := hcounted
  obtain ⟨old, hlog, hold⟩ := h.kept
  refine ⟨⟨old, by rw [hlog, houtcomes], fun outcome hmem => ?_⟩, h.ordered, fun outcome hmem => ?_, ?_⟩
  · rw [hconfig]
    exact (hold outcome hmem).trans_le (elapsedMs_le hnow)
  · exact (h.past outcome hmem).trans hnow
  · rw [hfailures, h.failing]

/-- Of outcomes in their order the first that are too old are all that are. -/
theorem dropWhile_eq_recent {outcomes : List RequestOutcome}
    (hordered : outcomes.Pairwise fun first second => first.timestamp ≤ second.timestamp) :
    (outcomes.dropWhile fun outcome => s.config.windowSize < s.elapsedMs outcome.timestamp) = s.recent outcomes := by
  rw [recent]
  induction outcomes with
  | nil => rfl
  | cons first rest ih =>
      obtain ⟨hfirst, hrest⟩ := List.pairwise_cons.mp hordered
      by_cases hold : s.config.windowSize < s.elapsedMs first.timestamp
      · rw [List.dropWhile_cons_of_pos (by simpa using hold), ih hrest, List.filter_cons_of_neg (by simpa using hold)]
      · have hyoung : ∀ outcome ∈ first :: rest, s.elapsedMs outcome.timestamp ≤ s.config.windowSize := by
          intro outcome hmem
          obtain rfl | hmem := List.mem_cons.mp hmem
          · exact not_lt.mp hold
          · exact (elapsedMs_antitone (hfirst outcome hmem)).trans (not_lt.mp hold)
        rw [List.dropWhile_cons_of_neg (by simpa using hold), List.filter_eq_self.mpr]
        simpa using hyoung

/-- **The window.** What is left when old outcomes are dropped are those of the whole log that are recent. -/
theorem Logged.cleanOldMetrics (h : Logged s log) : s.cleanOldMetrics.requestOutcomes = s.recent log := by
  obtain ⟨old, hlog, hold⟩ := h.kept
  have hordered : s.requestOutcomes.Pairwise fun first second => first.timestamp ≤ second.timestamp :=
    (List.pairwise_append.mp (hlog ▸ h.ordered)).2.1
  have hnone : s.recent old = [] := by
    rw [recent, List.filter_eq_nil_iff]
    intro outcome hmem
    simpa using hold outcome hmem
  rw [hlog, recent, List.filter_append, ← recent, ← recent, hnone, List.nil_append]
  exact dropWhile_eq_recent hordered

theorem trailingFailures_concat (log : List RequestOutcome) (outcome : RequestOutcome) :
    trailingFailures (log ++ [outcome]) = if outcome.success then 0 else trailingFailures log + 1 := by
  rw [trailingFailures, List.reverse_append, List.reverse_singleton, List.singleton_append, List.takeWhile_cons]
  cases outcome.success <;> rfl

theorem Logged.noteOutcome (h : Logged s log) (success : Bool) (latencyMs : Nat) :
    Logged (s.noteOutcome success latencyMs) (log ++ [⟨s.now, success, latencyMs⟩]) := by
  obtain ⟨old, hlog, hold⟩ := h.kept
  have hsplit : log = (old ++ s.requestOutcomes.takeWhile s.tooOld) ++ s.cleanOldMetrics.requestOutcomes := by
    rw [List.append_assoc]
    exact hlog.trans (congrArg (old ++ ·) List.takeWhile_append_dropWhile.symm)
  refine ⟨⟨old ++ s.requestOutcomes.takeWhile s.tooOld, ?_, fun outcome hmem => ?_⟩, ?_, fun outcome hmem => ?_, ?_⟩
  · conv_lhs => rw [hsplit]
    exact List.append_assoc _ _ _
  · obtain hmem | hmem := List.mem_append.mp hmem
    · exact hold outcome hmem
    · have htooOld : s.tooOld outcome = true := List.mem_takeWhile_imp hmem
      exact of_decide_eq_true htooOld
  · refine List.pairwise_append.mpr ⟨h.ordered, List.pairwise_singleton _ _, fun first hfirst second hsecond => ?_⟩
    rw [List.mem_singleton.mp hsecond]
    exact h.past first hfirst
  · obtain hmem | hmem := List.mem_append.mp hmem
    · exact h.past outcome hmem
    · exact (congrArg RequestOutcome.timestamp (List.mem_singleton.mp hmem)).le
  · rw [trailingFailures_concat, ← h.failing]
    rfl

/-! ### What an operation does -/

/-- A circuit that is not open opens on a failure, if it is half open or its log says so. -/
def Decides (s t : CircuitBreaker) (log news : List RequestOutcome) : Prop :=
  s.state ≠ .opened → (t.state = .opened ↔
    (∃ outcome ∈ news, outcome.success = false) ∧ (s.state = .halfOpen ∨ s.OpensOnFailure log))

/-- What is counted is counted of the whole log, the news included, and they decide. -/
structure Heeds (s t : CircuitBreaker) (log news : List RequestOutcome) : Prop where
  logged : Logged t (log ++ news)
  decides : Decides s t log news

/-- Without news a circuit does not open. -/
theorem Logged.heeds_nil (h : Logged s log) (hcounted : t.counted = s.counted) (hnow : s.now ≤ t.now)
    (hopens : t.state = .opened → s.state = .opened) : Heeds s t log [] where
  logged := by
    rw [List.append_nil]
    exact h.of_counted hcounted hnow
  decides hstate := by
    refine iff_of_false (fun hopened => hstate (hopens hopened)) ?_
    rintro ⟨⟨_, hmem, -⟩, -⟩
    exact absurd hmem List.not_mem_nil

theorem Logged.recordSuccess (h : Logged s log) (latencyMs : Nat) :
    Heeds s (s.recordSuccess latencyMs) log [⟨s.now, true, latencyMs⟩] := by
  have hnoted := h.noteOutcome true latencyMs
  have hstate : (s.noteOutcome true latencyMs).state = s.state := rfl
  have hclosed : CircuitState.closed ≠ .opened := by decide
  have hshut : ∀ {t : CircuitBreaker}, t.state ≠ .opened → Decides s t log [⟨s.now, true, latencyMs⟩] := by
    refine fun hshut _ => iff_of_false hshut ?_
    rintro ⟨⟨outcome, hmem, hfailed⟩, -⟩
    rw [List.mem_singleton.mp hmem] at hfailed
    contradiction
  rw [CircuitBreaker.recordSuccess, checkRecovery, hstate]
  dsimp only
  split_ifs with hhalf
  · exact ⟨hnoted.of_counted rfl le_rfl, hshut hclosed⟩
  · exact ⟨hnoted.of_counted rfl le_rfl, fun hopen => hshut hopen hopen⟩
  · exact ⟨hnoted, fun hopen => hshut hopen hopen⟩

theorem Logged.recordFailure (h : Logged s log) : Heeds s s.recordFailure log [⟨s.now, false, 0⟩] := by
  have hnoted := h.noteOutcome false 0
  have hnotedState : (s.noteOutcome false 0).state = s.state := rfl
  have hfailures : (s.noteOutcome false 0).consecutiveFailures = trailingFailures log + 1 :=
    congrArg (· + 1) h.failing
  have houtcomes : (s.noteOutcome false 0).requestOutcomes = s.recent log ++ [⟨s.now, false, 0⟩] :=
    congrArg (· ++ [_]) h.cleanOldMetrics
  have hconfig : (s.noteOutcome false 0).config = s.config := rfl
  have hfailed : ∃ outcome ∈ [RequestOutcome.mk s.now false 0], outcome.success = false :=
    ⟨_, List.mem_singleton_self _, rfl⟩
  rw [CircuitBreaker.recordFailure, checkFailure, hnotedState]
  cases hstate : s.state with
  | opened => exact ⟨hnoted, fun hshut => absurd hstate hshut⟩
  | halfOpen => exact ⟨hnoted.of_counted rfl le_rfl, fun _ => iff_of_true rfl ⟨hfailed, Or.inl hstate⟩⟩
  | closed =>
      have hnotHalf : s.state ≠ .halfOpen := by
        rw [hstate]
        decide
      simp only [hfailures, failures, houtcomes, hconfig, List.length_append, List.length_singleton, List.countP_append,
        List.countP_singleton, Bool.not_false, if_true]
      split_ifs with hmany hrate
      · exact ⟨hnoted.of_counted rfl le_rfl, fun _ => iff_of_true rfl ⟨hfailed, Or.inr (Or.inl hmany)⟩⟩
      · exact ⟨hnoted.of_counted rfl le_rfl, fun _ => iff_of_true rfl ⟨hfailed, Or.inr (Or.inr hrate)⟩⟩
      · refine ⟨hnoted, fun hshut => iff_of_false hshut ?_⟩
        rintro ⟨-, hhalf | hmany' | hrate'⟩
        · exact hnotHalf hhalf
        · exact hmany hmany'
        · exact hrate hrate'

/-- **The step.** Every operation heeds what it records. -/
theorem Logged.step (h : Logged s log) (op : CircuitBreakerOp) : Heeds s (s.step op) log (s.recorded op) := by
  cases op with
  | request id =>
      have hprobing : CircuitState.halfOpen ≠ .opened := by decide
      rw [CircuitBreaker.step, recorded]
      obtain hsame | ⟨-, ⟨-, hmade⟩ | ⟨-, hmade⟩ | ⟨-, -, hmade⟩⟩ := admitRequest_cases s id
      · rw [hsame]
        exact h.heeds_nil rfl le_rfl fun hopened => hopened
      · rw [hmade]
        exact h.heeds_nil rfl le_rfl fun hopened => hopened
      · rw [hmade]
        exact h.heeds_nil rfl le_rfl fun hopened => absurd hopened hprobing
      · rw [hmade]
        exact h.heeds_nil rfl le_rfl fun hopened => hopened
  | advance nanoseconds => exact h.heeds_nil rfl (Nat.le_add_right _ _) fun hopened => hopened
  | protocolError =>
      rw [CircuitBreaker.step, recorded, onProtocolError]
      split_ifs
      · exact h.recordFailure
      · exact h.heeds_nil rfl le_rfl fun hopened => hopened
  | respond number error =>
      rw [CircuitBreaker.step, recorded, onResponse]
      cases hid : s.arrivals[number]? with
      | none => exact h.heeds_nil rfl le_rfl fun hopened => hopened
      | some id =>
          have hpending : (s.settle number error).pendingRequests = s.pendingRequests := rfl
          have hcounts : (s.settle number error).countsAsSuccess error = s.countsAsSuccess error := rfl
          simp only [Option.bind_some, hpending]
          cases hinfo : s.pendingRequests.find? (requestIdToString id) with
          | none => exact h.heeds_nil rfl le_rfl fun hopened => hopened
          | some info =>
              have hsettled : Logged (s.settle number error) log := h.of_counted rfl le_rfl
              simp only [hcounts]
              split_ifs
              · have hheeds := hsettled.recordSuccess (s.elapsedMs info.startTime).toNat
                exact ⟨hheeds.logged.of_counted rfl le_rfl, hheeds.decides⟩
              · exact ⟨hsettled.recordFailure.logged.of_counted rfl le_rfl, hsettled.recordFailure.decides⟩

theorem Logged.run (h : Logged s log) (ops : List CircuitBreakerOp) :
    Logged (Runs.run CircuitBreaker.step s ops) (log ++ s.recordedIn ops) := by
  induction ops generalizing s log with
  | nil =>
      rw [recordedIn, List.append_nil]
      exact h
  | cons op rest ih =>
      rw [recordedIn, ← List.append_assoc]
      exact ih (h.step op).logged

theorem logged_new (config : CircuitBreakerConfig) (now : Nat) : Logged (new config now) [] :=
  ⟨⟨[], rfl, nofun⟩, .nil, nofun, rfl⟩

/-- The breaker decides by the whole log, though it keeps only the end of it and two counts. -/
structure ByItsLog (s : CircuitBreaker) (log : List RequestOutcome) : Prop where
  failing : s.consecutiveFailures = trailingFailures log
  window : s.cleanOldMetrics.requestOutcomes = s.recent log
  decides : ∀ op, Decides s (s.step op) log (s.recorded op)

/-- **A circuit opens by its log**, in every run. -/
theorem opens_by_its_log (config : CircuitBreakerConfig) (now : Nat) (ops : List CircuitBreakerOp) :
    ByItsLog (Runs.run step (new config now) ops) ((new config now).recordedIn ops) := by
  have hlogged := (logged_new config now).run ops
  rw [List.nil_append] at hlogged
  exact ⟨hlogged.failing, hlogged.cleanOldMetrics, fun op => (hlogged.step op).decides⟩

end CircuitBreaker

end GopherMcp
