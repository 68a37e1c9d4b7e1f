import GopherMcp.Filter.CircuitBreakerRuns

/-!
# That a half open circuit is left

No timeout leads out of a half open circuit. It is left by a failure or by enough successes, so each request
it let through has to be counted when its response comes: then there is room for another, or one is still
awaited. A response whose record is gone is not counted, and its place is lost.
-/

namespace GopherMcp

namespace CircuitBreaker

variable {s t : CircuitBreaker}

/-- Every limit is positive. -/
structure Positive (config : CircuitBreakerConfig) : Prop where
  failureThreshold : 0 < config.failureThreshold
  minRequests : 0 < config.minRequests
  timeout : 0 < config.timeout
  windowSize : 0 < config.windowSize
  halfOpenMaxRequests : 0 < config.halfOpenMaxRequests
  halfOpenSuccessThreshold : 0 < config.halfOpenSuccessThreshold

/-- When no response is awaited, the passing of time is enough for a request to be allowed. -/
def Reopens (s : CircuitBreaker) : Prop :=
  s.awaiting = [] → ∃ nanoseconds, ((s.step (.advance nanoseconds)).allowRequest).2 = true

/-- The requests of this half open period that were not answered yet. -/
def unanswered (s : CircuitBreaker) : Nat := s.awaiting.countP (· ∈ s.probes)

/-- A half open circuit still needs a success, and has none, or a response to await, for each request it
let through. -/
structure Live (config : CircuitBreakerConfig) (s : CircuitBreaker) : Prop where
  fixed : s.config = config
  needed : s.state = .halfOpen → s.halfOpenSuccesses < config.halfOpenSuccessThreshold
  counted : s.state = .halfOpen → s.halfOpenRequests + 1 ≤ s.halfOpenSuccesses + s.unanswered

/-- In a half open circuit, the first response to a request of this period finds a record under its id. -/
def Found (s : CircuitBreaker) : CircuitBreakerOp → Prop
  | .respond number _ =>
      s.state = .halfOpen → number ∈ s.awaiting → number ∈ s.probes →
        ∀ id, s.arrivals[number]? = some id → s.pendingRequests.find? (requestIdToString id) ≠ none
  | _ => True

theorem live_of_ne {config : CircuitBreakerConfig} (hconfig : s.config = config)
    (hstate : s.state ≠ .halfOpen) : Live config s :=
  ⟨hconfig, fun hother => absurd hother hstate, fun hother => absurd hother hstate⟩

/-! ### Requests -/

/-- A request that is let through is one more to answer. -/
theorem unanswered_admitted (s : CircuitBreaker) (id : RequestId) :
    s.unanswered + 1 ≤ (s.admitted id (s.probes ++ [s.arrivals.length])).unanswered := by
  have hmono : s.awaiting.countP (· ∈ s.probes) ≤
      s.awaiting.countP (· ∈ s.probes ++ [s.arrivals.length]) := by
    apply List.countP_mono_left
    intro number _ hnumber
    rw [decide_eq_true_eq] at hnumber ⊢
    exact List.mem_append_left _ hnumber
  have hnew : [s.arrivals.length].countP (· ∈ s.probes ++ [s.arrivals.length]) = 1 := by simp
  rw [unanswered, unanswered, admitted, List.countP_append, hnew]
  exact Nat.succ_le_succ hmono

theorem Live.request {config : CircuitBreakerConfig} (h : Live config s) (hpositive : Positive config)
    (id : RequestId) : Live config (s.admitRequest id).1 := by
  obtain hrefused | ⟨-, ⟨hstate, hclosed⟩ | ⟨hstate, hfirst⟩ | ⟨hstate, -, hnext⟩⟩ :=
    admitRequest_cases s id
  · rw [hrefused]
    exact ⟨h.fixed, h.needed, h.counted⟩
  · rw [hclosed]
    exact live_of_ne h.fixed fun hother => absurd (hstate.symm.trans hother) (by simp)
  · rw [hfirst]
    refine ⟨h.fixed, fun _ => hpositive.halfOpenSuccessThreshold, fun _ => ?_⟩
    have hone := unanswered_admitted s.halfOpened id
    exact Nat.le_trans (Nat.le_add_left _ _) (Nat.le_trans hone (Nat.le_add_left _ _))
  · rw [hnext]
    refine ⟨h.fixed, fun _ => h.needed hstate, fun _ => ?_⟩
    have hone := unanswered_admitted { s with halfOpenRequests := s.halfOpenRequests + 1 } id
    have hcounted := h.counted hstate
    exact (Nat.succ_le_succ hcounted).trans (Nat.add_le_add_left hone s.halfOpenSuccesses)

/-! ### Responses -/

theorem unanswered_settle (s : CircuitBreaker) (number : Nat) (error : Option Int32) :
    s.unanswered ≤ (s.settle number error).unanswered + 1 ∧
      (¬ (number ∈ s.awaiting ∧ number ∈ s.probes) →
        (s.settle number error).unanswered = s.unanswered) := by
  have herase : (s.settle number error).unanswered =
      s.unanswered - if number ∈ s.awaiting ∧ number ∈ s.probes then 1 else 0 := by
    rw [unanswered, unanswered, settle, List.countP_erase]
    simp only [decide_eq_true_eq]
  constructor
  · rw [herase]
    split_ifs <;> omega
  · intro hnot
    rw [herase, if_neg hnot, Nat.sub_zero]

theorem Live.respond {config : CircuitBreakerConfig} (h : Live config s) (number : Nat)
    (error : Option Int32) (hfound : s.Found (.respond number error)) :
    Live config (s.onResponse number error) := by
  obtain ⟨hone, hsame⟩ := unanswered_settle s number error
  cases hid : s.arrivals[number]? with
  | none =>
      rw [onResponse, hid]
      exact h
  | some id =>
      cases hinfo : s.pendingRequests.find? (requestIdToString id) with
      | none =>
          rw [onResponse_of_none hid hinfo]
          refine ⟨h.fixed, h.needed, fun hstate => ?_⟩
          have hnot : ¬ (number ∈ s.awaiting ∧ number ∈ s.probes) :=
            fun hboth => hfound hstate hboth.1 hboth.2 id hid hinfo
          rw [hsame hnot]
          exact h.counted hstate
      | some info =>
          by_cases hsuccess : s.countsAsSuccess error = true
          · obtain ⟨t, hspec, heq⟩ := onResponse_success hid hinfo hsuccess
            have hconfig : t.config = config := hspec.books.config.trans h.fixed
            rw [heq]
            by_cases hstate : s.state = .halfOpen
            · by_cases hlast : s.config.halfOpenSuccessThreshold ≤ s.halfOpenSuccesses + 1
              · have hclosed := (hspec.last hstate hlast).1
                exact live_of_ne hconfig fun hother => absurd (hclosed.symm.trans hother) (by simp)
              · obtain ⟨-, hsuccesses, hrequests, -⟩ := hspec.more hstate hlast
                -- the place of the response is taken by the success it counts as
                have hunanswered : t.unanswered = (s.settle number error).unanswered := by
                  rw [unanswered, unanswered, hspec.books.awaiting, hspec.books.probes]
                have hcounted := h.counted hstate
                refine ⟨hconfig, fun _ => ?_, fun _ => ?_⟩
                · rw [← h.fixed]
                  exact hsuccesses ▸ Nat.lt_of_not_le hlast
                · change t.halfOpenRequests + 1 ≤ t.halfOpenSuccesses + t.unanswered
                  rw [hrequests, hsuccesses, hunanswered]
                  change s.halfOpenRequests + 1 ≤ s.halfOpenSuccesses + 1 + _
                  omega
            · have hkept := (hspec.apart hstate).1
              exact live_of_ne hconfig fun hother => hstate (hkept.symm.trans hother)
          · obtain ⟨t, hbooks, hnot, -, heq⟩ := onResponse_failure hid hinfo hsuccess
            rw [heq]
            exact live_of_ne (hbooks.config.trans h.fixed) hnot

theorem Live.step {config : CircuitBreakerConfig} (hpositive : Positive config) (op : CircuitBreakerOp)
    (hfound : s.Found op) (h : Live config s) : Live config (s.step op) := by
  cases op with
  | request id => exact h.request hpositive id
  | respond number error => exact h.respond number error hfound
  | protocolError =>
      change Live config s.onProtocolError
      rw [onProtocolError]
      split_ifs
      · obtain ⟨hbooks, hnot, -⟩ := recordFailure_spec s
        exact live_of_ne (hbooks.config.trans h.fixed) hnot
      · exact h
  | advance nanoseconds => exact ⟨h.fixed, h.needed, h.counted⟩

theorem live_new (config : CircuitBreakerConfig) (now : Nat) : Live config (new config now) :=
  live_of_ne rfl (by rintro ⟨⟩)

/-! ### Admission -/

/-- An open circuit lets a request through once its timeout has passed. -/
theorem allowRequest_opened (hstate : s.state = .opened) :
    ∃ nanoseconds, ((s.step (.advance nanoseconds)).allowRequest).2 = true := by
  refine ⟨s.lastStateChange + s.config.timeout.toNat * 1000000, ?_⟩
  have hpassed : s.config.timeout ≤
      (((s.now + (s.lastStateChange + s.config.timeout.toNat * 1000000) - s.lastStateChange) / 1000000 :
        Nat) : Int) := by
    omega
  rw [step, allowRequest]
  simp only [hstate]
  rw [if_pos]
  exact hpassed

theorem Live.reopens {config : CircuitBreakerConfig} (h : Live config s)
    (hreach : config.halfOpenSuccessThreshold ≤ config.halfOpenMaxRequests + 1) : s.Reopens := by
  intro hawaiting
  cases hstate : s.state with
  | closed =>
      refine ⟨0, ?_⟩
      rw [CircuitBreaker.step, allowRequest]
      simp only [hstate]
  | opened => exact allowRequest_opened hstate
  | halfOpen =>
      have hneeded := h.needed hstate
      have hcounted := h.counted hstate
      rw [unanswered, hawaiting, List.countP_nil] at hcounted
      have hroom : s.halfOpenRequests < s.config.halfOpenMaxRequests := by
        rw [h.fixed]
        omega
      refine ⟨0, ?_⟩
      rw [CircuitBreaker.step, allowRequest]
      simp only [hstate]
      rw [if_pos]
      exact hroom

/-- **The breaker does not lock itself shut**, when no more successes are needed than requests are let
through, in every run in which each response a half open circuit awaits finds a record. -/
theorem reopens_run {config : CircuitBreakerConfig} {now : Nat} {ops : List CircuitBreakerOp}
    (hpositive : Positive config)
    (hreach : config.halfOpenSuccessThreshold ≤ config.halfOpenMaxRequests + 1)
    (h : Runs.Guarded step Found (new config now) ops) :
    (Runs.run step (new config now) ops).Reopens := by
  have hlive : Live config (Runs.run step (new config now) ops) :=
    Runs.invariant step (fun _ op hfound hs => hs.step hpositive op hfound) (live_new config now) h
  exact hlive.reopens hreach

/-- A half open circuit whose first request was answered. -/
theorem reopens_run_recovering :
    (Runs.run step (new defaultConfig 0)
      (failing ++ [.request (.number 1), .request (.number 2), .respond 0 none])).Reopens := by
  refine reopens_run ⟨by decide, by decide, by decide, by decide, by decide, by decide⟩ (by decide)
    ⟨trivial, trivial, trivial, trivial, trivial, trivial, trivial, trivial, fun _ _ _ id hid => ?_, trivial⟩
  cases hid
  decide

/-- A half open circuit with no room left lets nothing through, however much time passes. -/
theorem not_reopens_of_spent (hstate : s.state = .halfOpen)
    (hspent : s.config.halfOpenMaxRequests ≤ s.halfOpenRequests) (hawaiting : s.awaiting = []) :
    ¬ s.Reopens := by
  intro hreopens
  obtain ⟨nanoseconds, hallowed⟩ := hreopens hawaiting
  rw [step, allowRequest] at hallowed
  simp only [hstate] at hallowed
  rw [if_neg] at hallowed
  · cases hallowed
  · exact Nat.not_lt_of_le hspent

/-- Four requests whose ids are different and have one key: all are successful, and the first response
takes the record of all. -/
theorem not_reopens_sameKey :
    Positive defaultConfig ∧
      ¬ (Runs.run step (new defaultConfig 0)
        (failing ++ [.request (.number 1), .request (.string (ascii "1")), .request (.number 4294967297),
          .request (.number 8589934593), .respond 0 none, .respond 1 none, .respond 2 none,
          .respond 3 none])).Reopens :=
  ⟨⟨by decide, by decide, by decide, by decide, by decide, by decide⟩,
    not_reopens_of_spent (by decide) (by decide) (by decide)⟩

end CircuitBreaker

end GopherMcp
