import GopherMcp.Filter.CircuitBreaker

/-!
# What a half open circuit lets through

The request that makes the circuit half open is not counted among those it lets through, and a success
counts whichever request it belongs to. Away from these two, a half open circuit keeps its bounds. It may
stay half open for good where a success that is still needed can no longer come.
-/

namespace GopherMcp

namespace CircuitBreaker

variable {s t : CircuitBreaker} {id : RequestId}

/-! ### What an operation does -/

/-- A request is let through, and is among the given probes. -/
def admitted (s : CircuitBreaker) (id : RequestId) (probes : List Nat) : CircuitBreaker :=
  { s with
    arrivals := s.arrivals ++ [id]
    pendingRequests := s.pendingRequests.insert (requestIdToString id) ⟨s.arrivals.length, s.now⟩
    awaiting := s.awaiting ++ [s.arrivals.length]
    probes }

/-- A circuit that becomes half open. -/
def halfOpened (s : CircuitBreaker) : CircuitBreaker :=
  { s with
    state := .halfOpen
    lastStateChange := s.now
    halfOpenRequests := 0
    halfOpenSuccesses := 0
    probes := []
    answers := [] }

theorem allowRequest_cases (s : CircuitBreaker) :
    s.allowRequest = (s, false) ∨ s.state = .closed ∧ s.allowRequest = (s, true) ∨
      s.state = .opened ∧ s.allowRequest = (s.halfOpened, true) ∨
      s.state = .halfOpen ∧ s.halfOpenRequests < s.config.halfOpenMaxRequests ∧
        s.allowRequest = ({ s with halfOpenRequests := s.halfOpenRequests + 1 }, true) := by
  unfold allowRequest
  cases hstate : s.state with
  | closed => exact Or.inr (Or.inl ⟨rfl, rfl⟩)
  | opened =>
      simp only
      split_ifs
      · refine Or.inr (Or.inr (Or.inl ⟨trivial, ?_⟩))
        simp [transitionState, halfOpened, hstate]
      · exact Or.inl rfl
  | halfOpen =>
      simp only
      split_ifs with hroom
      · exact Or.inr (Or.inr (Or.inr ⟨trivial, hroom, rfl⟩))
      · exact Or.inl rfl

theorem allowRequest_arrivals (s : CircuitBreaker) (arrivals : List RequestId) :
    ({ s with arrivals }.allowRequest).2 = s.allowRequest.2 := by
  unfold allowRequest elapsedMs
  cases s.state with
  | closed => rfl
  | opened =>
      dsimp only
      split_ifs <;> rfl
  | halfOpen =>
      dsimp only
      split_ifs <;> rfl

/-- Everything a request can do. -/
theorem admitRequest_cases (s : CircuitBreaker) (id : RequestId) :
    (s.admitRequest id).1 = { s with arrivals := s.arrivals ++ [id] } ∨
      s.allowRequest.2 = true ∧
        (s.state = .closed ∧ (s.admitRequest id).1 = s.admitted id s.probes ∨
          s.state = .opened ∧ (s.admitRequest id).1 = s.halfOpened.admitted id [s.arrivals.length] ∨
          s.state = .halfOpen ∧ s.halfOpenRequests < s.config.halfOpenMaxRequests ∧
            (s.admitRequest id).1 =
              { s with halfOpenRequests := s.halfOpenRequests + 1 }.admitted id
                (s.probes ++ [s.arrivals.length])) := by
  have hsame := allowRequest_arrivals s (s.arrivals ++ [id])
  obtain hallow | ⟨hstate, hallow⟩ | ⟨hstate, hallow⟩ | ⟨hstate, hroom, hallow⟩ :=
    allowRequest_cases { s with arrivals := s.arrivals ++ [id] }
  · exact Or.inl (by rw [admitRequest, hallow]; rfl)
  · rw [hallow] at hsame
    refine Or.inr ⟨hsame.symm, Or.inl ⟨hstate, ?_⟩⟩
    have hclosed : s.state ≠ .halfOpen := fun hother => absurd (hstate.symm.trans hother) nofun
    rw [admitRequest, hallow]
    simp only [if_true, track, if_neg hclosed]
    rfl
  · rw [hallow] at hsame
    refine Or.inr ⟨hsame.symm, Or.inr (Or.inl ⟨hstate, ?_⟩)⟩
    rw [admitRequest, hallow]
    rfl
  · rw [hallow] at hsame
    refine Or.inr ⟨hsame.symm, Or.inr (Or.inr ⟨hstate, hroom, ?_⟩)⟩
    have hprobing : s.state = .halfOpen := hstate
    rw [admitRequest, hallow]
    simp only [if_true, track, if_pos hprobing]
    rfl

/-- What recording an outcome leaves alone. -/
structure SameBooks (s t : CircuitBreaker) : Prop where
  config : t.config = s.config
  pendingRequests : t.pendingRequests = s.pendingRequests
  arrivals : t.arrivals = s.arrivals
  awaiting : t.awaiting = s.awaiting
  probes : t.probes = s.probes
  answers : t.answers = s.answers

theorem SameBooks.refl (s : CircuitBreaker) : SameBooks s s := ⟨rfl, rfl, rfl, rfl, rfl, rfl⟩

/-- The books are left alone by every change of state but one to half open. -/
theorem SameBooks.transitionState (h : SameBooks s t) {newState : CircuitState}
    (hstate : newState ≠ .halfOpen) : SameBooks s (t.transitionState newState) where
  config := h.config
  pendingRequests := h.pendingRequests
  arrivals := h.arrivals
  awaiting := h.awaiting
  probes := (if_neg hstate).trans h.probes
  answers := (if_neg hstate).trans h.answers

/-- After a failure the circuit is not half open. -/
theorem checkFailure_spec (s : CircuitBreaker) :
    SameBooks s s.checkFailure ∧ s.checkFailure.state ≠ .halfOpen ∧
      s.checkFailure.closings = s.closings := by
  have hopened : SameBooks s (s.transitionState .opened) ∧
      (s.transitionState .opened).state ≠ .halfOpen ∧
        (s.transitionState .opened).closings = s.closings :=
    ⟨(SameBooks.refl s).transitionState nofun, nofun, if_neg fun hboth => absurd hboth.2 nofun⟩
  rw [checkFailure]
  cases hstate : s.state with
  | closed =>
      simp only
      split_ifs
      · exact hopened
      · exact hopened
      · exact ⟨.refl s, fun hother => absurd (hstate.symm.trans hother) nofun, rfl⟩
  | opened => exact ⟨.refl s, fun hother => absurd (hstate.symm.trans hother) nofun, rfl⟩
  | halfOpen => exact hopened

theorem recordFailure_spec (s : CircuitBreaker) :
    SameBooks s s.recordFailure ∧ s.recordFailure.state ≠ .halfOpen ∧
      s.recordFailure.closings = s.closings := by
  obtain ⟨⟨hconfig, hpending, harrivals, hawaiting, hprobes, hanswers⟩, hrest⟩ :=
    checkFailure_spec (s.noteOutcome false 0)
  exact ⟨⟨hconfig, hpending, harrivals, hawaiting, hprobes, hanswers⟩, hrest⟩

/-- What a success does to the circuit. -/
structure Succeeded (s t : CircuitBreaker) : Prop where
  books : SameBooks s t
  apart : s.state ≠ .halfOpen → t.state = s.state ∧ t.closings = s.closings
  last : s.state = .halfOpen → s.config.halfOpenSuccessThreshold ≤ s.halfOpenSuccesses + 1 →
    t.state = .closed ∧ t.closings = s.closings ++ [s.answers.length]
  more : s.state = .halfOpen → ¬ s.config.halfOpenSuccessThreshold ≤ s.halfOpenSuccesses + 1 →
    t.state = .halfOpen ∧ t.halfOpenSuccesses = s.halfOpenSuccesses + 1 ∧
      t.halfOpenRequests = s.halfOpenRequests ∧ t.closings = s.closings

/-- A success counts in a half open circuit, and closes it when it is the last one needed. -/
theorem checkRecovery_spec (s : CircuitBreaker) : Succeeded s s.checkRecovery := by
  have hcounted : SameBooks s { s with halfOpenSuccesses := s.halfOpenSuccesses + 1 } :=
    ⟨rfl, rfl, rfl, rfl, rfl, rfl⟩
  rw [checkRecovery]
  dsimp only
  split_ifs with hstate hlast
  · refine ⟨hcounted.transitionState nofun, fun hother => absurd hstate hother, fun _ _ => ⟨rfl, ?_⟩,
      fun _ hother => absurd hlast hother⟩
    exact if_pos ⟨hstate, rfl⟩
  · exact ⟨hcounted, fun hother => absurd hstate hother, fun _ hother => absurd hother hlast,
      fun _ _ => ⟨hstate, rfl, rfl, rfl⟩⟩
  · exact ⟨.refl s, fun _ => ⟨rfl, rfl⟩, fun hother => absurd hother hstate,
      fun hother => absurd hother hstate⟩

theorem recordSuccess_spec (s : CircuitBreaker) (latencyMs : Nat) :
    Succeeded s (s.recordSuccess latencyMs) := by
  obtain ⟨⟨hconfig, hpending, harrivals, hawaiting, hprobes, hanswers⟩, hapart, hlast, hmore⟩ :=
    checkRecovery_spec (s.noteOutcome true latencyMs)
  exact ⟨⟨hconfig, hpending, harrivals, hawaiting, hprobes, hanswers⟩, hapart, hlast, hmore⟩

/-! ### Responses -/

/-- A success that finds a pending request under its id. -/
theorem onResponse_success {number : Nat} {error : Option Int32} {info : RequestInfo}
    (hid : s.arrivals[number]? = some id)
    (hinfo : s.pendingRequests.find? (requestIdToString id) = some info)
    (hsuccess : s.countsAsSuccess error = true) :
    ∃ t, Succeeded (s.settle number error) t ∧ s.onResponse number error =
      { t with pendingRequests := s.pendingRequests.erase (requestIdToString id) } := by
  have hfound : (s.settle number error).pendingRequests.find? (requestIdToString id) = some info := hinfo
  have hcounts : (s.settle number error).countsAsSuccess error = true := hsuccess
  have hspec := recordSuccess_spec (s.settle number error)
    ((s.settle number error).elapsedMs info.startTime).toNat
  have hpending : s.pendingRequests = _ := hspec.books.pendingRequests.symm
  refine ⟨_, hspec, ?_⟩
  rw [onResponse, hid, hpending]
  simp only [hfound, if_pos hcounts]

/-- A failure that finds one. -/
theorem onResponse_failure {number : Nat} {error : Option Int32} {info : RequestInfo}
    (hid : s.arrivals[number]? = some id)
    (hinfo : s.pendingRequests.find? (requestIdToString id) = some info)
    (hfailure : ¬ s.countsAsSuccess error = true) :
    ∃ t, SameBooks (s.settle number error) t ∧ t.state ≠ .halfOpen ∧ t.closings = s.closings ∧
      s.onResponse number error =
        { t with pendingRequests := s.pendingRequests.erase (requestIdToString id) } := by
  have hfound : (s.settle number error).pendingRequests.find? (requestIdToString id) = some info := hinfo
  have hcounts : ¬ (s.settle number error).countsAsSuccess error = true := hfailure
  obtain ⟨hbooks, hstate, hclosings⟩ := recordFailure_spec (s.settle number error)
  have hpending : s.pendingRequests = _ := hbooks.pendingRequests.symm
  refine ⟨_, hbooks, hstate, hclosings, ?_⟩
  rw [onResponse, hid, hpending]
  simp only [hfound, if_neg hcounts]

theorem onResponse_of_none {number : Nat} {error : Option Int32} (hid : s.arrivals[number]? = some id)
    (hinfo : s.pendingRequests.find? (requestIdToString id) = none) :
    s.onResponse number error = s.settle number error := by
  have hfound : (s.settle number error).pendingRequests.find? (requestIdToString id) = none := hinfo
  rw [onResponse, hid]
  simp only [hfound]

theorem mem_answers_settle {number other : Nat} {error : Option Int32}
    (h : other ∈ (s.settle number error).answers) : other ∈ s.answers ∨ other = number := by
  rw [settle] at h
  dsimp only at h
  split_ifs at h
  · exact (List.mem_append.mp h).imp_right List.mem_singleton.mp
  · exact Or.inl h

theorem length_answers_settle (s : CircuitBreaker) (number : Nat) (error : Option Int32) :
    s.answers.length ≤ (s.settle number error).answers.length := by
  rw [settle]
  dsimp only
  split_ifs
  · rw [List.length_append]
    exact Nat.le_add_right _ _
  · exact le_rfl

/-! ### Bounds -/

/-- Every pending request is one that came, under the key of its id. -/
def Keyed (s : CircuitBreaker) : Prop :=
  ∀ key info, s.pendingRequests.find? key = some info →
    ∃ id, s.arrivals[info.number]? = some id ∧ requestIdToString id = key

/-- The counts are those of this half open period. -/
structure Fair (s : CircuitBreaker) : Prop where
  keyed : s.Keyed
  counted : s.state = .halfOpen →
    s.probes.length = s.halfOpenRequests + 1 ∧ s.probes.length ≤ s.config.halfOpenMaxRequests
  earned : s.state = .halfOpen → s.halfOpenSuccesses ≤ s.answers.length
  unanswered : ∀ key info, s.pendingRequests.find? key = some info → info.number ∉ s.answers
  known : ∀ number ∈ s.answers, number < s.arrivals.length
  closings : ∀ count ∈ s.closings, s.config.halfOpenSuccessThreshold ≤ count

/-- No request arrives that a half open circuit lets through as one too many, and in a half open circuit
a success is that of the pending request, which was admitted in this half open period. -/
def InPeriod (s : CircuitBreaker) : CircuitBreakerOp → Prop
  | .request _ =>
      (s.state = .opened → 0 < s.config.halfOpenMaxRequests) ∧
        (s.state = .halfOpen → s.halfOpenRequests + 1 ≠ s.config.halfOpenMaxRequests)
  | .respond number error =>
      s.state = .halfOpen → s.countsAsSuccess error → ∀ id info, s.arrivals[number]? = some id →
        s.pendingRequests.find? (requestIdToString id) = some info →
          info.number = number ∧ number ∈ s.probes
  | _ => True

theorem fair_new (config : CircuitBreakerConfig) (now : Nat) : (new config now).Fair where
  keyed _ _ h := by cases h
  counted h := by cases h
  earned h := by cases h
  unanswered _ _ h := by cases h
  known _ h := absurd h List.not_mem_nil
  closings _ h := absurd h List.not_mem_nil

theorem getElem?_concat {number : Nat} {before : List RequestId} {other : RequestId}
    (h : before[number]? = some other) (id : RequestId) : (before ++ [id])[number]? = some other := by
  rw [List.getElem?_append_left (List.getElem?_eq_some_iff.mp h).1, h]

theorem Keyed.admitted (h : s.Keyed) (id : RequestId) (probes : List Nat) :
    (s.admitted id probes).Keyed := by
  intro key info hinfo
  simp only [CircuitBreaker.admitted, OrdMap.find?_insert] at hinfo
  split_ifs at hinfo with hkey
  · rw [← Option.some.inj hinfo, hkey]
    exact ⟨id, List.getElem?_concat_length, rfl⟩
  · obtain ⟨other, hother, hsame⟩ := h key info hinfo
    exact ⟨other, getElem?_concat hother id, hsame⟩

theorem Fair.request (h : s.Fair) (id : RequestId) (hin : s.InPeriod (.request id)) :
    (s.admitRequest id).1.Fair := by
  have hknown : ∀ number ∈ s.answers, number < (s.arrivals ++ [id]).length := by
    intro number hnumber
    rw [List.length_append]
    exact Nat.lt_add_right _ (h.known number hnumber)
  have hunanswered (probes : List Nat) (key : Bytes) (info : RequestInfo)
      (hinfo : (s.admitted id probes).pendingRequests.find? key = some info) :
      info.number ∉ s.answers := by
    simp only [admitted, OrdMap.find?_insert] at hinfo
    split_ifs at hinfo
    · rw [← Option.some.inj hinfo]
      exact fun hmem => Nat.lt_irrefl _ (h.known _ hmem)
    · exact h.unanswered key info hinfo
  obtain hrefused | ⟨-, ⟨hstate, hclosed⟩ | ⟨hstate, hfirst⟩ | ⟨hstate, hroom, hnext⟩⟩ :=
    admitRequest_cases s id
  · rw [hrefused]
    refine ⟨fun key info hinfo => ?_, h.counted, h.earned, h.unanswered, hknown, h.closings⟩
    obtain ⟨other, hother, hsame⟩ := h.keyed key info hinfo
    exact ⟨other, getElem?_concat hother id, hsame⟩
  · rw [hclosed]
    exact ⟨h.keyed.admitted id _, fun hother => absurd (hstate.symm.trans hother) nofun,
      fun hother => absurd (hstate.symm.trans hother) nofun, hunanswered _, hknown, h.closings⟩
  · rw [hfirst]
    exact ⟨Keyed.admitted (s := s.halfOpened) h.keyed id _, fun _ => ⟨rfl, hin.1 hstate⟩,
      fun _ => Nat.zero_le _, fun _ _ _ => List.not_mem_nil,
      fun _ hmem => absurd hmem List.not_mem_nil, h.closings⟩
  · rw [hnext]
    have hcounted := h.counted hstate
    have hnot := hin.2 hstate
    refine ⟨Keyed.admitted (s := { s with halfOpenRequests := s.halfOpenRequests + 1 }) h.keyed id _,
      fun _ => ?_, fun _ => h.earned hstate, hunanswered s.probes, hknown, h.closings⟩
    simp only [admitted, List.length_append, List.length_singleton]
    omega

theorem Fair.respond (h : s.Fair) (number : Nat) (error : Option Int32)
    (hin : s.InPeriod (.respond number error)) : (s.onResponse number error).Fair := by
  cases hid : s.arrivals[number]? with
  | none =>
      rw [onResponse, hid]
      exact h
  | some id =>
      have hlt : number < s.arrivals.length := (List.getElem?_eq_some_iff.mp hid).1
      have hknown : ∀ other ∈ (s.settle number error).answers, other < s.arrivals.length := by
        intro other hother
        obtain hold | hnew := mem_answers_settle hother
        · exact h.known other hold
        · exact hnew ▸ hlt
      -- only the record under the key of its id can be that of the request
      have hunanswered (key : Bytes) (info : RequestInfo)
          (hinfo : s.pendingRequests.find? key = some info) (hkey : key ≠ requestIdToString id) :
          info.number ∉ (s.settle number error).answers := by
        intro hmem
        obtain hold | hnew := mem_answers_settle hmem
        · exact h.unanswered key info hinfo hold
        · obtain ⟨other, hother, hsame⟩ := h.keyed key info hinfo
          rw [hnew, hid] at hother
          rw [← Option.some.inj hother] at hsame
          exact hkey hsame.symm
      cases hinfo : s.pendingRequests.find? (requestIdToString id) with
      | none =>
          rw [onResponse_of_none hid hinfo]
          refine ⟨h.keyed, h.counted, fun hstate => (h.earned hstate).trans (length_answers_settle s _ _),
            fun key info hfound => hunanswered key info hfound fun hkey => ?_, hknown, h.closings⟩
          have hsame : s.pendingRequests.find? (requestIdToString id) = some info := hkey ▸ hfound
          rw [hinfo] at hsame
          cases hsame
      | some info =>
          have hleft (key : Bytes) (other : RequestInfo)
              (hother : (s.pendingRequests.erase (requestIdToString id)).find? key = some other) :
              s.pendingRequests.find? key = some other ∧ key ≠ requestIdToString id := by
            rw [OrdMap.find?_erase] at hother
            split_ifs at hother with hkey
            exact ⟨hother, hkey⟩
          have hbooked {t : CircuitBreaker} (hbooks : SameBooks (s.settle number error) t)
              (hcounted : t.state = .halfOpen →
                t.probes.length = t.halfOpenRequests + 1 ∧ t.probes.length ≤ t.config.halfOpenMaxRequests)
              (hearned : t.state = .halfOpen → t.halfOpenSuccesses ≤ t.answers.length)
              (hclosings : ∀ count ∈ t.closings, t.config.halfOpenSuccessThreshold ≤ count) :
              Fair { t with pendingRequests := s.pendingRequests.erase (requestIdToString id) } := by
            refine ⟨fun key other hother => ?_, hcounted, hearned, fun key other hother => ?_,
              fun other hother => ?_, hclosings⟩
            · obtain ⟨held, hheld, hsame⟩ := h.keyed key other (hleft key other hother).1
              exact ⟨held, (congrArg (·[other.number]?) hbooks.arrivals).trans hheld, hsame⟩
            · obtain ⟨hfound, hkey⟩ := hleft key other hother
              exact hbooks.answers ▸ hunanswered key other hfound hkey
            · exact hbooks.arrivals ▸ hknown other (hbooks.answers ▸ hother)
          by_cases hsuccess : s.countsAsSuccess error = true
          · obtain ⟨t, hspec, heq⟩ := onResponse_success hid hinfo hsuccess
            rw [heq]
            by_cases hstate : s.state = .halfOpen
            · obtain ⟨hsame, hprobe⟩ := hin hstate hsuccess id info hid hinfo
              have hnew : number ∉ s.answers := hsame ▸ h.unanswered _ info hinfo
              have hanswers : (s.settle number error).answers = s.answers ++ [number] :=
                if_pos ⟨hstate, hsuccess, hprobe, hnew⟩
              have hearned := h.earned hstate
              by_cases hlast : s.config.halfOpenSuccessThreshold ≤ s.halfOpenSuccesses + 1
              · obtain ⟨hclosed, hclosings⟩ := hspec.last hstate hlast
                refine hbooked hspec.books (fun hother => absurd (hclosed.symm.trans hother) nofun)
                  (fun hother => absurd (hclosed.symm.trans hother) nofun) fun count hcount => ?_
                rw [hspec.books.config]
                rw [hclosings, hanswers] at hcount
                obtain hold | hthis := List.mem_append.mp hcount
                · exact h.closings count hold
                · rw [List.mem_singleton.mp hthis, List.length_append, List.length_singleton]
                  exact hlast.trans (Nat.succ_le_succ hearned)
              · obtain ⟨hstill, hsuccesses, hrequests, hclosings⟩ := hspec.more hstate hlast
                refine hbooked hspec.books (fun _ => ?_) (fun _ => ?_) fun count hcount => ?_
                · rw [hspec.books.probes, hspec.books.config, hrequests]
                  exact h.counted hstate
                · rw [hsuccesses, hspec.books.answers, hanswers, List.length_append, List.length_singleton]
                  exact Nat.succ_le_succ hearned
                · rw [hspec.books.config]
                  exact h.closings count (hclosings ▸ hcount)
            · obtain ⟨hsame, hclosings⟩ := hspec.apart hstate
              have hnot : t.state ≠ .halfOpen := fun hother => hstate (hsame.symm.trans hother)
              refine hbooked hspec.books (fun hother => absurd hother hnot)
                (fun hother => absurd hother hnot) fun count hcount => ?_
              rw [hspec.books.config]
              exact h.closings count (hclosings ▸ hcount)
          · obtain ⟨t, hbooks, hnot, hclosings, heq⟩ := onResponse_failure hid hinfo hsuccess
            rw [heq]
            refine hbooked hbooks (fun hother => absurd hother hnot) (fun hother => absurd hother hnot)
              fun count hcount => ?_
            rw [hbooks.config]
            exact h.closings count (hclosings ▸ hcount)

theorem Fair.protocolError (h : s.Fair) : s.onProtocolError.Fair := by
  rw [onProtocolError]
  split_ifs
  · obtain ⟨hbooks, hnot, hclosings⟩ := recordFailure_spec s
    refine ⟨fun key info hinfo => ?_, fun hother => absurd hother hnot, fun hother => absurd hother hnot,
      fun key info hinfo => ?_, fun number hnumber => ?_, fun count hcount => ?_⟩
    · rw [hbooks.pendingRequests] at hinfo
      rw [hbooks.arrivals]
      exact h.keyed key info hinfo
    · rw [hbooks.pendingRequests] at hinfo
      exact hbooks.answers ▸ h.unanswered key info hinfo
    · exact hbooks.arrivals ▸ h.known number (hbooks.answers ▸ hnumber)
    · rw [hbooks.config]
      exact h.closings count (hclosings ▸ hcount)
  · exact h

theorem Fair.step (h : s.Fair) (op : CircuitBreakerOp) (hin : s.InPeriod op) : (s.step op).Fair := by
  cases op with
  | request id => exact h.request id hin
  | respond number error => exact h.respond number error hin
  | protocolError => exact h.protocolError
  | advance nanoseconds => exact ⟨h.keyed, h.counted, h.earned, h.unanswered, h.known, h.closings⟩

/-- A half open circuit lets no more requests through than it may, the one that made it half open
counted, and closes only after as many of these were successful as it needs. -/
structure Bounded (s : CircuitBreaker) : Prop where
  probes : s.state = .halfOpen → s.probes.length ≤ s.config.halfOpenMaxRequests
  closings : ∀ count ∈ s.closings, s.config.halfOpenSuccessThreshold ≤ count

/-- **The breaker keeps its bounds**, in every run in which no request is one too many for it and no
success comes from before. -/
theorem bounded_run {config : CircuitBreakerConfig} {now : Nat} {ops : List CircuitBreakerOp}
    (h : Runs.Guarded step InPeriod (new config now) ops) : (Runs.run step (new config now) ops).Bounded := by
  have hfair : (Runs.run step (new config now) ops).Fair :=
    Runs.invariant step (fun _ op hok hs => hs.step op hok) (fair_new config now) h
  exact ⟨fun hstate => (hfair.counted hstate).2, hfair.closings⟩

/-- The limits a breaker has when nothing else is asked for. -/
def defaultConfig : CircuitBreakerConfig where
  failureThreshold := 5
  errorRateExceeds := fun failures total => total < 2 * failures
  minRequests := 10
  timeout := 30000
  windowSize := 60000
  halfOpenMaxRequests := 3
  halfOpenSuccessThreshold := 2
  trackErrors := true

/-- Five failures, and then a while. -/
def failing : List CircuitBreakerOp :=
  List.replicate 5 .protocolError ++ [.advance 30000000000]

/-- A request makes the circuit half open, another follows, and both are successful. -/
theorem bounded_run_recovering :
    (Runs.run step (new defaultConfig 0)
      (failing ++ [.request (.number 1), .request (.number 2), .respond 0 none, .respond 1 none])).Bounded := by
  refine bounded_run ⟨trivial, trivial, trivial, trivial, trivial, trivial, ⟨by decide, by decide⟩,
    ⟨by decide, by decide⟩, fun _ _ id info hid hinfo => ?_, fun _ _ id info hid hinfo => ?_, trivial⟩
  · cases hid
    cases hinfo
    decide
  · cases hid
    cases hinfo
    decide

/-- Four requests go through a half open circuit that is to let through three. -/
theorem not_bounded_failing :
    ¬ (Runs.run step (new defaultConfig 0)
      (failing ++ [.request (.number 1), .request (.number 2), .request (.number 3),
        .request (.number 4)])).Bounded :=
  fun h => absurd (h.probes (by decide)) (by decide)

end CircuitBreaker

end GopherMcp
