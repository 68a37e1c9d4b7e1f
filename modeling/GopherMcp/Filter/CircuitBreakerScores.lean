import GopherMcp.Filter.CircuitBreakerRuns

/-!
# What the circuit breaker scores a response with

A response is scored with the method and the start time kept under the key of its id. Each request that was let
through is scored once, with its own, whatever order the responses come in, just if no request is let through
while another with the same key awaits its response. Ids that differ may have the same key.
-/

namespace GopherMcp

/-- What a response was scored with. `number` is the request it answers. -/
structure Score where
  number : Nat
  method : Bytes
  startTime : Nat

/-- The breaker, and beside it: the method of each request that came and the time it came at, which of them were
let through, and what the responses were scored with. -/
structure ScoredBreaker where
  breaker : CircuitBreaker
  methods : List Bytes
  startTimes : List Nat
  admitted : List Nat
  scores : List Score

inductive ScoredOp
  | request (id : RequestId) (method : Bytes)
  | respond (number : Nat) (error : Option Int32)
  | protocolError
  | advance (nanoseconds : Nat)

namespace CircuitBreaker

variable {s : CircuitBreaker}

/-! ### What an operation does to the table -/

theorem allowRequest_books (s : CircuitBreaker) :
    s.allowRequest.1.pendingRequests = s.pendingRequests ∧ s.allowRequest.1.awaiting = s.awaiting ∧
      s.allowRequest.1.arrivals = s.arrivals ∧ s.allowRequest.1.now = s.now := by
  obtain hallow | ⟨-, hallow⟩ | ⟨-, hallow⟩ | ⟨-, -, hallow⟩ := allowRequest_cases s <;> rw [hallow] <;>
    exact ⟨rfl, rfl, rfl, rfl⟩

theorem admitRequest_of_allowed {id : RequestId} (h : s.allowRequest.2 = true) :
    (s.admitRequest id).2 = true ∧
      (s.admitRequest id).1.pendingRequests =
        s.pendingRequests.insert (requestIdToString id) ⟨s.arrivals.length, s.now⟩ ∧
      (s.admitRequest id).1.awaiting = s.awaiting ++ [s.arrivals.length] ∧
      (s.admitRequest id).1.arrivals = s.arrivals ++ [id] := by
  obtain ⟨hpending, hawaiting, harrivals, hnow⟩ := allowRequest_books { s with arrivals := s.arrivals ++ [id] }
  have hallowed : ({ s with arrivals := s.arrivals ++ [id] }.allowRequest).2 = true :=
    (allowRequest_arrivals s _).trans h
  rw [admitRequest]
  simp only [hallowed, if_true, track, hpending, hawaiting, harrivals, hnow]
  exact ⟨trivial, trivial, trivial, trivial⟩

theorem admitRequest_of_refused {id : RequestId} (h : s.allowRequest.2 = false) :
    (s.admitRequest id).2 = false ∧ (s.admitRequest id).1.pendingRequests = s.pendingRequests ∧
      (s.admitRequest id).1.awaiting = s.awaiting ∧ (s.admitRequest id).1.arrivals = s.arrivals ++ [id] := by
  obtain ⟨hpending, hawaiting, harrivals, -⟩ := allowRequest_books { s with arrivals := s.arrivals ++ [id] }
  have hrefused : ({ s with arrivals := s.arrivals ++ [id] }.allowRequest).2 = false :=
    (allowRequest_arrivals s _).trans h
  rw [admitRequest]
  simp only [hrefused, Bool.false_eq_true, if_false, hpending, hawaiting, harrivals]
  exact ⟨trivial, trivial, trivial, trivial⟩

/-- A response takes away what is kept under its key. -/
theorem onResponse_books {number : Nat} {id : RequestId} (hid : s.arrivals[number]? = some id)
    (error : Option Int32) :
    (s.onResponse number error).arrivals = s.arrivals ∧
      (s.onResponse number error).awaiting = s.awaiting.erase number ∧
      (s.onResponse number error).pendingRequests = s.pendingRequests.erase (requestIdToString id) := by
  cases hinfo : s.pendingRequests.find? (requestIdToString id) with
  | none =>
      rw [onResponse_of_none hid hinfo, OrdMap.erase_of_find?_eq_none hinfo]
      exact ⟨rfl, rfl, rfl⟩
  | some info =>
      by_cases hsuccess : s.countsAsSuccess error = true
      · obtain ⟨t, hspec, heq⟩ := onResponse_success hid hinfo hsuccess
        rw [heq]
        exact ⟨hspec.books.arrivals, hspec.books.awaiting, rfl⟩
      · obtain ⟨t, hbooks, -, -, heq⟩ := onResponse_failure hid hinfo hsuccess
        rw [heq]
        exact ⟨hbooks.arrivals, hbooks.awaiting, rfl⟩

theorem onProtocolError_books (s : CircuitBreaker) : SameBooks s s.onProtocolError := by
  rw [onProtocolError]
  split_ifs
  · exact (recordFailure_spec s).1
  · exact .refl s

end CircuitBreaker

/-! ### Keys -/

/-- Ids that are kept apart: a number only by its low 32 bits, and from a string only if that does not spell
them. -/
def RequestId.Apart : RequestId → RequestId → Prop
  | .string left, .string right => left ≠ right
  | .number left, .number right => left.toInt32 ≠ right.toInt32
  | .string text, .number value => text ≠ toDecimalSigned value.toInt32.toInt64
  | .number value, .string text => toDecimalSigned value.toInt32.toInt64 ≠ text

theorem RequestId.apart_iff (left right : RequestId) :
    left.Apart right ↔ CircuitBreaker.requestIdToString left ≠ CircuitBreaker.requestIdToString right := by
  cases left with
  | string left => cases right <;> exact Iff.rfl
  | number left =>
      cases right with
      | string right => exact Iff.rfl
      | number right =>
          apply not_congr
          constructor
          · exact fun h => congrArg (fun value : Int32 => toDecimalSigned value.toInt64) h
          · intro h
            have hwide := toDecimalSigned_injective h
            rw [← Int32.toInt32_toInt64 left.toInt32, hwide, Int32.toInt32_toInt64]

theorem RequestId.injOn_iff (ids : Set RequestId) :
    ids.InjOn CircuitBreaker.requestIdToString ↔ ids.Pairwise RequestId.Apart := by
  constructor
  · intro hinjective left hleft right hright hne
    rw [RequestId.apart_iff]
    exact fun hsame => hne (hinjective hleft hright hsame)
  · intro hapart left hleft right hright hsame
    by_contra hne
    exact (RequestId.apart_iff left right).mp (hapart hleft hright hne) hsame

namespace ScoredBreaker

open CircuitBreaker (requestIdToString)

def new (config : CircuitBreakerConfig) (now : Nat) : ScoredBreaker where
  breaker := .new config now
  methods := []
  startTimes := []
  admitted := []
  scores := []

def keyOf (s : ScoredBreaker) (number : Nat) : Option Bytes := s.breaker.arrivals[number]?.map requestIdToString

/-- What the response to a request is scored with, if it is. -/
def scoreOf (s : ScoredBreaker) (number : Nat) : Option Score :=
  (s.keyOf number).bind fun key => (s.breaker.pendingRequests.find? key).bind fun info =>
    s.methods[info.number]?.map fun method => ⟨number, method, info.startTime⟩

def step (s : ScoredBreaker) : ScoredOp → ScoredBreaker
  | .request id method =>
      let (breaker, allowed) := s.breaker.admitRequest id
      { s with
        breaker
        methods := s.methods ++ [method]
        startTimes := s.startTimes ++ [s.breaker.now]
        admitted := if allowed then s.admitted ++ [s.breaker.arrivals.length] else s.admitted }
  | .respond number error =>
      { s with breaker := s.breaker.onResponse number error, scores := s.scores ++ (s.scoreOf number).toList }
  | .protocolError => { s with breaker := s.breaker.onProtocolError }
  | .advance nanoseconds => { s with breaker := s.breaker.step (.advance nanoseconds) }

/-- Scored with the method and the start time of its own request. -/
def Own (s : ScoredBreaker) (score : Score) : Prop :=
  s.methods[score.number]? = some score.method ∧ s.startTimes[score.number]? = some score.startTime

/-- Every response was scored with its own, and each request that was let through was scored once. -/
structure Settled (s : ScoredBreaker) : Prop where
  own : ∀ score ∈ s.scores, s.Own score
  once : (s.scores.map Score.number).Perm s.admitted

def answer (response : Nat × Option Int32) : ScoredOp := .respond response.1 response.2

/-- Whatever order the responses that are still awaited come in, all is settled then. -/
def MatchesAnyOrder (config : CircuitBreakerConfig) (now : Nat) (ops : List ScoredOp) : Prop :=
  ∀ responses : List (Nat × Option Int32),
    (responses.map Prod.fst).Perm (Runs.run step (new config now) ops).breaker.awaiting →
      Settled (Runs.run step (new config now) (ops ++ responses.map answer))

/-- A response is one to a request that awaits it. -/
def Awaited (s : ScoredBreaker) : ScoredOp → Prop
  | .respond number _ => number ∈ s.breaker.awaiting
  | _ => True

/-- A request is only let through while the ids of those that await their response are apart from its own. -/
def KeptApart (s : ScoredBreaker) : ScoredOp → Prop
  | .request id _ =>
      s.breaker.allowRequest.2 = true →
        ∀ number ∈ s.breaker.awaiting, ∀ other, s.breaker.arrivals[number]? = some other → other.Apart id
  | _ => True

variable {s t : ScoredBreaker}

/-! ### What is kept -/

/-- What is kept is what awaits its response, each request under its own key. -/
structure Sound (s : ScoredBreaker) : Prop where
  methods : s.methods.length = s.breaker.arrivals.length
  startTimes : s.startTimes.length = s.breaker.arrivals.length
  known : ∀ number ∈ s.breaker.awaiting, number < s.breaker.arrivals.length
  nodup : s.breaker.awaiting.Nodup
  distinct : ∀ left ∈ s.breaker.awaiting, ∀ right ∈ s.breaker.awaiting, s.keyOf left = s.keyOf right → left = right
  kept : ∀ key info, s.breaker.pendingRequests.find? key = some info ↔ info.number ∈ s.breaker.awaiting ∧
    s.keyOf info.number = some key ∧ s.startTimes[info.number]? = some info.startTime
  size : s.breaker.pendingRequests.size = s.breaker.awaiting.length
  own : ∀ score ∈ s.scores, s.Own score
  once : (s.scores.map Score.number ++ s.breaker.awaiting).Perm s.admitted

theorem sound_new (config : CircuitBreakerConfig) (now : Nat) : (new config now).Sound where
  methods := rfl
  startTimes := rfl
  known _ h := absurd h List.not_mem_nil
  nodup := List.nodup_nil
  distinct _ h := absurd h List.not_mem_nil
  kept key info := by
    constructor
    · intro h
      cases h
    · intro h
      exact absurd h.1 List.not_mem_nil
  size := rfl
  own _ h := absurd h List.not_mem_nil
  once := List.Perm.nil

/-- Where the books of the breaker stay the same, so does what is kept. -/
theorem Sound.of_sameBooks (h : s.Sound) {breaker : CircuitBreaker} (hbooks : s.breaker.SameBooks breaker) :
    ({ s with breaker } : ScoredBreaker).Sound := by
  obtain ⟨-, hpending, harrivals, hawaiting, -, -⟩ := hbooks
  have hkey (number : Nat) : ({ s with breaker } : ScoredBreaker).keyOf number = s.keyOf number := by
    rw [keyOf, keyOf, harrivals]
  refine ⟨?_, ?_, ?_, ?_, ?_, ?_, ?_, h.own, ?_⟩
  · rw [harrivals]
    exact h.methods
  · rw [harrivals]
    exact h.startTimes
  · rw [harrivals, hawaiting]
    exact h.known
  · rw [hawaiting]
    exact h.nodup
  · simp only [hkey, hawaiting]
    exact h.distinct
  · simp only [hkey, hawaiting, hpending]
    exact h.kept
  · rw [hpending, hawaiting]
    exact h.size
  · rw [hawaiting]
    exact h.once

/-- What came before keeps its key, its method and its start time when another request comes. -/
theorem getElem?_concat_of_lt {α : Type} {list : List α} {number : Nat} (h : number < list.length) (last : α) :
    (list ++ [last])[number]? = list[number]? := List.getElem?_append_left h

/-- `t` is `s` after a request came, let through or not. -/
structure Came (s t : ScoredBreaker) (id : RequestId) (method : Bytes) : Prop where
  arrivals : t.breaker.arrivals = s.breaker.arrivals ++ [id]
  methods : t.methods = s.methods ++ [method]
  startTimes : t.startTimes = s.startTimes ++ [s.breaker.now]
  scores : t.scores = s.scores

theorem came_request (s : ScoredBreaker) (id : RequestId) (method : Bytes) :
    Came s (s.step (.request id method)) id method := by
  refine ⟨?_, rfl, rfl, rfl⟩
  cases hallow : s.breaker.allowRequest.2 with
  | true => exact (CircuitBreaker.admitRequest_of_allowed hallow).2.2.2
  | false => exact (CircuitBreaker.admitRequest_of_refused hallow).2.2.2

section Came

variable {id : RequestId} {method : Bytes}

theorem Came.keyOf (hcame : Came s t id method) {number : Nat} (hlt : number < s.breaker.arrivals.length) :
    t.keyOf number = s.keyOf number := by
  rw [ScoredBreaker.keyOf, hcame.arrivals, getElem?_concat_of_lt hlt, ScoredBreaker.keyOf]

theorem Came.keyOf_last (hcame : Came s t id method) :
    t.keyOf s.breaker.arrivals.length = some (requestIdToString id) := by
  rw [ScoredBreaker.keyOf, hcame.arrivals, List.getElem?_concat_length]
  rfl

theorem Came.own (hcame : Came s t id method) {score : Score} (h : s.Own score) : t.Own score := by
  obtain ⟨hmethod, hstart⟩ := h
  refine ⟨?_, ?_⟩
  · rw [hcame.methods, getElem?_concat_of_lt (List.getElem?_eq_some_iff.mp hmethod).1, hmethod]
  · rw [hcame.startTimes, getElem?_concat_of_lt (List.getElem?_eq_some_iff.mp hstart).1, hstart]

theorem Came.startTime (hcame : Came s t id method) (h : s.Sound) {number : Nat}
    (hlt : number < s.breaker.arrivals.length) : t.startTimes[number]? = s.startTimes[number]? := by
  rw [hcame.startTimes, getElem?_concat_of_lt (h.startTimes ▸ hlt)]

theorem Came.length (hcame : Came s t id method) (h : s.Sound) :
    t.methods.length = t.breaker.arrivals.length ∧ t.startTimes.length = t.breaker.arrivals.length := by
  rw [hcame.methods, hcame.startTimes, hcame.arrivals, List.length_append, List.length_append, List.length_append,
    h.methods, h.startTimes]
  exact ⟨rfl, rfl⟩

theorem Sound.refused (h : s.Sound) (hcame : Came s t id method)
    (hpending : t.breaker.pendingRequests = s.breaker.pendingRequests)
    (hawaiting : t.breaker.awaiting = s.breaker.awaiting) (hadmitted : t.admitted = s.admitted) : t.Sound where
  methods := (hcame.length h).1
  startTimes := (hcame.length h).2
  known number hnumber := by
    rw [hawaiting] at hnumber
    rw [hcame.arrivals, List.length_append]
    exact Nat.lt_add_right _ (h.known number hnumber)
  nodup := hawaiting ▸ h.nodup
  distinct left hleft right hright hsame := by
    rw [hawaiting] at hleft hright
    rw [hcame.keyOf (h.known left hleft), hcame.keyOf (h.known right hright)] at hsame
    exact h.distinct left hleft right hright hsame
  kept key info := by
    rw [hpending, hawaiting, h.kept]
    apply and_congr_right
    intro hmem
    rw [hcame.keyOf (h.known _ hmem), hcame.startTime h (h.known _ hmem)]
  size := by rw [hpending, hawaiting, h.size]
  own score hscore := hcame.own (h.own score (hcame.scores ▸ hscore))
  once := by rw [hcame.scores, hawaiting, hadmitted]; exact h.once

/-- A key that is apart from those kept is not kept. -/
theorem Sound.find?_of_apart (h : s.Sound)
    (hapart : ∀ number ∈ s.breaker.awaiting, ∀ other, s.breaker.arrivals[number]? = some other → other.Apart id) :
    s.breaker.pendingRequests.find? (requestIdToString id) = none := by
  rw [Option.eq_none_iff_forall_ne_some]
  intro info hinfo
  obtain ⟨hmem, hkey, -⟩ := (h.kept _ info).mp hinfo
  obtain ⟨other, hother, hsame⟩ := Option.map_eq_some_iff.mp hkey
  exact (RequestId.apart_iff other id).mp (hapart info.number hmem other hother) hsame

/-- What awaits its response is kept under its key. -/
theorem Sound.find?_of_awaiting (h : s.Sound) {number : Nat} (hnumber : number ∈ s.breaker.awaiting) :
    ∃ id startTime, s.breaker.arrivals[number]? = some id ∧ s.startTimes[number]? = some startTime ∧
      s.breaker.pendingRequests.find? (requestIdToString id) = some ⟨number, startTime⟩ := by
  have hlt := h.known number hnumber
  have hid : s.breaker.arrivals[number]? = some s.breaker.arrivals[number] := List.getElem?_eq_getElem hlt
  have hltStart : number < s.startTimes.length := h.startTimes ▸ hlt
  have hstart : s.startTimes[number]? = some s.startTimes[number] := List.getElem?_eq_getElem hltStart
  refine ⟨_, _, hid, hstart, (h.kept _ _).mpr ⟨hnumber, ?_, hstart⟩⟩
  rw [ScoredBreaker.keyOf, hid]
  rfl

theorem Sound.keyOf_ne (h : s.Sound) {number : Nat} (hnumber : number ∈ s.breaker.awaiting) {key : Bytes}
    (hfresh : s.breaker.pendingRequests.find? key = none) : s.keyOf number ≠ some key := by
  obtain ⟨id, startTime, hid, -, hfind⟩ := h.find?_of_awaiting hnumber
  rw [ScoredBreaker.keyOf, hid]
  rintro hsame
  rw [Option.some.inj hsame, hfresh] at hfind
  cases hfind

theorem Sound.let_through (h : s.Sound) (hcame : Came s t id method)
    (hfresh : s.breaker.pendingRequests.find? (requestIdToString id) = none)
    (hpending : t.breaker.pendingRequests =
      s.breaker.pendingRequests.insert (requestIdToString id) ⟨s.breaker.arrivals.length, s.breaker.now⟩)
    (hawaiting : t.breaker.awaiting = s.breaker.awaiting ++ [s.breaker.arrivals.length])
    (hadmitted : t.admitted = s.admitted ++ [s.breaker.arrivals.length]) : t.Sound where
  methods := (hcame.length h).1
  startTimes := (hcame.length h).2
  known number hnumber := by
    rw [hawaiting, List.mem_append, List.mem_singleton] at hnumber
    rw [hcame.arrivals, List.length_append, List.length_singleton]
    obtain hold | hnew := hnumber
    · exact Nat.lt_add_right _ (h.known number hold)
    · omega
  nodup := by
    rw [hawaiting, List.nodup_append]
    refine ⟨h.nodup, List.nodup_singleton _, ?_⟩
    intro number hnumber last hlast
    rw [List.mem_singleton.mp hlast]
    exact (h.known number hnumber).ne
  distinct left hleft right hright hsame := by
    have hold {number : Nat} (hnumber : number ∈ s.breaker.awaiting) :
        t.keyOf number ≠ t.keyOf s.breaker.arrivals.length := by
      rw [hcame.keyOf (h.known number hnumber), hcame.keyOf_last]
      exact h.keyOf_ne hnumber hfresh
    rw [hawaiting, List.mem_append, List.mem_singleton] at hleft hright
    obtain hleft | rfl := hleft
    · obtain hright | rfl := hright
      · rw [hcame.keyOf (h.known left hleft), hcame.keyOf (h.known right hright)] at hsame
        exact h.distinct left hleft right hright hsame
      · exact absurd hsame (hold hleft)
    · obtain hright | rfl := hright
      · exact absurd hsame.symm (hold hright)
      · rfl
  kept key info := by
    have hlastTime : t.startTimes[s.breaker.arrivals.length]? = some s.breaker.now := by
      rw [hcame.startTimes, ← h.startTimes, List.getElem?_concat_length]
    rw [hpending, hawaiting, OrdMap.find?_insert, List.mem_append, List.mem_singleton]
    split_ifs with hkey
    · constructor
      · intro hsome
        obtain rfl := Option.some.inj hsome
        exact ⟨Or.inr rfl, hkey ▸ hcame.keyOf_last, hlastTime⟩
      · rintro ⟨hold | hnew, hown, hstart⟩
        · rw [hcame.keyOf (h.known _ hold), hkey] at hown
          exact absurd hown (h.keyOf_ne hold hfresh)
        · obtain ⟨number, startTime⟩ := info
          obtain rfl : number = s.breaker.arrivals.length := hnew
          rw [hlastTime] at hstart
          rw [Option.some.inj hstart]
    · rw [h.kept]
      constructor
      · rintro ⟨hmem, hown, hstart⟩
        rw [← hcame.keyOf (h.known _ hmem)] at hown
        rw [← hcame.startTime h (h.known _ hmem)] at hstart
        exact ⟨Or.inl hmem, hown, hstart⟩
      · rintro ⟨hold | hnew, hown, hstart⟩
        · rw [hcame.keyOf (h.known _ hold)] at hown
          rw [hcame.startTime h (h.known _ hold)] at hstart
          exact ⟨hold, hown, hstart⟩
        · rw [hnew, hcame.keyOf_last] at hown
          exact absurd (Option.some.inj hown).symm hkey
  size := by
    rw [hpending, hawaiting, OrdMap.size_insert, OrdMap.erase_of_find?_eq_none hfresh, h.size, List.length_append]
    rfl
  own score hscore := hcame.own (h.own score (hcame.scores ▸ hscore))
  once := by
    rw [hcame.scores, hawaiting, hadmitted, ← List.append_assoc]
    exact h.once.append_right _

theorem Sound.request (h : s.Sound) (hapart : s.KeptApart (.request id method)) :
    (s.step (.request id method)).Sound := by
  have hcame := came_request s id method
  cases hallow : s.breaker.allowRequest.2 with
  | false =>
      obtain ⟨hrefused, hpending, hawaiting, -⟩ := @CircuitBreaker.admitRequest_of_refused _ id hallow
      refine h.refused hcame hpending hawaiting ?_
      change (if (s.breaker.admitRequest id).2 then _ else _) = _
      rw [hrefused, if_neg Bool.false_ne_true]
  | true =>
      obtain ⟨hallowed, hpending, hawaiting, -⟩ := @CircuitBreaker.admitRequest_of_allowed _ id hallow
      refine h.let_through hcame (h.find?_of_apart (hapart hallow)) hpending hawaiting ?_
      change (if (s.breaker.admitRequest id).2 then _ else _) = _
      rw [hallowed, if_pos rfl]

end Came

/-- Scored with its own, and no longer kept. -/
theorem Sound.respond (h : s.Sound) {number : Nat} (error : Option Int32) (hnumber : number ∈ s.breaker.awaiting) :
    (s.step (.respond number error)).Sound := by
  obtain ⟨id, startTime, hid, hstart, hfind⟩ := h.find?_of_awaiting hnumber
  obtain ⟨harrivals, hawaiting, hpending⟩ :
      (s.step (.respond number error)).breaker.arrivals = s.breaker.arrivals ∧
        (s.step (.respond number error)).breaker.awaiting = s.breaker.awaiting.erase number ∧
        (s.step (.respond number error)).breaker.pendingRequests =
          s.breaker.pendingRequests.erase (requestIdToString id) := CircuitBreaker.onResponse_books hid error
  have hkeyOf (other : Nat) : (s.step (.respond number error)).keyOf other = s.keyOf other := by
    rw [ScoredBreaker.keyOf, harrivals, ScoredBreaker.keyOf]
  have hnumberKey : s.keyOf number = some (requestIdToString id) := by
    rw [ScoredBreaker.keyOf, hid]
    rfl
  have hltMethod : number < s.methods.length := h.methods ▸ h.known number hnumber
  have hmethod : s.methods[number]? = some s.methods[number] := List.getElem?_eq_getElem hltMethod
  have hscore : s.scoreOf number = some ⟨number, s.methods[number], startTime⟩ := by
    rw [scoreOf, ScoredBreaker.keyOf, hid]
    change (s.breaker.pendingRequests.find? (requestIdToString id)).bind _ = _
    rw [hfind, Option.bind_some, hmethod]
    rfl
  have hscores : (s.step (.respond number error)).scores = s.scores ++ [⟨number, s.methods[number], startTime⟩] := by
    change s.scores ++ (s.scoreOf number).toList = _
    rw [hscore]
    rfl
  have herase {other : Nat} : other ∈ s.breaker.awaiting.erase number ↔ other ∈ s.breaker.awaiting ∧ other ≠ number := by
    rw [h.nodup.mem_erase_iff, and_comm]
  exact
    { methods := by
        rw [harrivals]
        exact h.methods
      startTimes := by
        rw [harrivals]
        exact h.startTimes
      known := by
        intro other hother
        rw [harrivals]
        exact h.known other (herase.mp (hawaiting ▸ hother)).1
      nodup := hawaiting ▸ h.nodup.erase number
      distinct := by
        intro left hleft right hright hsame
        rw [hkeyOf, hkeyOf] at hsame
        exact h.distinct left (herase.mp (hawaiting ▸ hleft)).1 right (herase.mp (hawaiting ▸ hright)).1 hsame
      kept := by
        intro key info
        rw [hkeyOf, hawaiting, hpending, OrdMap.find?_erase, herase]
        split_ifs with hkey
        · constructor
          · intro hnone
            cases hnone
          · rintro ⟨⟨hmem, hother⟩, hown, -⟩
            refine absurd (h.distinct _ hmem number hnumber ?_) hother
            rw [hown, hnumberKey, hkey]
        · rw [h.kept]
          constructor
          · rintro ⟨hmem, hown, htime⟩
            refine ⟨⟨hmem, ?_⟩, hown, htime⟩
            rintro hsame
            rw [hsame, hnumberKey] at hown
            exact hkey (Option.some.inj hown).symm
          · rintro ⟨⟨hmem, -⟩, hown, htime⟩
            exact ⟨hmem, hown, htime⟩
      size := by
        have hlength := List.length_erase_of_mem hnumber
        have hsize := OrdMap.size_of_find? hfind
        have hpos := List.length_pos_of_mem hnumber
        rw [h.size] at hsize
        rw [hawaiting, hpending, hlength]
        omega
      own := by
        intro score hmem
        rw [hscores, List.mem_append, List.mem_singleton] at hmem
        obtain hold | rfl := hmem
        · exact h.own score hold
        · exact ⟨hmethod, hstart⟩
      once := by
        rw [hscores, hawaiting, List.map_append, List.append_assoc]
        exact ((List.perm_cons_erase hnumber).symm.append_left _).trans h.once }

theorem Sound.step (h : s.Sound) (op : ScoredOp) (hawaited : s.Awaited op) (hapart : s.KeptApart op) :
    (s.step op).Sound := by
  cases op with
  | request id method => exact h.request hapart
  | respond number error => exact h.respond error hawaited
  | protocolError => exact h.of_sameBooks (CircuitBreaker.onProtocolError_books s.breaker)
  | advance nanoseconds => exact h.of_sameBooks ⟨rfl, rfl, rfl, rfl, rfl, rfl⟩

/-- When all responses came, all is settled. -/
theorem Sound.settled (h : s.Sound) {responses : List (Nat × Option Int32)}
    (hresponses : (responses.map Prod.fst).Perm s.breaker.awaiting) :
    Settled (Runs.run ScoredBreaker.step s (responses.map answer)) := by
  induction responses generalizing s with
  | nil =>
      have hnone : s.breaker.awaiting = [] := List.nil_perm.mp hresponses
      refine ⟨h.own, ?_⟩
      have honce := h.once
      rw [hnone, List.append_nil] at honce
      exact honce
  | cons response rest ih =>
      obtain ⟨number, error⟩ := response
      have hnumber : number ∈ s.breaker.awaiting := hresponses.subset List.mem_cons_self
      obtain ⟨id, -, hid, -⟩ := h.find?_of_awaiting hnumber
      apply ih (h.respond error hnumber)
      rw [show (s.step (.respond number error)).breaker.awaiting = s.breaker.awaiting.erase number from
        (CircuitBreaker.onResponse_books hid error).2.1]
      exact (List.cons_perm_iff_perm_erase.mp hresponses).2

/-! ### What is lost -/

/-- None of the requests that were let through is neither kept nor scored. -/
def NoneLost (s : ScoredBreaker) : Prop := s.admitted.length = s.scores.length + s.breaker.pendingRequests.size

/-- No request is found again. -/
def NotFewerLost (s t : ScoredBreaker) : Prop :=
  t.scores.length + t.breaker.pendingRequests.size + s.admitted.length ≤
    s.scores.length + s.breaker.pendingRequests.size + t.admitted.length

theorem Sound.noneLost (h : s.Sound) : s.NoneLost := by
  have hlength := h.once.length_eq
  rw [List.length_append, List.length_map] at hlength
  rw [NoneLost, h.size, hlength]

theorem size_insert_le {κ ν : Type} [LinearOrder κ] (m : OrdMap κ ν) (key : κ) (value : ν) :
    (m.insert key value).size ≤ m.size + 1 := by
  rw [OrdMap.size_insert]
  cases hfind : m.find? key with
  | none => rw [OrdMap.erase_of_find?_eq_none hfind]
  | some old =>
      have := OrdMap.size_of_find? hfind
      omega

theorem notFewerLost_step (s : ScoredBreaker) (op : ScoredOp) : NotFewerLost s (s.step op) := by
  cases op with
  | request id method =>
      change _ + (s.breaker.admitRequest id).1.pendingRequests.size + _ ≤ _ + _ +
        (if (s.breaker.admitRequest id).2 then _ else _ : List Nat).length
      cases hallow : s.breaker.allowRequest.2 with
      | false =>
          obtain ⟨hrefused, hpending, -⟩ := @CircuitBreaker.admitRequest_of_refused _ id hallow
          rw [hpending, hrefused, if_neg Bool.false_ne_true]
          exact Nat.le_refl _
      | true =>
          obtain ⟨hallowed, hpending, -⟩ := @CircuitBreaker.admitRequest_of_allowed _ id hallow
          have hsize := size_insert_le s.breaker.pendingRequests (requestIdToString id)
            ⟨s.breaker.arrivals.length, s.breaker.now⟩
          rw [hpending, hallowed, if_pos rfl, List.length_append, List.length_singleton]
          change s.scores.length + _ + _ ≤ _
          omega
  | respond number error =>
      rw [NotFewerLost]
      change (s.scores ++ (s.scoreOf number).toList).length + (s.breaker.onResponse number error).pendingRequests.size +
        s.admitted.length ≤ s.scores.length + s.breaker.pendingRequests.size + s.admitted.length
      rw [List.length_append, scoreOf, keyOf]
      cases hid : s.breaker.arrivals[number]? with
      | none =>
          rw [CircuitBreaker.onResponse, hid]
          exact Nat.le_refl _
      | some id =>
          rw [(CircuitBreaker.onResponse_books hid error).2.2, Option.map_some, Option.bind_some]
          cases hfind : s.breaker.pendingRequests.find? (requestIdToString id) with
          | none =>
              rw [OrdMap.erase_of_find?_eq_none hfind]
              exact Nat.le_refl _
          | some info =>
              have hsize := OrdMap.size_of_find? hfind
              rw [Option.bind_some]
              cases s.methods[info.number]? with
              | none =>
                  rw [Option.map_none, Option.toList_none, List.length_nil]
                  omega
              | some method =>
                  rw [Option.map_some, Option.toList_some, List.length_singleton]
                  omega
  | protocolError =>
      rw [NotFewerLost]
      change s.scores.length + s.breaker.onProtocolError.pendingRequests.size + _ ≤ _
      rw [(CircuitBreaker.onProtocolError_books s.breaker).pendingRequests]
      exact Nat.le_refl _
  | advance nanoseconds => exact Nat.le_refl _

/-- A request that is let through under a key that is kept takes the place of another. -/
theorem Sound.lost (h : s.Sound) {op : ScoredOp} (hapart : ¬s.KeptApart op) : ¬(s.step op).NoneLost := by
  cases op with
  | request id method =>
      simp only [KeptApart, not_forall] at hapart
      obtain ⟨hallow, number, hnumber, other, hother, hsame⟩ := hapart
      rw [RequestId.apart_iff, not_not] at hsame
      obtain ⟨hallowed, hpending, -⟩ := @CircuitBreaker.admitRequest_of_allowed _ id hallow
      obtain ⟨kept, startTime, hkept, -, hfind⟩ := h.find?_of_awaiting hnumber
      rw [Option.some.inj (hkept.symm.trans hother), hsame] at hfind
      have hsize := OrdMap.size_of_find? hfind
      have hbefore : s.admitted.length = s.scores.length + s.breaker.pendingRequests.size := h.noneLost
      intro hnone
      have hafter : (if (s.breaker.admitRequest id).2 then s.admitted ++ [s.breaker.arrivals.length]
          else s.admitted).length = s.scores.length + (s.breaker.admitRequest id).1.pendingRequests.size := hnone
      rw [hallowed, if_pos rfl, hpending, OrdMap.size_insert, List.length_append, List.length_singleton] at hafter
      omega
  | respond number error => exact absurd trivial hapart
  | protocolError => exact absurd trivial hapart
  | advance nanoseconds => exact absurd trivial hapart

theorem notFewerLost_run (s : ScoredBreaker) (ops : List ScoredOp) : NotFewerLost s (Runs.run step s ops) := by
  refine Runs.related step (fun _ => Nat.le_refl _) ?_ notFewerLost_step s ops
  intro first second third hfirst hsecond
  rw [NotFewerLost] at hfirst hsecond ⊢
  omega

/-- If all is settled in the end, nothing was lost on the way. -/
theorem Settled.noneLost {config : CircuitBreakerConfig} {now : Nat} {before after : List ScoredOp}
    (h : Settled (Runs.run step (new config now) (before ++ after))) :
    NoneLost (Runs.run step (new config now) before) := by
  rw [Runs.run_append] at h
  have hbefore := notFewerLost_run (new config now) before
  have hafter := notFewerLost_run (Runs.run step (new config now) before) after
  have honce := h.once.length_eq
  rw [List.length_map] at honce
  rw [NotFewerLost] at hbefore hafter
  have hstart : (new config now).admitted.length = 0 ∧ (new config now).scores.length = 0 ∧
      (new config now).breaker.pendingRequests.size = 0 := ⟨rfl, rfl, rfl⟩
  rw [NoneLost]
  omega

/-- **When each response is scored with its own request, and each request once**, whatever order they come in:
just if no request is let through while one with the same key awaits its response. Ids have keys of their own just
if they are apart. -/
theorem matchesAnyOrder_iff (config : CircuitBreakerConfig) (now : Nat) {ops : List ScoredOp}
    (hawaited : Runs.Guarded step Awaited (new config now) ops) :
    (MatchesAnyOrder config now ops ↔ Runs.Guarded step KeptApart (new config now) ops) ∧
      ∀ ids : Set RequestId, ids.InjOn requestIdToString ↔ ids.Pairwise RequestId.Apart := by
  refine ⟨⟨?_, ?_⟩, RequestId.injOn_iff⟩
  · intro hmatches
    have hresponses := hmatches ((Runs.run step (new config now) ops).breaker.awaiting.map fun number => (number, none))
      (by rw [List.map_map]; exact List.Perm.of_eq (List.map_id _))
    have heverywhere : (∀ before after, ops = before ++ after → NoneLost (Runs.run step (new config now) before)) ↔
        Runs.Guarded step KeptApart (new config now) ops :=
      @Runs.everywhere_iff_of_inv _ _ step Awaited KeptApart Sound NoneLost
        (fun _ op hawait hapart hsound => hsound.step op hawait hapart) (fun _ hsound => hsound.noneLost)
        (fun _ _ _ hsound hapart => hsound.lost hapart) _ (sound_new config now) _ hawaited
    apply heverywhere.mp
    intro before after hsplit
    rw [hsplit, List.append_assoc] at hresponses
    exact hresponses.noneLost
  · intro hapart responses hresponses
    have hsound : Sound (Runs.run step (new config now) ops) :=
      @Runs.invariant _ _ step (fun s op => s.Awaited op ∧ s.KeptApart op) Sound
        (fun _ op hboth hsound => hsound.step op hboth.1 hboth.2) _ (sound_new config now) _
        (Runs.guarded_and step hawaited hapart)
    rw [Runs.run_append]
    exact hsound.settled hresponses

/-- Two requests with ids that are apart, the second of them answered first. -/
def apartOps : List ScoredOp :=
  [.request (.string (ascii "one")) (ascii "tools/list"), .advance 5000000,
    .request (.number 1) (ascii "tools/call"), .respond 1 none]

theorem matchesAnyOrder_iff_apart :
    (MatchesAnyOrder CircuitBreaker.defaultConfig 0 apartOps ↔
      Runs.Guarded step KeptApart (new CircuitBreaker.defaultConfig 0) apartOps) ∧
      ∀ ids : Set RequestId, ids.InjOn requestIdToString ↔ ids.Pairwise RequestId.Apart := by
  apply matchesAnyOrder_iff
  refine ⟨trivial, trivial, trivial, ?_, trivial⟩
  change 1 ∈ [0, 1]
  decide

/-- The number 5 and the string "5", which are outstanding together. -/
def sameKeyOps : List ScoredOp :=
  [.request (.number 5) (ascii "tools/list"), .advance 5000000, .request (.string (ascii "5")) (ascii "tools/call")]

/-- Ids that differ have one key, and the response to the first is scored with the second. -/
theorem not_matchesAnyOrder_sameKey :
    ¬Function.Injective requestIdToString ∧
      Runs.Guarded step Awaited (new CircuitBreaker.defaultConfig 0) sameKeyOps ∧
      ¬MatchesAnyOrder CircuitBreaker.defaultConfig 0 sameKeyOps := by
  refine ⟨?_, ⟨trivial, trivial, trivial, trivial⟩, ?_⟩
  · intro hinjective
    have hsame : requestIdToString (.number 5) = requestIdToString (.string (ascii "5")) := by decide
    exact RequestId.noConfusion (hinjective hsame)
  · intro hmatches
    have hsettled := hmatches [(0, none), (1, none)] (by decide)
    have hscores : (Runs.run step (new CircuitBreaker.defaultConfig 0)
        (sameKeyOps ++ [(0, none), (1, none)].map answer)).scores = [⟨0, ascii "tools/call", 5000000⟩] := rfl
    have hown := (hsettled.own ⟨0, ascii "tools/call", 5000000⟩ (hscores ▸ List.mem_cons_self)).1
    have hmethods : (Runs.run step (new CircuitBreaker.defaultConfig 0)
        (sameKeyOps ++ [(0, none), (1, none)].map answer)).methods = [ascii "tools/list", ascii "tools/call"] := rfl
    rw [hmethods] at hown
    exact absurd hown (by decide)

end ScoredBreaker

end GopherMcp
