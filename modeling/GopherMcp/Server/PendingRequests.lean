import GopherMcp.Json.Value
import GopherMcp.Lib.OrdMap
import GopherMcp.Lib.Runs
import GopherMcp.Transport.EventId
import GopherMcp.Core.RequestId

/-!
# Requests in hand

The server keeps a record of each request it has not answered yet: who sent it, and whether the client
still wants the answer. Ids are unique only within a session, so the records are kept under a key made of
both. A notice of cancellation names a request of its own session, and an answer that comes late is
attributed to the caller in the record, whoever the session has served since.
-/

namespace GopherMcp

/-- The id's part of a key; the kind of the id is part of it. -/
def pendingIdKey : RequestId → Bytes
  | .string text => ascii "s:" ++ text
  | .number value => ascii "n:" ++ toDecimalSigned value

/-- The key a request in hand is kept under. -/
def pendingKeyOf (sessionId : Bytes) (id : RequestId) : Bytes :=
  toDecimal sessionId.length ++ kColon :: (sessionId ++ pendingIdKey id)

/-- `number` is the request's cancellation, which the record shares with whoever answers. -/
structure PendingRequest where
  number : Nat
  sessionId : Bytes
  id : RequestId
  principal : Bytes
  deriving DecidableEq

namespace PendingRequest

def key (r : PendingRequest) : Bytes := pendingKeyOf r.sessionId r.id

end PendingRequest

/-- `unanswered` are the requests whose dispatch or whose deferred answer is still to forget its record,
and `cancelled` the cancellations that were set off. -/
structure PendingRequests where
  records : OrdMap Bytes PendingRequest
  unanswered : List PendingRequest
  cancelled : List Nat
  count : Nat
  sessionPrincipals : OrdMap Bytes Bytes

inductive PendingOp
  | dispatch (sessionId : Bytes) (id : RequestId) (principal : Bytes)
  | cancelNotice (sessionId : Bytes) (params : JsonValue)
  | disconnect (r : PendingRequest)
  | answer (r : PendingRequest)

/-- The request a notice of cancellation names. -/
def cancelledIdOf (params : JsonValue) : Option RequestId :=
  if !params.isObject || !params.contains (ascii "requestId") then none
  else
    match params.get (ascii "requestId") with
    | .string text => some (.string text)
    | json => if h : json.isInteger then some (.number (json.getInt64 h)) else none

namespace PendingRequests

def empty : PendingRequests where
  records := OrdMap.empty
  unanswered := []
  cancelled := []
  count := 0
  sessionPrincipals := OrdMap.empty

/-- What a dispatch does before any handler runs. -/
def dispatch (s : PendingRequests) (sessionId : Bytes) (id : RequestId) (principal : Bytes) :
    PendingRequests :=
  let r : PendingRequest := { number := s.count, sessionId, id, principal }
  { s with
    records := s.records.insert r.key r
    unanswered := s.unanswered ++ [r]
    count := s.count + 1
    sessionPrincipals := s.sessionPrincipals.insert sessionId principal }

def cancel (s : PendingRequests) (number : Nat) : PendingRequests :=
  if number ∈ s.cancelled then s else { s with cancelled := s.cancelled ++ [number] }

/-- The cancellation of a request in hand. -/
def cancellationOf (s : PendingRequests) (sessionId : Bytes) (id : RequestId) : Option Nat :=
  (s.records.find? (pendingKeyOf sessionId id)).map PendingRequest.number

def cancelNotice (s : PendingRequests) (sessionId : Bytes) (params : JsonValue) : PendingRequests :=
  match (cancelledIdOf params).bind (s.cancellationOf sessionId) with
  | none => s
  | some number => s.cancel number

def forgetPendingRequest (s : PendingRequests) (key : Bytes) : PendingRequests :=
  { s with records := s.records.erase key }

/-- The answer is sent, or withheld from a client that cancelled. Either forgets the record, once. -/
def answer (s : PendingRequests) (r : PendingRequest) : PendingRequests :=
  if r ∈ s.unanswered then
    { s with unanswered := s.unanswered.erase r }.forgetPendingRequest r.key
  else s

/-- Whom an answer is attributed to. `stream` is the caller the stream it goes out on names. -/
def principalOf (s : PendingRequests) (sessionId : Bytes) (id : RequestId) (stream : Option Bytes) :
    Bytes :=
  let elsewhere :=
    if stream.getD [] ≠ [] then stream.getD [] else (s.sessionPrincipals.find? sessionId).getD []
  match s.records.find? (pendingKeyOf sessionId id) with
  | none => elsewhere
  | some r => if r.sessionId = sessionId then r.principal else elsewhere

def step (s : PendingRequests) : PendingOp → PendingRequests
  | .dispatch sessionId id principal => s.dispatch sessionId id principal
  | .cancelNotice sessionId params => s.cancelNotice sessionId params
  | .disconnect r => s.cancel r.number
  | .answer r => s.answer r

end PendingRequests

/-! ### Keys -/

theorem pendingIdKey_injective : Function.Injective pendingIdKey := by
  intro left right h
  cases left with
  | string text =>
      cases right with
      | string other => rw [List.append_cancel_left h]
      | number value => exact absurd (List.cons.inj h).1 (by decide)
  | number value =>
      cases right with
      | string text => exact absurd (List.cons.inj h).1 (by decide)
      | number other => rw [toDecimalSigned_injective (List.append_cancel_left h)]

/-- A colon ends the digits before it. -/
theorem toDecimal_append_inj {m n : Nat} {rest rest' : Bytes}
    (h : toDecimal m ++ kColon :: rest = toDecimal n ++ kColon :: rest') : m = n ∧ rest = rest' := by
  have hdigits (k : Nat) (tail : Bytes) :
      (toDecimal k ++ kColon :: tail).takeWhile (· ≠ kColon) = toDecimal k := by
    rw [List.takeWhile_append_of_pos (fun b hb => decide_eq_true (ne_kColon_of_mem_toDecimal hb))]
    simp
  have hsame : toDecimal m = toDecimal n := by
    rw [← hdigits m rest, h, hdigits]
  rw [hsame] at h
  exact ⟨toDecimal_injective hsame, (List.cons.inj (List.append_cancel_left h)).2⟩

/-- **Keys are told apart.** The length in front says where the session ends, whatever is in it. -/
theorem pendingKeyOf_inj {sessionId sessionId' : Bytes} {id id' : RequestId}
    (h : pendingKeyOf sessionId id = pendingKeyOf sessionId' id') : sessionId = sessionId' ∧ id = id' := by
  obtain ⟨hlength, hrest⟩ := toDecimal_append_inj h
  obtain ⟨hsession, hid⟩ := List.append_inj hrest hlength
  exact ⟨hsession, pendingIdKey_injective hid⟩

namespace PendingRequests

variable {s : PendingRequests} {r : PendingRequest}

/-- The records are those of the unanswered requests, each under its own key. -/
structure Recorded (s : PendingRequests) : Prop where
  recorded : ∀ key r, s.records.find? key = some r ↔ r ∈ s.unanswered ∧ r.key = key
  counted : ∀ r ∈ s.unanswered, r.number < s.count
  apart : (s.unanswered.map PendingRequest.number).Nodup

/-- A request has an id that no request in hand of its session has. -/
def Distinct (s : PendingRequests) : PendingOp → Prop
  | .dispatch sessionId id _ => ∀ r ∈ s.unanswered, r.sessionId = sessionId → r.id ≠ id
  | _ => True

theorem recorded_empty : empty.Recorded where
  recorded key r := by simp [empty]
  counted _ h := absurd h List.not_mem_nil
  apart := List.nodup_nil

theorem Recorded.dispatch (h : s.Recorded) {sessionId : Bytes} {id : RequestId} (principal : Bytes)
    (hdistinct : ∀ r ∈ s.unanswered, r.sessionId = sessionId → r.id ≠ id) :
    (s.dispatch sessionId id principal).Recorded := by
  have hkey (r : PendingRequest) (hr : r ∈ s.unanswered) : r.key ≠ pendingKeyOf sessionId id := by
    intro hsame
    obtain ⟨hsession, hid⟩ := pendingKeyOf_inj hsame
    exact hdistinct r hr hsession hid
  refine ⟨fun key r => ?_, fun r hr => ?_, ?_⟩
  · simp only [PendingRequests.dispatch, OrdMap.find?_insert, List.mem_append, List.mem_singleton]
    split_ifs with hown
    · rw [Option.some.injEq, hown]
      refine ⟨fun heq => ⟨Or.inr heq.symm, heq ▸ rfl⟩, fun hr => ?_⟩
      obtain ⟨hold | hnew, hsame⟩ := hr
      · exact absurd hsame (hkey r hold)
      · exact hnew.symm
    · rw [h.recorded]
      refine ⟨fun hr => ⟨Or.inl hr.1, hr.2⟩, fun hr => ?_⟩
      obtain ⟨hold | hnew, hsame⟩ := hr
      · exact ⟨hold, hsame⟩
      · rw [hnew] at hsame
        exact absurd hsame.symm hown
  · obtain hold | hnew := List.mem_append.mp hr
    · exact Nat.lt_succ_of_lt (h.counted r hold)
    · rw [List.mem_singleton.mp hnew]
      exact Nat.lt_succ_self _
  · simp only [PendingRequests.dispatch, List.map_append, List.map_cons, List.map_nil]
    refine List.nodup_append.mpr ⟨h.apart, List.nodup_singleton _, fun number hold other hnew => ?_⟩
    obtain ⟨r, hr, rfl⟩ := List.mem_map.mp hold
    rw [List.mem_singleton.mp hnew]
    exact (h.counted r hr).ne

theorem Recorded.eq_of_number (h : s.Recorded) {other : PendingRequest} (hr : r ∈ s.unanswered)
    (hother : other ∈ s.unanswered) (hnumber : other.number = r.number) : other = r :=
  List.inj_on_of_nodup_map h.apart hother hr hnumber

theorem Recorded.answer (h : s.Recorded) (r : PendingRequest) : (s.answer r).Recorded := by
  rw [PendingRequests.answer]
  split_ifs with hr
  · have hnodup : s.unanswered.Nodup := List.Nodup.of_map _ h.apart
    refine ⟨fun key other => ?_, fun other hother => h.counted other (List.mem_of_mem_erase hother),
      h.apart.sublist (List.erase_sublist.map _)⟩
    simp only [forgetPendingRequest, OrdMap.find?_erase, hnodup.mem_erase_iff]
    split_ifs with hown
    · refine ⟨nofun, fun hother => ?_⟩
      obtain ⟨⟨hne, hother⟩, hsame⟩ := hother
      have hfound := (h.recorded r.key other).mpr ⟨hother, hsame.trans hown⟩
      rw [(h.recorded r.key r).mpr ⟨hr, rfl⟩] at hfound
      exact absurd (Option.some.inj hfound).symm hne
    · rw [h.recorded]
      refine ⟨fun hother => ⟨⟨fun heq => ?_, hother.1⟩, hother.2⟩, fun hother => ⟨hother.1.2, hother.2⟩⟩
      rw [heq] at hother
      exact hown hother.2.symm
  · exact h

theorem Recorded.cancel (h : s.Recorded) (number : Nat) : (s.cancel number).Recorded := by
  rw [PendingRequests.cancel]
  split_ifs
  · exact h
  · exact ⟨h.recorded, h.counted, h.apart⟩

theorem Recorded.step (h : s.Recorded) (op : PendingOp) (hdistinct : s.Distinct op) :
    (s.step op).Recorded := by
  cases op with
  | dispatch sessionId id principal => exact h.dispatch principal hdistinct
  | cancelNotice sessionId params =>
      rw [PendingRequests.step, cancelNotice]
      split
      · exact h
      · exact h.cancel _
  | disconnect r => exact h.cancel r.number
  | answer r => exact h.answer r

/-- A notice cancels the request in hand of its own session that it names, and nothing else. The record
of a request in hand says to whom its answer belongs. -/
structure Apart (s : PendingRequests) : Prop where
  notice : ∀ sessionId params r, r ∈ s.unanswered →
    (r.number ∈ (s.cancelNotice sessionId params).cancelled ↔
      r.number ∈ s.cancelled ∨ r.sessionId = sessionId ∧ cancelledIdOf params = some r.id)
  others : ∀ sessionId params number, number ∈ (s.cancelNotice sessionId params).cancelled →
    number ∈ s.cancelled ∨ ∃ r ∈ s.unanswered, r.number = number
  attributed : ∀ r ∈ s.unanswered, ∀ stream, s.principalOf r.sessionId r.id stream = r.principal

theorem mem_cancelled_cancel {number other : Nat} :
    other ∈ (s.cancel number).cancelled ↔ other ∈ s.cancelled ∨ other = number := by
  rw [PendingRequests.cancel]
  split_ifs with hmem
  · exact ⟨Or.inl, fun h => h.elim id fun heq => heq ▸ hmem⟩
  · simp

/-- Whatever a notice cancels is the request it names. -/
theorem Recorded.mem_cancelNotice (h : s.Recorded) (sessionId : Bytes) (params : JsonValue)
    (number : Nat) :
    number ∈ (s.cancelNotice sessionId params).cancelled ↔
      number ∈ s.cancelled ∨ ∃ r ∈ s.unanswered, r.number = number ∧
        r.sessionId = sessionId ∧ cancelledIdOf params = some r.id := by
  rw [cancelNotice]
  cases hid : cancelledIdOf params with
  | none => simp
  | some id =>
      rw [Option.bind_some, cancellationOf]
      cases hfound : s.records.find? (pendingKeyOf sessionId id) with
      | none =>
          refine ⟨Or.inl, fun hnumber => hnumber.resolve_right fun hother => ?_⟩
          obtain ⟨r, hr, -, hsession, hsame⟩ := hother
          have hrecord := (h.recorded r.key r).mpr ⟨hr, rfl⟩
          rw [PendingRequest.key, hsession, ← Option.some.inj hsame, hfound] at hrecord
          cases hrecord
      | some r =>
          obtain ⟨hr, hkey⟩ := (h.recorded _ r).mp hfound
          obtain ⟨hsession, hsame⟩ := pendingKeyOf_inj hkey
          refine mem_cancelled_cancel.trans (or_congr_right ⟨fun hnumber => ?_, fun hother => ?_⟩)
          · exact ⟨r, hr, hnumber.symm, hsession, congrArg some hsame.symm⟩
          · obtain ⟨other, hother, hnumber, hsession', hsame'⟩ := hother
            have hrecord := (h.recorded other.key other).mpr ⟨hother, rfl⟩
            rw [PendingRequest.key, hsession', ← Option.some.inj hsame', hfound] at hrecord
            rw [← hnumber, ← Option.some.inj hrecord]

theorem Recorded.isApart (h : s.Recorded) : s.Apart where
  notice sessionId params r hr := by
    rw [h.mem_cancelNotice]
    refine or_congr_right ⟨fun hother => ?_, fun hnamed => ⟨r, hr, rfl, hnamed⟩⟩
    obtain ⟨other, hother, hnumber, hnamed⟩ := hother
    rwa [h.eq_of_number hr hother hnumber] at hnamed
  others sessionId params number hnumber := by
    refine ((h.mem_cancelNotice sessionId params number).mp hnumber).imp_right fun hother => ?_
    obtain ⟨r, hr, hnumber, -⟩ := hother
    exact ⟨r, hr, hnumber⟩
  attributed r hr stream := by
    have hfound : s.records.find? (pendingKeyOf r.sessionId r.id) = some r :=
      (h.recorded r.key r).mpr ⟨hr, rfl⟩
    rw [principalOf, hfound]
    exact if_pos rfl

end PendingRequests

end GopherMcp
