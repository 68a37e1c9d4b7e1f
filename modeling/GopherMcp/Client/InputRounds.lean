import GopherMcp.Core.Error
import GopherMcp.Lib.Runs
import GopherMcp.Protocol.AskedInput
import GopherMcp.Protocol.TracedMessages
import GopherMcp.Transport.EventId

/-!
# Rounds of input

An answer may turn out to be a question. The request then goes out again, with what was asked for in its params, for a
limited number of rounds. The params of a round are those of the round before with two members set where the question
has something for them, so what an earlier round set stays where the latest question has nothing.
-/

namespace GopherMcp

namespace Trace

variable {params other : JsonValue} {context : TraceContext}

theorem isObject_withContext (h : params.isObject = true) : (withContext params context).isObject = true := by
  obtain ⟨-, -, hsame⟩ | hset := withContext_cases params context
  · rw [hsame]
    exact h
  · rw [hset, if_pos h]
    exact JsonValue.isObject_set h _ _

/-- Nothing but `_meta` is touched. -/
theorem get?_withContext_of_ne (h : params.isObject = true) {key : Bytes} (hkey : key ≠ kMeta) :
    (withContext params context).get? key = params.get? key := by
  obtain ⟨-, -, hsame⟩ | hset := withContext_cases params context
  · rw [hsame]
  · rw [hset, if_pos h, JsonValue.get?_set h, if_neg hkey]

/-- What becomes of `_meta` depends on it alone. -/
theorem get?_withContext_meta (h : params.isObject = true) (hother : other.isObject = true)
    (hmeta : params.get? kMeta = other.get? kMeta) :
    (withContext params context).get? kMeta = (withContext other context).get? kMeta := by
  have hgiven : givenMeta params = givenMeta other := by
    unfold givenMeta
    rw [h, hother, JsonValue.contains_eq, JsonValue.contains_eq, JsonValue.get_eq, JsonValue.get_eq, hmeta]
  simp only [withContext, hgiven, h, hother, if_true]
  split_ifs with htaken
  · exact hmeta
  · rw [JsonValue.get?_set h, JsonValue.get?_set hother, if_pos rfl, if_pos rfl]

/-- The params a message has on the wire; without any it is as good as none. -/
def messageParams (text : JsonText) (request : Request) : JsonValue :=
  (paramsField text request.paramsJson request.params).getD .emptyObject

theorem messageParams_requestWithContext (text : JsonText) (request : Request) (context : TraceContext) :
    messageParams text (requestWithContext text request context) =
      withContext (paramsJsonOf text request.paramsJson request.params) context := by
  unfold requestWithContext
  split_ifs with hasIs
  · rw [withContext_of_goesAsItIs hasIs]
    unfold messageParams paramsField paramsJsonOf
    cases request.paramsJson with
    | some json => rfl
    | none =>
        cases request.params with
        | some metadata => rfl
        | none => rfl
  · rfl

end Trace

namespace InputRounds

open Trace (TraceContext messageParams paramsJsonOf requestWithContext withContext metadataToJson)

def kInputResponsesField : Bytes := ascii "inputResponses"
def kRequestStateField : Bytes := ascii "requestState"

/-- A request as it waits for its answer. -/
structure RequestContext where
  id : RequestId
  method : Bytes
  params : Option Metadata
  paramsJson : Option JsonValue
  inputRounds : Nat
  trace : TraceContext

/-- A result, and what the client's own handlers have to say if it asks for something. -/
structure Answer where
  result : JsonValue
  askOurselves : InputRequest → JsonValue

inductive Outcome
  | waiting
  | answered (result : JsonValue)
  | failed (error : Error)

/-- What was asked, and the message that was sent for it. -/
structure Round where
  asked : AskedFor
  askOurselves : InputRequest → JsonValue
  message : Request

/-- The request that is out, and beside it the params it was made with and the rounds so far. -/
structure State where
  request : RequestContext
  nextRequestId : UInt64
  outcome : Outcome
  original : JsonValue
  rounds : List Round

variable (text : JsonText) (mrtrMaxRounds : Nat)

/-- The message of a request. -/
def messageOf (request : RequestContext) : Request :=
  requestWithContext text ⟨ascii "2.0", request.id, request.method, request.params, request.paramsJson⟩ request.trace

/-- The params that a round starts from. -/
def paramsBefore (request : RequestContext) : JsonValue :=
  match request.paramsJson with
  | some (.object fields) => .object fields
  | _ =>
      match request.params with
      | some metadata => metadataToJson text metadata
      | none => .emptyObject

/-- An answer to each question under the key it was asked under. -/
def renderInputResponses (askOurselves : InputRequest → JsonValue) (requests : InputRequests) : JsonValue :=
  .ofFields (requests.entries.map fun entry => (entry.1, some (askOurselves entry.2)))

/-- The params of the next round. -/
def paramsAfter (params : JsonValue) (asked : AskedFor) (askOurselves : InputRequest → JsonValue) : JsonValue :=
  let params :=
    if asked.requests.entries = [] then params
    else params.set kInputResponsesField (renderInputResponses askOurselves asked.requests)
  match asked.requestState with
  | some requestState => params.set kRequestStateField (.string requestState)
  | none => params

/-- The same request under an id of its own, with other params. -/
def carryOver (request : RequestContext) (id : UInt64) (params : JsonValue) : RequestContext :=
  { request with id := .number id.toInt64, paramsJson := some params }

def roundsError (inputRounds : Nat) : Error :=
  ⟨INTERNAL_ERROR, ascii "the server asked for something " ++ toDecimal inputRounds ++
    ascii " times running and never answered"⟩

def askAndSendAgain (s : State) (asked : AskedFor) (askOurselves : InputRequest → JsonValue) : State :=
  if s.request.inputRounds ≥ mrtrMaxRounds then { s with outcome := .failed (roundsError s.request.inputRounds) }
  else
    let params := paramsAfter (paramsBefore text s.request) asked askOurselves
    let again := { carryOver s.request s.nextRequestId params with inputRounds := s.request.inputRounds + 1 }
    { s with
      request := again
      nextRequestId := s.nextRequestId + 1
      rounds := s.rounds ++ [⟨asked, askOurselves, messageOf text again⟩] }

/-- A question is answered in a round of its own, and any other answer is the answer. -/
def handleResponse (s : State) (answer : Answer) : State :=
  match s.outcome with
  | .waiting =>
      let asked := askedForIn answer.result
      if asked.asked then askAndSendAgain text mrtrMaxRounds s asked answer.askOurselves
      else { s with outcome := .answered answer.result }
  | _ => s

/-- A request as the caller made it. -/
def start (request : RequestContext) (nextRequestId : UInt64) : State where
  request := { request with inputRounds := 0 }
  nextRequestId := nextRequestId
  outcome := .waiting
  original := paramsJsonOf text request.paramsJson request.params
  rounds := []

/-! ### A round as it should be -/

/-- The original params with the answers to the latest question and its state, and nothing else. -/
structure AnswersLatest (original : JsonValue) (trace : TraceContext) (round : Round) (sent : JsonValue) : Prop where
  object : original.isObject = true ∧ sent.isObject = true
  unasked : round.asked.requests.entries = [] → sent.get? kInputResponsesField = none
  responses : round.asked.requests.entries ≠ [] →
    ∃ responses, sent.get? kInputResponsesField = some responses ∧ responses.isObject = true ∧
      ∀ key, responses.get? key = (round.asked.requests.find? key).map round.askOurselves
  requestState : sent.get? kRequestStateField = round.asked.requestState.map .string
  others : ∀ key, key ≠ kInputResponsesField → key ≠ kRequestStateField →
    sent.get? key = (withContext original trace).get? key

/-- Every round so far was as it should be. -/
def AllAnswerLatest (s : State) : Prop :=
  ∀ round ∈ s.rounds, AnswersLatest s.original s.request.trace round (messageParams text round.message)

/-- Whether an answer leads to a round. -/
def SendsRound (s : State) (answer : Answer) : Prop :=
  s.outcome = .waiting ∧ (askedForIn answer.result).asked = true ∧ s.request.inputRounds < mrtrMaxRounds

/-- Nothing stays that the question has nothing for: where it asks nothing there are no answers in the params yet, and
where it has no state there is none. -/
def NothingStays (s : State) (answer : Answer) : Prop :=
  SendsRound mrtrMaxRounds s answer →
    s.original.isObject = true ∧
    ((askedForIn answer.result).requests.entries = [] →
      (paramsBefore text s.request).get? kInputResponsesField = none) ∧
    ((askedForIn answer.result).requestState = none →
      (paramsBefore text s.request).get? kRequestStateField = none)

variable {text mrtrMaxRounds} {s : State} {answer : Answer} {original params : JsonValue} {trace : TraceContext}

/-! ### The params of a round -/

theorem get?_renderInputResponses (askOurselves : InputRequest → JsonValue) (requests : InputRequests) (key : Bytes) :
    (renderInputResponses askOurselves requests).get? key = (requests.find? key).map askOurselves :=
  JsonValue.get?_ofFields_map requests askOurselves key

/-- What the params of a round hold under each key. -/
theorem get?_paramsAfter (h : params.isObject = true) (asked : AskedFor) (askOurselves : InputRequest → JsonValue)
    (key : Bytes) :
    (paramsAfter params asked askOurselves).get? key =
      if key = kRequestStateField ∧ asked.requestState.isSome then asked.requestState.map .string
      else if key = kInputResponsesField ∧ asked.requests.entries ≠ [] then
        some (renderInputResponses askOurselves asked.requests)
      else params.get? key := by
  obtain ⟨isAsked, requests, requestState⟩ := asked
  have hfields : kInputResponsesField ≠ kRequestStateField := by decide
  have hset : (params.set kInputResponsesField (renderInputResponses askOurselves requests)).isObject = true :=
    JsonValue.isObject_set h _ _
  have hresponses (key : Bytes) :
      (if requests.entries = [] then params
        else params.set kInputResponsesField (renderInputResponses askOurselves requests)).get? key =
        if key = kInputResponsesField ∧ requests.entries ≠ [] then some (renderInputResponses askOurselves requests)
        else params.get? key := by
    by_cases hnone : requests.entries = []
    · rw [if_pos hnone, if_neg fun hboth => hboth.2 hnone]
    · rw [if_neg hnone, JsonValue.get?_set h]
      by_cases hkey : key = kInputResponsesField
      · rw [if_pos hkey, if_pos ⟨hkey, hnone⟩]
      · rw [if_neg hkey, if_neg fun hboth => hkey hboth.1]
  cases requestState with
  | none =>
      rw [if_neg fun hboth => Bool.false_ne_true hboth.2]
      exact hresponses key
  | some state =>
      have hobject : (if requests.entries = [] then params
          else params.set kInputResponsesField (renderInputResponses askOurselves requests)).isObject = true := by
        split_ifs
        · exact h
        · exact hset
      change JsonValue.get? (JsonValue.set _ _ _) _ = _
      rw [JsonValue.get?_set hobject]
      by_cases hkey : key = kRequestStateField
      · rw [if_pos hkey, if_pos ⟨hkey, rfl⟩]
        rfl
      · rw [if_neg hkey]
        exact (hresponses key).trans (if_neg fun hboth => hkey hboth.1).symm

theorem isObject_paramsAfter (h : params.isObject = true) (asked : AskedFor) (askOurselves : InputRequest → JsonValue) :
    (paramsAfter params asked askOurselves).isObject = true := by
  have hobject : (if asked.requests.entries = [] then params
      else params.set kInputResponsesField (renderInputResponses askOurselves asked.requests)).isObject = true := by
    split_ifs
    · exact h
    · exact JsonValue.isObject_set h _ _
  unfold paramsAfter
  cases asked.requestState with
  | none => exact hobject
  | some state => exact JsonValue.isObject_set hobject _ _

/-- But for the two members the params are the original ones. -/
def Keeps (original params : JsonValue) : Prop :=
  params.isObject = true ∧
    ∀ key, key ≠ kInputResponsesField → key ≠ kRequestStateField → params.get? key = original.get? key

theorem Keeps.paramsAfter (h : Keeps original params) (asked : AskedFor) (askOurselves : InputRequest → JsonValue) :
    Keeps original (paramsAfter params asked askOurselves) := by
  refine ⟨isObject_paramsAfter h.1 asked askOurselves, fun key hresponses hstate => ?_⟩
  rw [get?_paramsAfter h.1, if_neg fun hboth => hstate hboth.1, if_neg fun hboth => hresponses hboth.1]
  exact h.2 key hresponses hstate

/-- So they are with a context in them. -/
theorem Keeps.withContext (h : Keeps original params) (horiginal : original.isObject = true) (trace : TraceContext)
    {key : Bytes} (hresponses : key ≠ kInputResponsesField) (hstate : key ≠ kRequestStateField) :
    (withContext params trace).get? key = (withContext original trace).get? key := by
  by_cases hmeta : key = kMeta
  · rw [hmeta]
    exact Trace.get?_withContext_meta h.1 horiginal (h.2 kMeta (by decide) (by decide))
  · rw [Trace.get?_withContext_of_ne h.1 hmeta, Trace.get?_withContext_of_ne horiginal hmeta]
    exact h.2 key hresponses hstate

/-- **When a round is as it should be**: where nothing stays from the params before it. -/
theorem answersLatest_iff (hkeeps : original.isObject = true → Keeps original params) (round : Round) :
    AnswersLatest original trace round
        (withContext (paramsAfter params round.asked round.askOurselves) trace) ↔
      original.isObject = true ∧
      (round.asked.requests.entries = [] → params.get? kInputResponsesField = none) ∧
      (round.asked.requestState = none → params.get? kRequestStateField = none) := by
  constructor
  · intro hanswers
    have horiginal := hanswers.object.1
    have hbefore := (hkeeps horiginal).1
    have hafter := isObject_paramsAfter hbefore round.asked round.askOurselves
    refine ⟨horiginal, fun hnone => ?_, fun hnone => ?_⟩
    · have habsent := hanswers.unasked hnone
      rwa [Trace.get?_withContext_of_ne hafter (by decide), get?_paramsAfter hbefore,
        if_neg fun hboth => absurd hboth.1 (by decide), if_neg fun hboth => hboth.2 hnone] at habsent
    · have habsent := hanswers.requestState
      rwa [Trace.get?_withContext_of_ne hafter (by decide), get?_paramsAfter hbefore,
        if_neg fun hboth => by rw [hnone] at hboth; exact Bool.false_ne_true hboth.2,
        if_neg fun hboth => absurd hboth.1 (by decide), hnone] at habsent
  · rintro ⟨horiginal, hresponses, hstate⟩
    have hbefore := (hkeeps horiginal).1
    have hafter := isObject_paramsAfter hbefore round.asked round.askOurselves
    refine ⟨⟨horiginal, Trace.isObject_withContext hafter⟩, fun hnone => ?_, fun hsome => ?_, ?_,
      fun key => ((hkeeps horiginal).paramsAfter round.asked round.askOurselves).withContext horiginal trace⟩
    · rw [Trace.get?_withContext_of_ne hafter (by decide), get?_paramsAfter hbefore,
        if_neg fun hboth => absurd hboth.1 (by decide), if_neg fun hboth => hboth.2 hnone]
      exact hresponses hnone
    · refine ⟨renderInputResponses round.askOurselves round.asked.requests, ?_, JsonValue.isObject_ofFields _,
        get?_renderInputResponses _ _⟩
      rw [Trace.get?_withContext_of_ne hafter (by decide), get?_paramsAfter hbefore,
        if_neg fun hboth => absurd hboth.1 (by decide), if_pos ⟨rfl, hsome⟩]
    · rw [Trace.get?_withContext_of_ne hafter (by decide), get?_paramsAfter hbefore]
      by_cases hnone : round.asked.requestState = none
      · rw [if_neg fun hboth => by rw [hnone] at hboth; exact Bool.false_ne_true hboth.2,
          if_neg fun hboth => absurd hboth.1 (by decide), hnone]
        exact hstate hnone
      · rw [if_pos ⟨rfl, Option.isSome_iff_ne_none.mpr hnone⟩]

/-! ### Steps -/

/-- A request that has ended stays as it is. -/
theorem handleResponse_of_ended (text : JsonText) (mrtrMaxRounds : Nat) (answer : Answer) {s : State}
    (h : s.outcome ≠ .waiting) : handleResponse text mrtrMaxRounds s answer = s := by
  unfold handleResponse
  cases houtcome : s.outcome with
  | waiting => exact absurd houtcome h
  | _ => rfl

/-- What an answer leads to: a round, if it asks for something and there may be another one, and else an end. -/
theorem handleResponse_cases (text : JsonText) (mrtrMaxRounds : Nat) (s : State) (answer : Answer) :
    (SendsRound mrtrMaxRounds s answer ∧ ∃ again,
        again.paramsJson = some (paramsAfter (paramsBefore text s.request) (askedForIn answer.result)
          answer.askOurselves) ∧
        again.trace = s.request.trace ∧ again.inputRounds = s.request.inputRounds + 1 ∧
        (handleResponse text mrtrMaxRounds s answer).request = again ∧
        (handleResponse text mrtrMaxRounds s answer).original = s.original ∧
        (handleResponse text mrtrMaxRounds s answer).rounds =
          s.rounds ++ [⟨askedForIn answer.result, answer.askOurselves, messageOf text again⟩]) ∨
      (¬ SendsRound mrtrMaxRounds s answer ∧
        (handleResponse text mrtrMaxRounds s answer).request = s.request ∧
        (handleResponse text mrtrMaxRounds s answer).original = s.original ∧
        (handleResponse text mrtrMaxRounds s answer).rounds = s.rounds) := by
  cases houtcome : s.outcome with
  | waiting =>
      by_cases hasked : (askedForIn answer.result).asked = true
      · by_cases hmore : s.request.inputRounds < mrtrMaxRounds
        · left
          have hstep : handleResponse text mrtrMaxRounds s answer =
              askAndSendAgain text mrtrMaxRounds s (askedForIn answer.result) answer.askOurselves := by
            rw [handleResponse, houtcome]
            exact if_pos hasked
          refine ⟨⟨houtcome, hasked, hmore⟩,
            { carryOver s.request s.nextRequestId
                (paramsAfter (paramsBefore text s.request) (askedForIn answer.result) answer.askOurselves) with
              inputRounds := s.request.inputRounds + 1 }, rfl, rfl, rfl, ?_⟩
          rw [hstep, askAndSendAgain, if_neg (by omega)]
          exact ⟨rfl, rfl, rfl⟩
        · right
          have hstep : handleResponse text mrtrMaxRounds s answer =
              { s with outcome := .failed (roundsError s.request.inputRounds) } := by
            rw [handleResponse, houtcome]
            simp only [hasked, if_true]
            exact if_pos (by omega)
          rw [hstep]
          exact ⟨fun hsends => hmore hsends.2.2, rfl, rfl, rfl⟩
      · right
        have hstep : handleResponse text mrtrMaxRounds s answer = { s with outcome := .answered answer.result } := by
          rw [handleResponse, houtcome]
          exact if_neg hasked
        rw [hstep]
        exact ⟨fun hsends => hasked hsends.2.1, rfl, rfl, rfl⟩
  | _ =>
      right
      have hended : s.outcome ≠ .waiting := by
        rw [houtcome]
        exact fun hwaiting => by cases hwaiting
      rw [handleResponse_of_ended text mrtrMaxRounds answer hended]
      exact ⟨fun hsends => hended hsends.1, rfl, rfl, rfl⟩

/-- The params of a message that was given exact ones. -/
theorem messageParams_messageOf {again : RequestContext} (h : again.paramsJson = some params) :
    messageParams text (messageOf text again) = withContext params again.trace := by
  rw [messageOf, Trace.messageParams_requestWithContext, h]
  rfl

/-- The rounds so far are as they should be, and the next one starts from the original params. -/
def Sound (text : JsonText) (s : State) : Prop :=
  AllAnswerLatest text s ∧ (s.original.isObject = true → Keeps s.original (paramsBefore text s.request))

theorem paramsBefore_of_object {request : RequestContext} (h : request.paramsJson = some params)
    (hobject : params.isObject = true) : paramsBefore text request = params := by
  rw [paramsBefore, h]
  cases params with
  | object fields => rfl
  | _ => cases hobject

/-- What an answer adds is as it should be exactly if nothing stays. -/
theorem allAnswerLatest_step_iff (hsound : Sound text s) (hsends : SendsRound mrtrMaxRounds s answer) :
    AllAnswerLatest text (handleResponse text mrtrMaxRounds s answer) ↔ NothingStays text mrtrMaxRounds s answer := by
  obtain ⟨-, again, hparams, htrace, -, hrequest, horiginal, hrounds⟩ | ⟨hnone, -⟩ :=
    handleResponse_cases text mrtrMaxRounds s answer
  · have hlatest := @answersLatest_iff _ _ s.request.trace hsound.2
      ⟨askedForIn answer.result, answer.askOurselves, messageOf text again⟩
    unfold AllAnswerLatest NothingStays
    rw [hrounds, horiginal, hrequest, htrace, List.forall_mem_append, List.forall_mem_singleton,
      messageParams_messageOf hparams, htrace, hlatest]
    exact ⟨fun hall _ => hall.2, fun hall => ⟨hsound.1, hall hsends⟩⟩
  · exact absurd hsends hnone

theorem Sound.step (h : Sound text s) (hstays : NothingStays text mrtrMaxRounds s answer) :
    Sound text (handleResponse text mrtrMaxRounds s answer) := by
  obtain ⟨hsends, again, hparams, -, -, hrequest, horiginal, -⟩ | ⟨-, hrequest, horiginal, hrounds⟩ :=
    handleResponse_cases text mrtrMaxRounds s answer
  · refine ⟨(allAnswerLatest_step_iff h hsends).mpr hstays, fun hobject => ?_⟩
    rw [horiginal] at hobject
    have hkeeps := (h.2 hobject).paramsAfter (askedForIn answer.result) answer.askOurselves
    rw [horiginal, hrequest, paramsBefore_of_object hparams hkeeps.1]
    exact hkeeps
  · unfold Sound AllAnswerLatest
    rw [hrequest, horiginal, hrounds]
    exact h

theorem sound_start (text : JsonText) (request : RequestContext) (nextRequestId : UInt64) :
    Sound text (start text request nextRequestId) := by
  refine ⟨fun round hround => absurd hround List.not_mem_nil, fun hobject => ?_⟩
  have hbefore : paramsBefore text request = paramsJsonOf text request.paramsJson request.params := by
    change (paramsJsonOf text request.paramsJson request.params).isObject = true at hobject
    unfold paramsJsonOf at hobject ⊢
    cases hjson : request.paramsJson with
    | some json =>
        rw [hjson] at hobject
        exact paramsBefore_of_object hjson hobject
    | none =>
        unfold paramsBefore
        cases hparams : request.params with
        | none => simp only [hjson]
        | some metadata => simp only [hjson]
  refine ⟨?_, fun key _ _ => ?_⟩
  · exact (congrArg JsonValue.isObject hbefore).trans hobject
  · exact congrArg (JsonValue.get? · key) hbefore

/-- Each round is counted, and there is no more room than there is. -/
theorem length_rounds_le (h : s.rounds.length = s.request.inputRounds ∧ s.request.inputRounds ≤ mrtrMaxRounds)
    (answer : Answer) :
    (handleResponse text mrtrMaxRounds s answer).rounds.length =
        (handleResponse text mrtrMaxRounds s answer).request.inputRounds ∧
      (handleResponse text mrtrMaxRounds s answer).request.inputRounds ≤ mrtrMaxRounds := by
  obtain ⟨hsends, again, -, -, hcount, hrequest, -, hrounds⟩ | ⟨-, hrequest, -, hrounds⟩ :=
    handleResponse_cases text mrtrMaxRounds s answer
  · have hmore := hsends.2.2
    rw [hrequest, hrounds, List.length_append, List.length_singleton, hcount]
    omega
  · rw [hrequest, hrounds]
    exact h

/-- **Which rounds answer the question just asked.** Over any answers, every round sent has the original params with
the answers to the latest question and its state exactly if at each round nothing stays from the ones before it; and
there are never more rounds than are allowed. -/
theorem answersLatest_everywhere_iff (text : JsonText) (mrtrMaxRounds : Nat) (request : RequestContext)
    (nextRequestId : UInt64) (answers : List Answer) :
    ((∀ before after, answers = before ++ after →
        AllAnswerLatest text (Runs.run (handleResponse text mrtrMaxRounds) (start text request nextRequestId) before)) ↔
      Runs.Guarded (handleResponse text mrtrMaxRounds) (NothingStays text mrtrMaxRounds)
        (start text request nextRequestId) answers) ∧
    (Runs.run (handleResponse text mrtrMaxRounds) (start text request nextRequestId) answers).rounds.length ≤
      mrtrMaxRounds := by
  constructor
  · refine @Runs.everywhere_iff_of_inv _ _ (handleResponse text mrtrMaxRounds) (fun _ _ => True)
      (NothingStays text mrtrMaxRounds) (Sound text) (AllAnswerLatest text) (fun s answer _ hstays hsound => hsound.step hstays)
      (fun s hsound => hsound.1) ?_ _ (sound_start text request nextRequestId) answers
      (Runs.guarded_of_forall _ (fun _ _ => trivial) _)
    intro s answer _ hsound hstays hall
    have hsends : SendsRound mrtrMaxRounds s answer := by
      by_contra hnone
      exact hstays fun hsends => absurd hsends hnone
    exact hstays ((allAnswerLatest_step_iff hsound hsends).mp hall)
  · have hcount := @Runs.invariant_of_every_step _ _ (handleResponse text mrtrMaxRounds)
      (fun s => s.rounds.length = s.request.inputRounds ∧ s.request.inputRounds ≤ mrtrMaxRounds)
      (fun s answer h => length_rounds_le h answer) (start text request nextRequestId) ⟨rfl, Nat.zero_le _⟩ answers
    omega

/-! ### A state that goes -/

/-- A call without params, in no trace. -/
def bareCall : RequestContext := ⟨.number 1, ascii "tools/call", none, none, 0, Trace.noContext⟩

/-- A question with nothing but a state. -/
def stateQuestion : Answer where
  result := .object [(ascii "requestState", .string (ascii "one")), (ascii "resultType", .string (ascii "input_required"))]
  askOurselves _ := .null

/-- A question that asks something and has no state. -/
def statelessQuestion : Answer where
  result := .object
    [(kInputRequestsField, .object [(ascii "name", .object [(ascii "method", .string (ascii "elicitation/create"))])]),
      (ascii "resultType", .string (ascii "input_required"))]
  askOurselves _ := .null

/-- The second round still has the state of the first question, which the second one does not have. -/
theorem not_allAnswerLatest_stateless :
    ((Runs.run (handleResponse Trace.noText 5) (start Trace.noText bareCall 2) [stateQuestion, statelessQuestion]).rounds.map
        fun round => (round.asked.requestState, (messageParams Trace.noText round.message).stringAt kRequestStateField)) =
      [(some (ascii "one"), some (ascii "one")), (none, some (ascii "one"))] ∧
    ¬ AllAnswerLatest Trace.noText
      (Runs.run (handleResponse Trace.noText 5) (start Trace.noText bareCall 2) [stateQuestion, statelessQuestion]) := by
  have hrounds : ((Runs.run (handleResponse Trace.noText 5) (start Trace.noText bareCall 2)
      [stateQuestion, statelessQuestion]).rounds.map fun round =>
        (round.asked.requestState, (messageParams Trace.noText round.message).stringAt kRequestStateField)) =
      [(some (ascii "one"), some (ascii "one")), (none, some (ascii "one"))] := by
    rfl
  refine ⟨hrounds, fun hall => ?_⟩
  have hstale : (none, some (ascii "one")) ∈ [(some (ascii "one"), some (ascii "one")), (none, some (ascii "one"))] := by
    simp
  rw [← hrounds] at hstale
  obtain ⟨round, hround, hpair⟩ := List.mem_map.mp hstale
  have hnone : round.asked.requestState = none := congrArg Prod.fst hpair
  have hread : (messageParams Trace.noText round.message).stringAt kRequestStateField = some (ascii "one") :=
    congrArg Prod.snd hpair
  have hright := (hall round hround).requestState
  rw [hnone] at hright
  rw [@JsonValue.stringAt_of_get? _ _ none hright] at hread
  cases hread

end InputRounds

end GopherMcp
