import GopherMcp.Core.Error
import GopherMcp.Core.RequestId
import GopherMcp.Lib.OrdMap
import GopherMcp.Lib.Runs

/-!
# Questions to clients

A server asks a client something on the stream of a request (`askClient`) or by the client's session
(`sendRequest`). Whoever waits for the answer is kept under the id of the question, and so is the timer
of its deadline. The send may call back into the server, and so may whoever is told the answer, hence
the calls that have not returned yet are part of the state. All of it runs on one dispatcher, which
turns to its timers and its posted tasks when no call is under way.
-/

namespace GopherMcp

inductive QuestionKind
  | askClient | sendRequest
  deriving DecidableEq

/-- One call that asks something; `number` tells apart the calls, and nothing reads it. `session` is the
client it goes to. -/
structure ClientQuestion where
  number : Nat
  kind : QuestionKind
  session : Bytes
  id : RequestId
  timeout : Int
  deriving DecidableEq

namespace ClientQuestion

def key (q : ClientQuestion) : RequestIdKey := requestIdKey q.id

end ClientQuestion

/-- A response, and the session of the client that sent it. -/
structure ClientResponse where
  session : Bytes
  id : RequestId
  payload : Bytes
  deriving DecidableEq

/-- What became of the questions. `answered` and `timedOut` are the calls of `on_answer`. -/
inductive QuestionEvent
  | asked (q : ClientQuestion)
  | accepted (q : ClientQuestion)
  | refused (q : ClientQuestion) (error : Error)
  | answered (q : ClientQuestion) (response : ClientResponse)
  | timedOut (q : ClientQuestion) (error : Error)
  | unmatched (response : ClientResponse)
  deriving DecidableEq

/-- A call under way: a question is being sent, or whoever waited is being told that time is up. -/
inductive QuestionCall
  | sending (q : ClientQuestion)
  | telling (key : RequestIdKey)
  deriving DecidableEq

namespace QuestionCall

def key : QuestionCall → RequestIdKey
  | sending q => q.key
  | telling key => key

end QuestionCall

/-- The timer of a question's deadline. It fires once. -/
structure Deadline where
  question : ClientQuestion
  armed : Bool
  deriving DecidableEq

structure ClientQuestions where
  waiters : OrdMap RequestIdKey ClientQuestion
  deadlines : OrdMap RequestIdKey Deadline
  posted : List RequestIdKey
  calls : List QuestionCall
  log : List QuestionEvent

inductive QuestionOp
  | ask (q : ClientQuestion) (hasStream hasWaiter : Bool)
  | returns (sendError : Option Error)
  | respond (response : ClientResponse)
  | elapse (key : RequestIdKey)
  | runPosted (key : RequestIdKey)

namespace ClientQuestions

def empty : ClientQuestions where
  waiters := OrdMap.empty
  deadlines := OrdMap.empty
  posted := []
  calls := []
  log := []

def note (s : ClientQuestions) (event : QuestionEvent) : ClientQuestions :=
  { s with log := s.log ++ [event] }

/-! ### The correlator -/

def expect (s : ClientQuestions) (q : ClientQuestion) : ClientQuestions :=
  { s with waiters := s.waiters.insert q.key q }

/-- Give up on a question, and whether somebody waited under its id. -/
def forget (s : ClientQuestions) (id : RequestId) : ClientQuestions × Bool :=
  ({ s with waiters := s.waiters.erase (requestIdKey id) }, s.waiters.contains (requestIdKey id))

/-- The waiter of a question: its deadline is dropped, and `on_answer` called. -/
def settle (s : ClientQuestions) (q : ClientQuestion) (response : ClientResponse) :
    ClientQuestions :=
  { s with deadlines := s.deadlines.erase q.key }.note (.answered q response)

/-- Hand a response to whoever was waiting; none when nobody was. -/
def deliver (s : ClientQuestions) (response : ClientResponse) : Option ClientQuestions :=
  (s.waiters.find? (requestIdKey response.id)).map fun q =>
    { s with waiters := s.waiters.erase (requestIdKey response.id) }.settle q response

def onResponse (s : ClientQuestions) (response : ClientResponse) : ClientQuestions :=
  (s.deliver response).getD (s.note (.unmatched response))

/-! ### Asking -/

def nowhereToAsk : QuestionKind → Error
  | .askClient =>
      ⟨INTERNAL_ERROR, ascii "cannot ask the client anything without a stream to ask on"⟩
  | .sendRequest => ⟨INVALID_PARAMS, ascii "Session not found"⟩

def nobodyWaiting : Error :=
  ⟨INTERNAL_ERROR, ascii "a question nobody is waiting for is not a question"⟩

def notInTime : Error := ⟨INTERNAL_ERROR, ascii "the client did not answer in time"⟩

/-- Up to the send: the question is registered before it goes out. -/
def ask (s : ClientQuestions) (q : ClientQuestion) (hasStream hasWaiter : Bool) : ClientQuestions :=
  let s := s.note (.asked q)
  if !hasStream then s.note (.refused q (nowhereToAsk q.kind))
  else if q.kind = .askClient ∧ !hasWaiter then s.note (.refused q nobodyWaiting)
  else { s.expect q with calls := .sending q :: s.calls }

/-- From the send on. -/
def sent (s : ClientQuestions) (q : ClientQuestion) (sendError : Option Error) : ClientQuestions :=
  match sendError with
  | some error => (s.forget q.id).1.note (.refused q error)
  | none =>
      let s := s.note (.accepted q)
      if q.timeout ≤ 0 then s
      else { s with deadlines := s.deadlines.insert q.key { question := q, armed := true } }

/-- The innermost call returns. After the one that told of a deadline, the timer is left to a task. -/
def returns (s : ClientQuestions) (sendError : Option Error) : ClientQuestions :=
  match s.calls with
  | [] => s
  | .sending q :: calls => { s with calls }.sent q sendError
  | .telling key :: calls => { s with calls, posted := s.posted ++ [key] }

/-! ### The dispatcher's turn -/

/-- The timer of a question fires. -/
def fire (s : ClientQuestions) (q : ClientQuestion) : ClientQuestions :=
  let s := { s with deadlines := s.deadlines.insert q.key { question := q, armed := false } }
  let (s, waited) := s.forget q.id
  if waited then { s.note (.timedOut q notInTime) with calls := .telling q.key :: s.calls } else s

def elapse (s : ClientQuestions) (key : RequestIdKey) : ClientQuestions :=
  if s.calls ≠ [] then s
  else
    match s.deadlines.find? key with
    | some ⟨q, true⟩ => s.fire q
    | _ => s

def runPosted (s : ClientQuestions) (key : RequestIdKey) : ClientQuestions :=
  if s.calls = [] ∧ key ∈ s.posted then
    { s with posted := s.posted.erase key, deadlines := s.deadlines.erase key }
  else s

def step (s : ClientQuestions) : QuestionOp → ClientQuestions
  | .ask q hasStream hasWaiter => s.ask q hasStream hasWaiter
  | .returns sendError => s.returns sendError
  | .respond response => s.onResponse response
  | .elapse key => s.elapse key
  | .runPosted key => s.runPosted key

end ClientQuestions

end GopherMcp
