import GopherMcp.Lib.Runs
import GopherMcp.Protocol.Subscriptions

/-!
# The registry of subscriptions

The registry gives up control in four places: while an acknowledgement, a change or a closing response
is being sent, and between the observers of a cancelled stream. Whatever runs there may call back into
it. So a state has a stack: each frame is a call that has given up control, with what is left of it,
and an action is a call made from outside, the return of a send, or the next turn of the call on top.
Every subscription carries the number of the call that made it, which stands for the identity of the
shared object.
-/

namespace GopherMcp

namespace ListenRegistry

/-! ### States -/

/-- A caller and an id, compared in that order. -/
abbrev SubscriptionKey := Bytes ×ₗ RequestIdKey

def subscriptionKey (caller : Bytes) (id : RequestId) : SubscriptionKey :=
  toLex (caller, requestIdKey id)

structure Subscription where
  number : Nat
  caller : Bytes
  id : RequestId
  stream : Nat
  filter : NotificationFilter
  deriving DecidableEq

def Subscription.key (subscription : Subscription) : SubscriptionKey :=
  subscriptionKey subscription.caller subscription.id

/-- The token of a stream, with the subscriptions whose observers it holds. -/
structure CancellationToken where
  cancelled : Bool
  observers : List Subscription

/-- What is published. -/
structure Change where
  method : Bytes
  params : JsonValue
  uri : Bytes

/-- A call that has given up control, or is about to take its next turn. -/
inductive Frame where
  | acknowledging (subscription : Subscription)
  | publishing (publication : Nat) (change : Change) (pending : List Subscription) (delivered : Nat)
  | notifying (publication : Nat) (change : Change) (pending : List Subscription) (delivered : Nat)
  | responding
  | closingAll (held : List Subscription)
  | cancelling (observers : List Subscription)

/-- What has happened, oldest first. -/
inductive Entry where
  | acknowledged (subscription : Subscription) (notification : Notification)
  | opened (number : Nat) (result : Bool)
  | published (publication : Nat) (change : Change) (matching : List Subscription)
  | notified (publication : Nat) (subscription : Subscription) (notification : Notification)
  | passedOver (publication : Nat) (subscription : Subscription)
  | delivered (publication : Nat) (count : Nat)
  | responded (subscription : Subscription) (response : Response)
  | observed (subscription : Subscription)

structure State where
  subscriptions : OrdMap SubscriptionKey Subscription
  tokens : Nat → CancellationToken
  stack : List Frame
  nextNumber : Nat
  log : List Entry

namespace State

def empty : State := ⟨.empty, fun _ => ⟨false, []⟩, [], 0, []⟩

def tell (s : State) (entry : Entry) : State := { s with log := s.log ++ [entry] }

def push (s : State) (frame : Frame) : State := { s with stack := frame :: s.stack }

/-- The same object is held under the subscription's key. -/
def isCurrent (s : State) (subscription : Subscription) : Bool :=
  s.subscriptions.find? subscription.key = some subscription

def forget (s : State) (key : SubscriptionKey) : State :=
  { s with subscriptions := s.subscriptions.erase key }

/-- The observer of a subscription's stream. -/
def observe (s : State) (subscription : Subscription) : State :=
  (if s.isCurrent subscription then s.forget subscription.key else s).tell (.observed subscription)

/-- `addObserver`: on a cancelled token it runs at once. -/
def addObserver (s : State) (subscription : Subscription) : State :=
  let token := s.tokens subscription.stream
  if token.cancelled then s.observe subscription
  else
    { s with
      tokens := Function.update s.tokens subscription.stream
        { token with observers := token.observers ++ [subscription] } }

/-- `CancellationToken::cancel`: the observers are moved out before the first of them runs. -/
def cancel (s : State) (stream : Nat) : State :=
  let token := s.tokens stream
  if token.cancelled then s
  else
    { s with tokens := Function.update s.tokens stream ⟨true, []⟩ }.push (.cancelling token.observers)

variable (text : JsonText)

/-- `open`, up to the acknowledgement. -/
def callOpen (s : State) (caller : Bytes) (id : RequestId) (stream : Option Nat)
    (filter : NotificationFilter) : State :=
  let numbered := { s with nextNumber := s.nextNumber + 1 }
  match stream with
  | none => numbered.tell (.opened s.nextNumber false)
  | some stream =>
      if s.subscriptions.contains (subscriptionKey caller id) then
        numbered.tell (.opened s.nextNumber false)
      else
        let subscription := ⟨s.nextNumber, caller, id, stream, filter⟩
        (numbered.tell (.acknowledged subscription (acknowledgement text id filter))).push
          (.acknowledging subscription)

/-- `open`, from the acknowledgement on. -/
def finishOpen (s : State) (subscription : Subscription) (sent : Bool) : State :=
  if !sent then s.tell (.opened subscription.number false)
  else if s.subscriptions.contains subscription.key then
    s.tell (.opened subscription.number false)
  else
    let held := { s with subscriptions := s.subscriptions.insert subscription.key subscription }
    (held.addObserver subscription).tell (.opened subscription.number true)

/-- `publish`, up to its first turn. -/
def callPublish (s : State) (change : Change) : State :=
  let matching := s.subscriptions.values.filter (·.filter.wants change.method change.uri)
  ({ s with nextNumber := s.nextNumber + 1 }.tell (.published s.nextNumber change matching)).push
    (.publishing s.nextNumber change matching 0)

/-- `close`, up to its send. -/
def callClose (s : State) (key : SubscriptionKey) : State :=
  match s.subscriptions.find? key with
  | none => s
  | some subscription =>
      ((s.forget key).tell (.responded subscription (closingResponse subscription.id))).push .responding

def callCloseAll (s : State) : State := s.push (.closingAll s.subscriptions.values)

def forgetDead (s : State) (alive : Nat → Bool) : State :=
  { s with subscriptions := s.subscriptions.filter fun _ subscription => alive subscription.stream }

/-- The next turn of the call on top of the stack. -/
def turn (s : State) : Frame → State
  | .publishing publication _ [] count => s.tell (.delivered publication count)
  | .publishing publication change (subscription :: pending) count =>
      if s.isCurrent subscription then
        (s.tell (.notified publication subscription
          (changeFor text change.method change.params subscription.id))).push
            (.notifying publication change pending count)
      else
        (s.tell (.passedOver publication subscription)).push
          (.publishing publication change pending count)
  | .closingAll [] => s
  | .closingAll (subscription :: held) =>
      let rest := s.push (.closingAll held)
      if s.isCurrent subscription then rest.callClose subscription.key else rest
  | .cancelling [] => s
  | .cancelling (subscription :: observers) => (s.observe subscription).push (.cancelling observers)
  | other => s.push other

/-- The send of the call on top of the stack returns. -/
def sendReturns (s : State) (sent : Bool) : Frame → State
  | .acknowledging subscription => s.finishOpen subscription sent
  | .notifying publication change pending count =>
      s.push (.publishing publication change pending (if sent then count + 1 else count))
  | .responding => s
  | other => s.push other

/-- Whether code from outside is running: no call is under way, or the one on top has given up
control. -/
def outside (s : State) : Bool :=
  match s.stack with
  | .publishing .. :: _ => false
  | .closingAll _ :: _ => false
  | _ => true

end State

/-! ### Actions -/

inductive Action where
  | openCall (caller : Bytes) (id : RequestId) (stream : Option Nat) (filter : NotificationFilter)
  | publish (change : Change)
  | close (caller : Bytes) (id : RequestId)
  | closeAll
  | forget (caller : Bytes) (id : RequestId)
  | forgetDead (alive : Nat → Bool)
  | cancel (stream : Nat)
  | sendReturns (sent : Bool)
  | turn

variable (text : JsonText)

/-- A call from outside, made wherever code from outside runs. -/
def call (s : State) : Action → State
  | .openCall caller id stream filter => s.callOpen text caller id stream filter
  | .publish change => s.callPublish change
  | .close caller id => s.callClose (subscriptionKey caller id)
  | .closeAll => s.callCloseAll
  | .forget caller id => s.forget (subscriptionKey caller id)
  | .forgetDead alive => s.forgetDead alive
  | .cancel stream => s.cancel stream
  | .sendReturns _ | .turn => s

def step (s : State) (action : Action) : State :=
  match action, s.stack with
  | .sendReturns sent, frame :: stack => { s with stack := stack }.sendReturns sent frame
  | .turn, frame :: stack => { s with stack := stack }.turn text frame
  | action, _ => if s.outside then call text s action else s

/-- The state after a run of actions on an empty registry. -/
def run (actions : List Action) : State := Runs.run (step text) State.empty actions

end ListenRegistry

end GopherMcp
