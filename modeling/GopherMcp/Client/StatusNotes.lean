import GopherMcp.Core.RequestId
import GopherMcp.Lib.OrdMap
import GopherMcp.Lib.Runs

/-!
# Whom a status is blamed on

The status of an HTTP response names no request. The client notes each message as it writes it and takes the
note at the front for each response that ends. The notes belong to the conversation and outlive a connection.
What was written on a connection, which final responses came back whole and what was reported of them is kept
beside it.
-/

namespace GopherMcp

/-! ### One connection -/

inductive ClientConnectionRole
  | requests
  | serverStream
  | answer
  deriving DecidableEq

/-- What draws a response: a message, with its id if it has one, or the request that ends the session. -/
inductive SentOverHttp
  | message (correlate : Option RequestId)
  | sessionDelete
  deriving DecidableEq

def SentOverHttp.correlate : SentOverHttp → Option RequestId
  | .message correlate => correlate
  | .sessionDelete => none

/-- `untilClose` says that only the end of the connection ends the body. -/
structure ResponseHead where
  status : Nat
  untilClose : Bool

namespace ResponseHead

/-- A response ahead of the final one. -/
def interim (status : Nat) : Bool := decide (100 ≤ status ∧ status < 200)

end ResponseHead

/-- What the layer above is told of a response. -/
inductive ResponseReport
  | transportStatus (statusCode : Nat) (requestId : Option RequestId) (detail : Bytes)
  | streamRefused (detail : Bytes)
  deriving DecidableEq

structure ClientConnection where
  role : ClientConnectionRole
  soleRequest : Option RequestId
  isOpen : Bool
  responseStatus : Nat
  refusalBody : Bytes
  reading : Option ResponseHead
  sent : List SentOverHttp
  finals : List Nat
  reports : List ResponseReport

namespace ClientConnection

def new (role : ClientConnectionRole) (soleRequest : Option RequestId) : ClientConnection :=
  ⟨role, soleRequest, false, 0, [], none, [], [], []⟩

/-- A write before the connection is up, or after it is down, is dropped. -/
def write (c : ClientConnection) (sent : SentOverHttp) : ClientConnection :=
  if c.isOpen then { c with sent := c.sent ++ [sent] } else c

def isRefusal (c : ClientConnection) : Bool :=
  c.responseStatus ≠ 0 && (c.responseStatus < 200 || c.responseStatus ≥ 300)

def onHeaders (c : ClientConnection) (head : ResponseHead) : ClientConnection :=
  { c with reading := some head, responseStatus := head.status, refusalBody := [] }

def onBody (c : ClientConnection) (data : Bytes) : ClientConnection :=
  if c.isRefusal then { c with refusalBody := c.refusalBody ++ data } else c

/-- The parser leaves the response it was in. -/
def leave (c : ClientConnection) : ClientConnection :=
  match c.reading with
  | none => c
  | some head =>
      { c with
        reading := none
        finals := if ResponseHead.interim head.status then c.finals else c.finals ++ [head.status] }

/-- The note at the front, and those behind it. -/
def takeAnswered : List (Option RequestId) → Option RequestId × List (Option RequestId)
  | [] => (none, [])
  | front :: rest => (front, rest)

/-- What is said of a response that ended, and the notes that are left. -/
def answeredBy (c : ClientConnection) (inFlight : List (Option RequestId)) :
    Option ResponseReport × List (Option RequestId) :=
  match c.role, c.soleRequest with
  | .serverStream, _ =>
      (if c.responseStatus = 405 then some (.streamRefused c.refusalBody) else none, inFlight)
  | .answer, _ => (some (.transportStatus c.responseStatus none c.refusalBody), inFlight)
  | .requests, some sole => (some (.transportStatus c.responseStatus (some sole) c.refusalBody), inFlight)
  | .requests, none =>
      (some (.transportStatus c.responseStatus (takeAnswered inFlight).1 c.refusalBody), (takeAnswered inFlight).2)

def onMessageComplete (c : ClientConnection) (inFlight : List (Option RequestId)) :
    ClientConnection × List (Option RequestId) :=
  if c.responseStatus = 0 then (c.leave, inFlight)
  else
    ({ c.leave with
        responseStatus := 0
        refusalBody := []
        reports := c.reports ++ (c.answeredBy inFlight).1.toList }, (c.answeredBy inFlight).2)

/-- The end of the connection, from the other side, ends a body that has no other end. The parser is not told. -/
def close (c : ClientConnection) (byPeer : Bool) : ClientConnection :=
  if byPeer && c.reading.any (·.untilClose) then { c.leave with isOpen := false } else { c with isOpen := false }

end ClientConnection

/-! ### The conversation -/

/-- What waits for its turn to be written. -/
inductive PostedWrite
  | message (correlate : Option RequestId)
  | response
  deriving DecidableEq

/-- The connection manager of a conversation and the notes of its session. `past` are the connections that
carried requests before. -/
structure Conversation where
  connected : Bool
  activeConnection : Option ClientConnection
  apart : OrdMap Nat ClientConnection
  lastKey : Nat
  posted : List PostedWrite
  inFlight : List (Option RequestId)
  past : List ClientConnection

/-- A connection is named by its key, the shared one by `none`. -/
inductive ConversationOp
  | reconnect
  | onConnected
  | onClosed (byPeer : Bool)
  | close
  | send (posted : PostedWrite)
  | runPosted (canOpen : Bool)
  | sendSessionDelete
  | openServerStream
  | openSubscription (id : RequestId)
  | closeApart (key : Nat)
  | onHeaders (key : Option Nat) (head : ResponseHead)
  | onBody (key : Option Nat) (data : Bytes)
  | onMessageComplete (key : Option Nat)

namespace Conversation

def new : Conversation := ⟨false, none, OrdMap.empty, 0, [], [], []⟩

/-- A close event of the shared connection; one that comes twice is ignored. -/
def onClosed (s : Conversation) (byPeer : Bool) : Conversation :=
  if !s.connected && s.activeConnection.isNone then s
  else
    { s with
      connected := false
      activeConnection := none
      inFlight := []
      past := s.past ++ (s.activeConnection.map (·.close byPeer)).toList }

/-- Only a connection that is up raises a close event here. -/
def close (s : Conversation) : Conversation :=
  let released := { s with apart := OrdMap.empty }
  let closed :=
    match s.activeConnection with
    | none => released
    | some c =>
        if c.isOpen then released.onClosed false
        else { released with activeConnection := none, past := s.past ++ [c] }
  { closed with connected := false }

/-- A new manager takes the place of the one before, with what that one had still to write. -/
def reconnect (s : Conversation) : Conversation :=
  { s.close with activeConnection := some (ClientConnection.new .requests none), posted := [] }

def onConnected (s : Conversation) : Conversation :=
  match s.activeConnection with
  | none => s
  | some c => if s.connected then s else { s with connected := true, activeConnection := some { c with isOpen := true } }

def writeMessage (s : Conversation) (correlate : Option RequestId) : Conversation :=
  match s.activeConnection with
  | none => s
  | some c =>
      { s with inFlight := s.inFlight ++ [correlate], activeConnection := some (c.write (.message correlate)) }

def send (s : Conversation) (posted : PostedWrite) : Conversation :=
  if s.connected && s.activeConnection.isSome then { s with posted := s.posted ++ [posted] } else s

def openApart (s : Conversation) (role : ClientConnectionRole) (soleRequest : Option RequestId) : Conversation :=
  { s with
    apart := s.apart.insert (s.lastKey + 1) (ClientConnection.new role soleRequest)
    lastKey := s.lastKey + 1 }

/-- An answer to the server goes out on a connection of its own where one can be opened and something is
outstanding. -/
def goesApart (s : Conversation) (canOpen : Bool) (posted : PostedWrite) : Bool :=
  posted = .response && !s.inFlight.isEmpty && canOpen

def runPosted (s : Conversation) (canOpen : Bool) : Conversation :=
  match s.posted with
  | [] => s
  | posted :: rest =>
      let s := { s with posted := rest }
      if s.activeConnection.isNone then s
      else if s.goesApart canOpen posted then s.openApart .answer none
      else
        match posted with
        | .message correlate => s.writeMessage correlate
        | .response => s.writeMessage none

/-- The end of the session is written without a note. -/
def sendSessionDelete (s : Conversation) : Conversation :=
  { s with activeConnection := s.activeConnection.map (·.write .sessionDelete) }

def at? (s : Conversation) : Option Nat → Option ClientConnection
  | none => s.activeConnection
  | some key => s.apart.find? key

/-- A change of one connection. -/
def set (s : Conversation) (key : Option Nat) (c : ClientConnection) : Conversation :=
  match key with
  | none => { s with activeConnection := some c }
  | some key => { s with apart := s.apart.insert key c }

def onMessageComplete (s : Conversation) (key : Option Nat) : Conversation :=
  match s.at? key with
  | none => s
  | some c => { s.set key (c.onMessageComplete s.inFlight).1 with inFlight := (c.onMessageComplete s.inFlight).2 }

def step (s : Conversation) : ConversationOp → Conversation
  | .reconnect => s.reconnect
  | .onConnected => s.onConnected
  | .onClosed byPeer => s.onClosed byPeer
  | .close => s.close
  | .send posted => s.send posted
  | .runPosted canOpen => s.runPosted canOpen
  | .sendSessionDelete => s.sendSessionDelete
  | .openServerStream => s.openApart .serverStream none
  | .openSubscription id => s.openApart .requests (some id)
  | .closeApart key => { s with apart := s.apart.erase key }
  | .onHeaders key head => ((s.at? key).map fun c => s.set key (c.onHeaders head)).getD s
  | .onBody key data => ((s.at? key).map fun c => s.set key (c.onBody data)).getD s
  | .onMessageComplete key => s.onMessageComplete key

/-- The connections that carried requests, the last of them still open. -/
def shared (s : Conversation) : List ClientConnection := s.past ++ s.activeConnection.toList

/-- What a server and the parser do: a response at a time, each to something that was sent before, and an end
that its head announced. -/
def Possible (s : Conversation) : ConversationOp → Prop
  | .onHeaders key head =>
      ∀ c ∈ s.at? key, c.reading.isNone = true ∧ (key = none → c.finals.length < c.sent.length) ∧
        (ResponseHead.interim head.status = true → head.untilClose = false)
  | .onMessageComplete key => ∀ c ∈ s.at? key, c.reading.any (fun head => !head.untilClose) = true
  | _ => True

/-- On the connection that carries requests, no response is interim or has the status 000, none is ended by the
connection's end, and nothing is sent after the end of the session. -/
def Proper (s : Conversation) : ConversationOp → Prop
  | .onHeaders none head => head.status ≠ 0 ∧ ResponseHead.interim head.status = false
  | .onClosed true => ∀ c ∈ s.activeConnection, c.reading.any (·.untilClose) = false
  | .runPosted canOpen =>
      ∀ posted ∈ s.posted.head?, s.goesApart canOpen posted = false →
        ∀ c ∈ s.activeConnection, .sessionDelete ∉ c.sent
  | _ => True

instance decidablePossible (s : Conversation) : (op : ConversationOp) → Decidable (s.Possible op)
  | .onHeaders key head => inferInstanceAs (Decidable (∀ c ∈ s.at? key, c.reading.isNone = true ∧
      (key = none → c.finals.length < c.sent.length) ∧
      (ResponseHead.interim head.status = true → head.untilClose = false)))
  | .onMessageComplete key =>
      inferInstanceAs (Decidable (∀ c ∈ s.at? key, c.reading.any (fun head => !head.untilClose) = true))
  | .reconnect | .onConnected | .onClosed _ | .close | .send _ | .runPosted _ | .sendSessionDelete
  | .openServerStream | .openSubscription _ | .closeApart _ | .onBody _ _ => inferInstanceAs (Decidable True)

instance decidableProper (s : Conversation) : (op : ConversationOp) → Decidable (s.Proper op)
  | .onHeaders none head =>
      inferInstanceAs (Decidable (head.status ≠ 0 ∧ ResponseHead.interim head.status = false))
  | .onClosed true =>
      inferInstanceAs (Decidable (∀ c ∈ s.activeConnection, c.reading.any (·.untilClose) = false))
  | .runPosted canOpen =>
      inferInstanceAs (Decidable (∀ posted ∈ s.posted.head?, s.goesApart canOpen posted = false →
        ∀ c ∈ s.activeConnection, .sessionDelete ∉ c.sent))
  | .reconnect | .onConnected | .onClosed false | .close | .send _ | .sendSessionDelete
  | .openServerStream | .openSubscription _ | .closeApart _ | .onHeaders (some _) _ | .onBody _ _
  | .onMessageComplete _ => inferInstanceAs (Decidable True)

end Conversation

/-! ### What one connection reports -/

namespace ClientConnection

variable {c : ClientConnection} {inFlight : List (Option RequestId)}

/-- The final statuses that were reported, each with whom it was blamed on. -/
def statuses (c : ClientConnection) : List (Nat × Option RequestId) :=
  c.reports.filterMap fun
    | .transportStatus statusCode requestId _ =>
        if ResponseHead.interim statusCode then none else some (statusCode, requestId)
    | .streamRefused _ => none

/-- Each final response was reported once, against what it is the response to, and no interim response was held
against a request. -/
structure BlamesRight (c : ClientConnection) : Prop where
  answered : c.finals.length ≤ c.sent.length
  final : c.statuses = List.zipWith (fun status sent => (status, sent.correlate)) c.finals c.sent
  interim : ∀ statusCode requestId detail, .transportStatus statusCode requestId detail ∈ c.reports →
    ResponseHead.interim statusCode = true → requestId = none

/-- The notes are those of the messages that have no response yet. -/
structure Noted (c : ClientConnection) (inFlight : List (Option RequestId)) : Prop where
  right : c.BlamesRight
  shared : c.role = .requests ∧ c.soleRequest = none
  notes : ∃ (messages : List (Option RequestId)) (deletes : Nat), inFlight = messages.drop c.finals.length ∧
    c.sent = messages.map SentOverHttp.message ++ List.replicate deletes .sessionDelete
  idle : c.reading = none → c.responseStatus = 0
  reading : ∀ head ∈ c.reading, c.responseStatus = head.status ∧ head.status ≠ 0 ∧
    ResponseHead.interim head.status = false ∧ c.finals.length < c.sent.length

theorem zipWith_append_of_le {α β γ : Type} (f : α → β → γ) {xs : List α} {ys : List β}
    (h : xs.length ≤ ys.length) (zs : List β) : List.zipWith f xs (ys ++ zs) = List.zipWith f xs ys := by
  induction xs generalizing ys with
  | nil => rfl
  | cons x xs ih =>
      cases ys with
      | nil => exact absurd h (by simp)
      | cons y ys => exact congrArg (f x y :: ·) (ih (Nat.le_of_succ_le_succ h))

theorem zipWith_concat {α β γ : Type} (f : α → β → γ) {xs : List α} {ys : List β} (x : α)
    (h : xs.length < ys.length) :
    List.zipWith f (xs ++ [x]) ys = List.zipWith f xs ys ++ [f x (ys.get ⟨xs.length, h⟩)] := by
  induction xs generalizing ys with
  | nil =>
      cases ys with
      | nil => exact absurd h (by simp)
      | cons y ys => rfl
  | cons head xs ih =>
      cases ys with
      | nil => exact absurd h (by simp)
      | cons y ys => exact congrArg (f head y :: ·) (ih (Nat.lt_of_succ_lt_succ h))

theorem noted_new : (new .requests none).Noted [] where
  right := ⟨Nat.le_refl 0, rfl, fun _ _ _ hin => absurd hin List.not_mem_nil⟩
  shared := ⟨rfl, rfl⟩
  notes := ⟨[], 0, rfl, rfl⟩
  idle _ := rfl
  reading _ hreading := by cases hreading

/-- What goes out takes no part in what came back before. -/
theorem BlamesRight.send (h : c.BlamesRight) (sent : SentOverHttp) :
    { c with sent := c.sent ++ [sent] }.BlamesRight where
  answered := Nat.le_trans h.answered (by simp)
  final := h.final.trans (zipWith_append_of_le _ h.answered _).symm
  interim := h.interim

/-- A message is noted as it is written. -/
theorem Noted.writeMessage (h : c.Noted inFlight) (hopen : c.isOpen = true) (hnot : .sessionDelete ∉ c.sent)
    (correlate : Option RequestId) : (c.write (.message correlate)).Noted (inFlight ++ [correlate]) := by
  obtain ⟨messages, deletes, hnotes, hsent⟩ := h.notes
  have hnone : deletes = 0 := by
    cases deletes with
    | zero => rfl
    | succ deletes => exact absurd (by rw [hsent, List.replicate_succ]; simp) hnot
  subst hnone
  have hsent : c.sent = messages.map SentOverHttp.message := by rw [hsent, List.replicate_zero, List.append_nil]
  have hle : c.finals.length ≤ messages.length := by
    have hanswered := h.right.answered
    rwa [hsent, List.length_map] at hanswered
  rw [write, if_pos hopen]
  refine ⟨h.right.send _, h.shared, ⟨messages ++ [correlate], 0, ?_, ?_⟩, h.idle, fun head hhead => ?_⟩
  · rw [hnotes, List.drop_append_of_le_length hle]
  · show c.sent ++ [.message correlate] = _
    rw [hsent, List.map_append, List.replicate_zero, List.append_nil]
    rfl
  · obtain ⟨hstatus, hzero, hfinal, hlt⟩ := h.reading head hhead
    exact ⟨hstatus, hzero, hfinal, Nat.lt_of_lt_of_le hlt (by simp)⟩

theorem Noted.writeDelete (h : c.Noted inFlight) : (c.write .sessionDelete).Noted inFlight := by
  rw [write]
  split_ifs with hopen
  · obtain ⟨messages, deletes, hnotes, hsent⟩ := h.notes
    refine ⟨h.right.send _, h.shared, ⟨messages, deletes + 1, hnotes, ?_⟩, h.idle, fun head hhead => ?_⟩
    · show c.sent ++ [.sessionDelete] = _
      rw [hsent, List.replicate_succ', List.append_assoc]
    · obtain ⟨hstatus, hzero, hfinal, hlt⟩ := h.reading head hhead
      exact ⟨hstatus, hzero, hfinal, Nat.lt_of_lt_of_le hlt (by simp)⟩
  · exact h

theorem Noted.onHeaders (h : c.Noted inFlight) {head : ResponseHead} (hlt : c.finals.length < c.sent.length)
    (hzero : head.status ≠ 0) (hfinal : ResponseHead.interim head.status = false) :
    (c.onHeaders head).Noted inFlight where
  right := ⟨h.right.answered, h.right.final, h.right.interim⟩
  shared := h.shared
  notes := h.notes
  idle hnone := by cases hnone
  reading other hother := by
    cases hother
    exact ⟨rfl, hzero, hfinal, hlt⟩

theorem Noted.onBody (h : c.Noted inFlight) (data : Bytes) : (c.onBody data).Noted inFlight := by
  rw [ClientConnection.onBody]
  split_ifs
  · exact ⟨⟨h.right.answered, h.right.final, h.right.interim⟩, h.shared, h.notes, h.idle, h.reading⟩
  · exact h

/-- The note at the front is that of the message whose response comes next; the end of the session has none. -/
theorem Noted.takeAnswered_eq (h : c.Noted inFlight) (hlt : c.finals.length < c.sent.length) :
    (takeAnswered inFlight).1 = (c.sent.get ⟨c.finals.length, hlt⟩).correlate ∧
      ∃ (messages : List (Option RequestId)) (deletes : Nat),
        (takeAnswered inFlight).2 = messages.drop (c.finals.length + 1) ∧
          c.sent = messages.map SentOverHttp.message ++ List.replicate deletes .sessionDelete := by
  obtain ⟨messages, deletes, hnotes, hsent⟩ := h.notes
  by_cases hmessage : c.finals.length < messages.length
  · have hfront : inFlight = messages.get ⟨c.finals.length, hmessage⟩ :: messages.drop (c.finals.length + 1) :=
      hnotes.trans (List.drop_eq_getElem_cons hmessage)
    rw [hfront]
    refine ⟨?_, messages, deletes, rfl, hsent⟩
    simp [takeAnswered, hsent, hmessage, SentOverHttp.correlate]
  · have hle := Nat.le_of_not_lt hmessage
    have hnone : inFlight = [] := hnotes.trans (List.drop_eq_nil_of_le hle)
    rw [hnone]
    refine ⟨?_, messages, deletes, (List.drop_eq_nil_of_le (Nat.le_succ_of_le hle)).symm, hsent⟩
    have hbehind : c.sent[c.finals.length] = .sessionDelete := by
      simp only [hsent]
      rw [List.getElem_append_right (by rw [List.length_map]; exact hle), List.getElem_replicate]
    show none = c.sent[c.finals.length].correlate
    rw [hbehind]
    rfl

/-- **A response that ends is blamed on the message it answers.** -/
theorem Noted.onMessageComplete (h : c.Noted inFlight) (hreading : c.reading.isSome = true) :
    (c.onMessageComplete inFlight).1.Noted (c.onMessageComplete inFlight).2 := by
  obtain ⟨head, hhead⟩ := Option.isSome_iff_exists.mp hreading
  obtain ⟨hstatus, hzero, hfinal, hlt⟩ := h.reading head hhead
  obtain ⟨hfront, messages, deletes, hrest, hsent⟩ := h.takeAnswered_eq hlt
  obtain ⟨hrole, hsole⟩ := h.shared
  have hcomplete : c.onMessageComplete inFlight =
      ({ c with
          reading := none, finals := c.finals ++ [head.status], responseStatus := 0, refusalBody := [],
          reports := c.reports ++ [.transportStatus head.status (takeAnswered inFlight).1 c.refusalBody] },
        (takeAnswered inFlight).2) := by
    simp [ClientConnection.onMessageComplete, leave, answeredBy, hhead, hstatus, hzero, hfinal, hrole, hsole]
  rw [hcomplete]
  refine ⟨⟨?_, ?_, fun statusCode requestId detail hin hinterim => ?_⟩, ⟨hrole, hsole⟩,
    ⟨messages, deletes, ?_, hsent⟩, fun _ => rfl, fun other hother => by cases hother⟩
  · show (c.finals ++ [head.status]).length ≤ c.sent.length
    rw [List.length_append]
    exact hlt
  · have hstatuses := h.right.final
    rw [zipWith_concat _ _ hlt, ← hstatuses, ← hfront]
    simp [statuses, hfinal]
  · obtain hold | hnew := List.mem_append.mp hin
    · exact h.right.interim statusCode requestId detail hold hinterim
    · cases List.mem_singleton.mp hnew
      rw [hfinal] at hinterim
      cases hinterim
  · rw [hrest, List.length_append]
    rfl

/-- Only a connection that carries requests, none of them its sole one, takes a note. -/
theorem onMessageComplete_apart (hown : c.role = .requests → c.soleRequest.isSome = true) :
    (c.onMessageComplete inFlight).2 = inFlight := by
  have hleft : (c.answeredBy inFlight).2 = inFlight := by
    unfold answeredBy
    cases hrole : c.role with
    | serverStream => rfl
    | answer => rfl
    | requests =>
        obtain ⟨sole, hsole⟩ := Option.isSome_iff_exists.mp (hown hrole)
        rw [hsole]
  rw [ClientConnection.onMessageComplete, apply_ite Prod.snd, hleft, ite_self]

theorem leave_frame (c : ClientConnection) :
    c.leave.role = c.role ∧ c.leave.soleRequest = c.soleRequest ∧ c.leave.isOpen = c.isOpen := by
  unfold leave
  cases c.reading <;> exact ⟨rfl, rfl, rfl⟩

theorem onMessageComplete_frame (c : ClientConnection) (inFlight : List (Option RequestId)) :
    (c.onMessageComplete inFlight).1.role = c.role ∧
      (c.onMessageComplete inFlight).1.soleRequest = c.soleRequest ∧
      (c.onMessageComplete inFlight).1.isOpen = c.isOpen := by
  unfold ClientConnection.onMessageComplete
  split_ifs <;> exact c.leave_frame

theorem onMessageComplete_nil (c : ClientConnection) : (c.onMessageComplete []).2 = [] := by
  have hleft : (c.answeredBy []).2 = [] := by
    unfold answeredBy
    cases c.role <;> cases c.soleRequest <;> rfl
  rw [ClientConnection.onMessageComplete, apply_ite Prod.snd, hleft, ite_self]

theorem onBody_frame (c : ClientConnection) (data : Bytes) :
    (c.onBody data).role = c.role ∧ (c.onBody data).soleRequest = c.soleRequest ∧
      (c.onBody data).isOpen = c.isOpen := by
  unfold ClientConnection.onBody
  split_ifs <;> exact ⟨rfl, rfl, rfl⟩

theorem BlamesRight.close (h : c.BlamesRight) {byPeer : Bool}
    (hends : byPeer = true → c.reading.any (·.untilClose) = false) : (c.close byPeer).BlamesRight := by
  have hnot : ¬ (byPeer && c.reading.any (·.untilClose)) = true := by
    cases byPeer with
    | false => simp
    | true => simp [hends rfl]
  rw [ClientConnection.close, if_neg hnot]
  exact ⟨h.answered, h.final, h.interim⟩

end ClientConnection

end GopherMcp
