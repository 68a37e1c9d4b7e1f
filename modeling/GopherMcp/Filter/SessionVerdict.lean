import GopherMcp.Transport.SessionInvariant

/-!
# The session of a request

Each thread has its own instance of the filter, and a session belongs to one thread. A request that names
a session of another thread is judged over there. A request that needs no session is always judged where it
arrived, whichever session it names.
-/

namespace GopherMcp

inductive SessionVerdict where
  | serve
  | missing
  | unknown
  | wrongPrincipal
  deriving DecidableEq

/-- What is judged, and what is read along with it. -/
structure Judgement where
  verdict : SessionVerdict
  liveGetStreams : Nat
  resume : Option SessionCtx.ResumePoint

/-- What a request says of its session. The method of a request without a body is empty. -/
structure EndpointRequest where
  methodName : Bytes
  terminating : Bool
  modern : Bool
  offeredSession : Bytes
  lastEventId : Bytes
  principal : Bytes

/-- An answer that refuses a request. -/
structure SessionRefusal where
  status : Nat
  code : Int
  message : Bytes
  deriving DecidableEq

namespace StreamableSessionManager

/-- Every byte is compared, whatever the earlier ones said. -/
def secureEquals (left right : Bytes) : Bool :=
  left.length = right.length &&
    (List.zipWith (fun a b => a ^^^ b) left right).foldl (fun difference bits => difference ||| bits) 0 = 0

def known (s : StreamableSessionManager) (id : Bytes) : Bool := s.directory.contains id

/-- `ownedBy`, of one session. -/
def isOwnedBy (s : StreamableSessionManager) (id : Bytes) (dispatcher : Nat) : Bool :=
  (s.directory.find? id).any fun entry => entry.owner = dispatcher

/-- A visit to a session on the thread that owns it; nothing when there is no such session. -/
def withSession {α : Type} (s : StreamableSessionManager) (id : Bytes)
    (visit : Nat → SessionCtx → α × StreamableSessionManager) : Option (α × StreamableSessionManager) :=
  (s.directory.find? id).map fun entry => visit entry.owner entry.ctx

end StreamableSessionManager

namespace EndpointRequest

open StreamableSessionManager

/-- Introducing oneself and asking a server what it is need no session. -/
def exempt (request : EndpointRequest) : Bool :=
  request.methodName = ascii "initialize" || request.methodName = ascii "server/discover"

/-- The session a request is taken to name. A modern request has none, nor has a server without any. -/
def sessionId (request : EndpointRequest) (sessions : Option StreamableSessionManager) : Bytes :=
  if sessions.isNone || request.modern then [] else request.offeredSession

def resumeId (request : EndpointRequest) : Bytes := if request.modern then [] else request.lastEventId

/-- `judgeSession`, on the thread of `caller`. A request that is served keeps its session alive. -/
def judgeSession (request : EndpointRequest) (requirePrincipalMatch : Bool)
    (sessions : Option StreamableSessionManager) (caller : Nat) (id : Bytes) (now : Int) :
    SessionVerdict × Option StreamableSessionManager :=
  match sessions with
  | none => (.serve, none)
  | some s =>
      if id = [] then (if request.exempt then .serve else .missing, some s)
      else
        match s.find id caller with
        | none => (.unknown, some s)
        | some session =>
            if !secureEquals session.id id then (.unknown, some s)
            else if requirePrincipalMatch && !secureEquals session.principal request.principal then
              (.wrongPrincipal, some s)
            else (.serve, some (s.touch id caller now).2)

/-- What a request that is served needs to know of its session. -/
def readSession (request : EndpointRequest) (session : Option SessionCtx) : Judgement where
  verdict := .serve
  liveGetStreams := (session.map fun session => session.countStreams .get false).getD 0
  resume := session.bind fun session => session.resumeFrom request.resumeId

/-- A verdict alone. -/
def bare (verdict : SessionVerdict) : Judgement := ⟨verdict, 0, none⟩

/-- The judgement where the request arrived. -/
def judgeHere (request : EndpointRequest) (requirePrincipalMatch : Bool)
    (sessions : Option StreamableSessionManager) (dispatcher : Nat) (id : Bytes) (now : Int) :
    Judgement × Option StreamableSessionManager :=
  let (verdict, judged) := request.judgeSession requirePrincipalMatch sessions dispatcher id now
  if verdict = .serve then
    (request.readSession (judged.bind fun s => if id = [] then none else s.find id dispatcher), judged)
  else (bare verdict, judged)

/-- The judgement on the thread of the session. A session that is to end ends there. -/
def judgeThere (request : EndpointRequest) (requirePrincipalMatch : Bool) (s : StreamableSessionManager)
    (id : Bytes) (now : Int) : Judgement × StreamableSessionManager :=
  let visited := s.withSession id fun owner session =>
    let (verdict, judged) := request.judgeSession requirePrincipalMatch (some s) owner id now
    let judged := judged.getD s
    if verdict = .serve then
      if request.terminating then (bare verdict, (judged.removeOwned id owner).2)
      else (request.readSession session, judged)
    else (bare verdict, judged)
  visited.getD (bare .unknown, s)

/-- `validateThenDispatch`, in the filter of a dispatcher. -/
def validate (request : EndpointRequest) (requirePrincipalMatch : Bool)
    (sessions : Option StreamableSessionManager) (dispatcher : Nat) (now : Int) :
    Judgement × Option StreamableSessionManager :=
  let id := request.sessionId sessions
  -- an id that is gone must not keep a client from introducing itself anew
  let id := if request.exempt && sessions.any fun s => id ≠ [] && !s.known id then [] else id
  match sessions with
  | none => request.judgeHere requirePrincipalMatch none dispatcher id now
  | some s =>
      if request.exempt || id = [] || s.isOwnedBy id dispatcher then
        request.judgeHere requirePrincipalMatch (some s) dispatcher id now
      else
        let (judgement, s) := request.judgeThere requirePrincipalMatch s id now
        (judgement, some s)

/-- `refuseSession`. -/
def refuseSession : SessionVerdict → Option SessionRefusal
  | .missing =>
      some ⟨400, -32600, ascii "Bad Request: Mcp-Session-Id is required for every request after initialize"⟩
  | .unknown => some ⟨404, -32600, ascii "Not Found: no such session; send initialize again"⟩
  | .wrongPrincipal => some ⟨403, -32600, ascii "Forbidden: this session belongs to another caller"⟩
  | .serve => none

/-- The refusal a request gets, if any. A modern request has no session to judge. -/
def refusal (request : EndpointRequest) (judgement : Judgement) : Option SessionRefusal :=
  if request.modern then none else refuseSession judgement.verdict

/-- What a request is entitled to, whatever thread it came to. -/
def entitlement (request : EndpointRequest) (requirePrincipalMatch : Bool) (s : StreamableSessionManager) :
    SessionVerdict :=
  let id := request.sessionId (some s)
  if id = [] then if request.exempt then .serve else .missing
  else
    match s.directory.find? id with
    | none => if request.exempt then .serve else .unknown
    | some entry =>
        if requirePrincipalMatch = true ∧ entry.ctx.principal ≠ request.principal then .wrongPrincipal
        else .serve

/-- The request needs no session, and names one there is. -/
def NamesForNothing (request : EndpointRequest) (s : StreamableSessionManager) : Prop :=
  request.exempt = true ∧ request.sessionId (some s) ≠ [] ∧ s.known (request.sessionId (some s)) = true

end EndpointRequest

namespace StreamableSessionManager

variable {s : StreamableSessionManager}

/-! ### Names -/

theorem foldl_or_eq_zero (differences : List UInt8) (start : UInt8) :
    differences.foldl (fun difference bits => difference ||| bits) start = 0 ↔
      start = 0 ∧ ∀ bits ∈ differences, bits = 0 := by
  induction differences generalizing start with
  | nil => simp
  | cons bits rest ih =>
      rw [List.foldl_cons, ih, UInt8.or_eq_zero_iff, List.forall_mem_cons, and_assoc]

theorem secureEquals_iff (left right : Bytes) : secureEquals left right = true ↔ left = right := by
  rw [secureEquals, Bool.and_eq_true, decide_eq_true_eq, decide_eq_true_eq, foldl_or_eq_zero]
  constructor
  · rintro ⟨hlength, -, hzero⟩
    apply List.ext_getElem hlength
    intro i hleft hright
    have hmem : left[i] ^^^ right[i] ∈ List.zipWith (fun a b => a ^^^ b) left right := by
      rw [List.mem_iff_getElem]
      exact ⟨i, by simp [hleft, hright], by simp⟩
    exact UInt8.xor_eq_zero_iff.mp (hzero _ hmem)
  · rintro rfl
    refine ⟨rfl, rfl, fun bits hbits => ?_⟩
    obtain ⟨i, hi, rfl⟩ := List.mem_iff_getElem.mp hbits
    simp

/-- Every session goes by the id it is filed under. -/
def Named (s : StreamableSessionManager) : Prop :=
  ∀ id session, s.session? id = some session → session.id = id

theorem Named.put (h : Named s) {id : Bytes} {session : SessionCtx} (hid : session.id = id) :
    Named (s.put id session) := by
  intro other found hfound
  rw [StreamableSessionManager.put] at hfound
  cases hentry : s.directory.find? id with
  | none =>
      simp only [hentry] at hfound
      exact h other found hfound
  | some entry =>
      simp only [hentry] at hfound
      rw [session?, OrdMap.find?_insert] at hfound
      split_ifs at hfound with hsame
      · cases hfound
        exact hid.trans hsame.symm
      · exact h other found hfound

theorem Named.onSession (h : Named s) (id : Bytes) {change : SessionCtx → SessionCtx}
    (hchange : ∀ session, (change session).id = session.id) : Named (s.onSession id change) := by
  unfold StreamableSessionManager.onSession
  cases hsession : s.session? id with
  | none => exact h
  | some session => exact h.put ((hchange session).trans (h id session hsession))

/-- Only the directory matters. -/
theorem Named.of_directory {t : StreamableSessionManager} (h : Named s)
    (hdirectory : t.directory = s.directory) : Named t := by
  intro id session hsession
  rw [session?, hdirectory] at hsession
  exact h id session hsession

theorem directory_releaseStreamId (s : StreamableSessionManager) (streamId : Bytes) :
    (s.releaseStreamId streamId).directory = s.directory := by
  rw [releaseStreamId]
  split_ifs <;> rfl

theorem Named.erase (h : Named s) (id : Bytes) : Named { s with directory := s.directory.erase id } := by
  intro other session hsession
  rw [session?, OrdMap.find?_erase] at hsession
  split_ifs at hsession
  · cases hsession
  · exact h other session hsession

theorem Named.closeAll (h : Named s) (session : SessionCtx) : Named (s.closeAll session) := by
  rw [StreamableSessionManager.closeAll]
  induction session.streams.reverse generalizing s with
  | nil => exact h
  | cons stream rest ih => exact ih (h.of_directory (directory_releaseStreamId s stream.id))

theorem Named.removeOwned (h : Named s) (id : Bytes) (caller : Nat) : Named (s.removeOwned id caller).2 := by
  unfold StreamableSessionManager.removeOwned
  cases s.directory.find? id with
  | none => exact h
  | some entry =>
      dsimp only
      split_ifs
      · exact (Named.closeAll (h.erase id) entry.ctx).of_directory rfl
      · exact h

theorem Named.closeStream (h : Named s) (id : Bytes) (address : Nat) : Named (s.closeStream id address) := by
  unfold StreamableSessionManager.closeStream
  cases hsession : s.session? id with
  | none => exact h
  | some session =>
      dsimp only
      cases session.streamAt address with
      | none => exact h
      | some stream =>
          have hput : Named (s.put id (session.dropStream stream)) := h.put (h id session hsession)
          exact hput.of_directory (directory_releaseStreamId _ _)

theorem Named.foldl {α : Type} (operation : StreamableSessionManager → α → StreamableSessionManager)
    (hkeeps : ∀ t item, Named t → Named (operation t item)) (h : Named s) (items : List α) :
    Named (items.foldl operation s) := by
  induction items generalizing s with
  | nil => exact h
  | cons item rest ih => exact ih (hkeeps s item h)

theorem Named.retireStreams (h : Named s) (now : Int) (id : Bytes) : Named (s.retireStreams now id) := by
  rw [StreamableSessionManager.retireStreams]
  split_ifs
  · exact h
  · cases hsession : s.session? id with
    | none => exact h
    | some session =>
        have hwound : Named (s.put id { session with
            streams := session.streams.map
              (SessionCtx.windStream s.config.closedStreamRetention now) }) :=
          h.put (h id session hsession)
        exact hwound.foldl _ (fun t address ht => ht.closeStream id address) _

theorem Named.sweepFor (h : Named s) (owner : Nat) (now : Int) : Named (s.sweepFor owner now) := by
  have hretired := h.foldl (fun t id => t.retireStreams now id)
    (fun t id ht => ht.retireStreams now id) (s.ownedBy owner)
  exact hretired.foldl _ (fun t id ht => ht.removeOwned id owner) _

theorem id_writeToStream (session : SessionCtx) (stream : StreamCtx) (message : Message) (queued : Bool) :
    (session.writeToStream stream message queued).id = session.id := by
  rw [SessionCtx.writeToStream]
  split_ifs <;> rfl

theorem Named.flushPending (h : Named s) {id : Bytes} {session : SessionCtx} (hid : session.id = id)
    (stream : StreamCtx) : Named (s.flushPending id session stream) := by
  unfold StreamableSessionManager.flushPending
  cases session.pending with
  | nil => exact h.put hid
  | cons front rest =>
      dsimp only
      split_ifs
      · exact h.put hid
      · have hput := h.put ((id_writeToStream session stream front true).trans hid)
        exact hput.of_directory rfl

theorem Named.openStream (h : Named s) (id streamId : Bytes) (kind : StreamKind)
    (exchange conn : Option Nat) (dispatcher : Nat) (now : Int) :
    Named (s.openStream id streamId kind exchange conn dispatcher now) := by
  rw [StreamableSessionManager.openStream]
  split_ifs
  · exact h
  · cases hsession : s.session? id with
    | none => exact h
    | some session =>
        let stream := s.newStream streamId kind exchange conn dispatcher
        have hid : (session.addStream stream now).id = id := h id session hsession
        have htaken : Named { s with
            nextAddress := s.nextAddress + 1, reserved := s.reserved.erase streamId } :=
          h.of_directory rfl
        cases kind with
        | get => exact htaken.flushPending hid stream
        | postResponse => exact htaken.put hid

theorem Named.flushed (h : Named s) {t : StreamableSessionManager} (ht : s.flushed = some t) : Named t := by
  unfold StreamableSessionManager.flushed at ht
  cases hflushes : s.flushes with
  | nil =>
      simp only [hflushes, Option.some.injEq] at ht
      exact ht ▸ h
  | cons flush outer =>
      obtain ⟨id, address⟩ := flush
      cases hsession : s.session? id with
      | none => simp [hflushes, hsession] at ht
      | some session =>
          have hid : session.id = id := h id session hsession
          obtain hnone | ⟨last, hlast⟩ | ⟨last, front, rest, hmore⟩ : session.pending = [] ∨
              (∃ last, session.pending = [last]) ∨
                ∃ last front rest, session.pending = last :: front :: rest := by
            cases session.pending with
            | nil => exact Or.inl rfl
            | cons last rest =>
                cases rest with
                | nil => exact Or.inr (Or.inl ⟨last, rfl⟩)
                | cons front rest => exact Or.inr (Or.inr ⟨last, front, rest, rfl⟩)
          · simp [hflushes, hsession, hnone] at ht
          · simp only [hflushes, hsession, hlast, Option.some.injEq] at ht
            have hended : Named { s with flushes := outer } := h.of_directory rfl
            have hemptied : { session with pending := [] }.id = id := hid
            rw [← ht]
            exact hended.put hemptied
          · cases hstream : session.streamAt address with
            | none => simp [hflushes, hsession, hmore, hstream] at ht
            | some stream =>
                simp only [hflushes, hsession, hmore, hstream, Option.some.injEq] at ht
                rw [← ht]
                exact h.put ((id_writeToStream _ _ _ _).trans hid)

theorem Named.routeUnsolicited (h : Named s) (id payload : Bytes) {t : StreamableSessionManager}
    (ht : s.routeUnsolicited id payload = some t) : Named t := by
  unfold StreamableSessionManager.routeUnsolicited at ht
  cases hsession : s.session? id with
  | none =>
      simp only [hsession, Option.some.injEq] at ht
      exact ht ▸ h
  | some session =>
      simp only [hsession] at ht
      obtain ⟨routed, hrouted, hput⟩ := Option.map_eq_some_iff.mp ht
      have hid : routed.2.id = session.id := by
        unfold SessionCtx.routeUnsolicited at hrouted
        dsimp only at hrouted
        cases hcurrent : session.currentStream with
        | some stream =>
            simp only [hcurrent, Option.some.injEq] at hrouted
            rw [← hrouted]
            exact id_writeToStream _ _ _ _
        | none =>
            simp only [hcurrent] at hrouted
            split_ifs at hrouted
            · cases hpending : session.pending with
              | nil => simp [hpending] at hrouted
              | cons oldest rest =>
                  simp only [hpending, Option.some.injEq] at hrouted
                  rw [← hrouted]
            · rw [← Option.some.inj hrouted]
      rw [← hput]
      exact h.put (hid.trans (h id session hsession))

theorem Named.step (h : Named s) (operation : Operation) {t : StreamableSessionManager}
    (ht : s.step operation = some t) : Named t := by
  cases operation with
  | createSession owner principal draws now =>
      cases ht
      rw [createSession]
      cases drawFresh s.directory.contains (draws.take kMintAttempts) with
      | none => exact h
      | some drawn =>
          intro id session hsession
          change (((s.directory.insert drawn _).find? id).map Entry.ctx) = some session at hsession
          rw [OrdMap.find?_insert] at hsession
          split_ifs at hsession with hsame
          · cases hsession
            exact hsame.symm
          · exact h id session hsession
  | touch id caller now =>
      cases ht
      unfold touch
      cases hfind : s.find id caller with
      | none => exact h
      | some session =>
          refine h.put (h id session ?_)
          unfold find at hfind
          cases hentry : s.directory.find? id with
          | none => simp [hentry] at hfind
          | some entry =>
              simp only [hentry] at hfind
              split_ifs at hfind
              rw [session?, hentry]
              exact hfind
  | remove id caller =>
      cases ht
      exact h.removeOwned id caller
  | reserveStreamId draws =>
      cases ht
      unfold reserveStreamId
      cases drawFresh s.streamIds.contains (draws.take kMintAttempts) with
      | none => exact h
      | some drawn => exact h.of_directory rfl
  | openStream id streamId kind exchange conn dispatcher now =>
      cases ht
      exact h.openStream id streamId kind exchange conn dispatcher now
  | closeStream id address =>
      cases ht
      exact h.closeStream id address
  | endStream id address now =>
      cases ht
      refine h.onSession id fun session => ?_
      obtain ⟨_, _, -, heq⟩ := SessionCtx.reshaped_endStream session address now
      rw [heq]
  | routeUnsolicited id payload => exact h.routeUnsolicited id payload ht
  | detachConnection id conn now =>
      cases ht
      refine h.onSession id fun session => ?_
      obtain ⟨_, _, -, heq⟩ := SessionCtx.reshaped_detachConnection session conn now
      rw [heq]
  | finishStream id streamId now =>
      cases ht
      refine h.onSession id fun session => ?_
      obtain ⟨_, _, -, heq⟩ := SessionCtx.reshaped_finishStream session streamId now
      rw [heq]
  | resumeFrom id lastEventId =>
      cases ht
      exact h
  | sweepFor owner now =>
      cases ht
      exact h.sweepFor owner now
  | flushed => exact h.flushed ht

/-- **Every run keeps the names.** -/
theorem named_run {config : ManagerConfig} {operations : List Operation}
    (hrun : run config operations = some s) : Named s := by
  have hkeeps (before : Option StreamableSessionManager) (operation : Operation)
      (hbefore : ∀ t, before = some t → Named t) (t : StreamableSessionManager)
      (ht : advance before operation = some t) : Named t := by
    obtain ⟨held, hheld, hstep⟩ := Option.bind_eq_some_iff.mp ht
    exact (hbefore held hheld).step operation hstep
  have hstart (t : StreamableSessionManager) (ht : some (new config) = some t) : Named t := by
    cases ht
    intro id session hsession
    cases hsession
  exact Runs.invariant_of_every_step advance hkeeps hstart operations s hrun

end StreamableSessionManager

namespace EndpointRequest

open StreamableSessionManager

variable {s : StreamableSessionManager} {request : EndpointRequest} {requirePrincipalMatch : Bool}

/-! ### Verdicts -/

/-- On the thread of a session, the verdict is about whom it belongs to. -/
theorem judgeSession_owned (hnamed : Named s) {id : Bytes} {entry : Entry} (hid : id ≠ [])
    (hentry : s.directory.find? id = some entry) (now : Int) :
    (request.judgeSession requirePrincipalMatch (some s) entry.owner id now).1 =
      if requirePrincipalMatch = true ∧ entry.ctx.principal ≠ request.principal then .wrongPrincipal
      else .serve := by
  have hfind : s.find id entry.owner = some entry.ctx := by simp [StreamableSessionManager.find, hentry]
  have hname : secureEquals entry.ctx.id id = true :=
    (secureEquals_iff _ _).mpr (hnamed id entry.ctx (congrArg (Option.map Entry.ctx) hentry))
  have hprincipal : (requirePrincipalMatch && !secureEquals entry.ctx.principal request.principal) = true ↔
      requirePrincipalMatch = true ∧ entry.ctx.principal ≠ request.principal := by
    rw [Bool.and_eq_true, Bool.not_eq_true', ← Bool.not_eq_true, secureEquals_iff]
  simp only [judgeSession, if_neg hid, hfind, hname, Bool.not_true, Bool.false_eq_true, if_false,
    hprincipal]
  split_ifs <;> rfl

theorem judgeSession_elsewhere {id : Bytes} {entry : Entry} (hid : id ≠ [])
    (hentry : s.directory.find? id = some entry) {caller : Nat} (hcaller : entry.owner ≠ caller)
    (now : Int) : (request.judgeSession requirePrincipalMatch (some s) caller id now).1 = .unknown := by
  have hfind : s.find id caller = none := by simp [StreamableSessionManager.find, hentry, hcaller]
  simp only [judgeSession, if_neg hid, hfind]

theorem judgeHere_verdict (sessions : Option StreamableSessionManager) (dispatcher : Nat) (id : Bytes)
    (now : Int) :
    (request.judgeHere requirePrincipalMatch sessions dispatcher id now).1.verdict =
      (request.judgeSession requirePrincipalMatch sessions dispatcher id now).1 := by
  rw [judgeHere]
  dsimp only
  by_cases hserve : (request.judgeSession requirePrincipalMatch sessions dispatcher id now).1 = .serve
  · rw [if_pos hserve, hserve]
    rfl
  · rw [if_neg hserve]
    rfl

theorem judgeThere_verdict {id : Bytes} {entry : Entry} (hentry : s.directory.find? id = some entry)
    (now : Int) :
    (request.judgeThere requirePrincipalMatch s id now).1.verdict =
      (request.judgeSession requirePrincipalMatch (some s) entry.owner id now).1 := by
  rw [judgeThere, withSession, hentry]
  simp only [Option.map_some, Option.getD_some]
  split_ifs with hserve
  · rfl
  · exact hserve.symm
  · rfl

/-- A session named by an exempt request is looked up on the wrong thread. -/
theorem validate_forNothing {id : Bytes} {entry : Entry} (hexempt : request.exempt = true)
    (hsession : request.sessionId (some s) = id)
    (hentry : s.directory.find? id = some entry) (dispatcher : Nat) (now : Int) :
    (request.validate requirePrincipalMatch (some s) dispatcher now).1.verdict =
      (request.judgeSession requirePrincipalMatch (some s) dispatcher id now).1 := by
  have hknown : s.known id = true := by
    rw [known, OrdMap.contains_iff, OrdMap.mem_keys_iff, hentry]
    rfl
  simp only [validate, hsession, hexempt, hknown, Option.any_some, Bool.not_true, Bool.and_false,
    Bool.false_eq_true, if_false, Bool.true_or, if_true]
  exact judgeHere_verdict _ _ _ _

/-- Every other request gets what it is entitled to. -/
theorem validate_verdict (hnamed : Named s) (h : ¬ request.NamesForNothing s) (dispatcher : Nat)
    (now : Int) :
    (request.validate requirePrincipalMatch (some s) dispatcher now).1.verdict =
      request.entitlement requirePrincipalMatch s := by
  have hnone : request.sessionId (some s) = [] → (request.validate requirePrincipalMatch (some s)
      dispatcher now).1.verdict = if request.exempt then .serve else .missing := by
    intro hid
    simp only [validate, hid, ite_self, decide_true, Bool.or_true, Bool.true_or, if_true]
    rw [judgeHere_verdict]
    rfl
  by_cases hid : request.sessionId (some s) = []
  · rw [hnone hid, entitlement]
    simp only [hid, if_true]
  · cases hentry : s.directory.find? (request.sessionId (some s)) with
    | none =>
        have hunknown : s.known (request.sessionId (some s)) = false := by
          rw [Bool.eq_false_iff, Ne, known, OrdMap.contains_iff, OrdMap.mem_keys_iff, hentry]
          exact Bool.false_ne_true
        rw [entitlement]
        simp only [if_neg hid, hentry]
        cases hexempt : request.exempt with
        | true =>
            simp only [validate, hexempt, hunknown, hid, Option.any_some, ne_eq, not_false_eq_true,
              decide_true, Bool.not_false, Bool.and_true, Bool.true_or, if_true]
            rw [judgeHere_verdict]
            simp only [judgeSession, hexempt, if_true]
        | false =>
            simp only [validate, hexempt, Bool.false_and, Bool.false_eq_true, if_false, hid, isOwnedBy,
              hentry, Option.any_none, decide_false, Bool.or_self, judgeThere, withSession,
              Option.map_none, Option.getD_none]
            rfl
    | some entry =>
        have hknown : s.known (request.sessionId (some s)) = true := by
          rw [known, OrdMap.contains_iff, OrdMap.mem_keys_iff, hentry]
          rfl
        have hexempt : request.exempt = false := by
          rw [Bool.eq_false_iff]
          exact fun hexempt => h ⟨hexempt, hid, hknown⟩
        have howner : (request.judgeSession requirePrincipalMatch (some s) entry.owner
            (request.sessionId (some s)) now).1 = _ := judgeSession_owned hnamed hid hentry now
        rw [entitlement]
        simp only [if_neg hid, hentry]
        rw [← howner]
        simp only [validate, hexempt, Bool.false_and, Bool.false_eq_true, if_false, hid, decide_false,
          Bool.or_false, Bool.false_or, isOwnedBy, hentry, Option.any_some, decide_eq_true_eq]
        split_ifs with hhere
        · rw [judgeHere_verdict, hhere]
        · exact judgeThere_verdict hentry now

/-- **The verdict does not depend on the thread** a request came to, unless the request needs no session
and names one there is. -/
theorem validate_agrees_iff {config : ManagerConfig} {operations : List Operation}
    (hrun : run config operations = some s) (request : EndpointRequest) (requirePrincipalMatch : Bool)
    (now : Int) :
    (∀ dispatcher other,
      (request.validate requirePrincipalMatch (some s) dispatcher now).1.verdict =
        (request.validate requirePrincipalMatch (some s) other now).1.verdict) ↔
      ¬ request.NamesForNothing s := by
  have hnamed := named_run hrun
  constructor
  · rintro hagrees ⟨hexempt, hid, hknown⟩
    rw [known, OrdMap.contains_iff, OrdMap.mem_keys_iff, Option.isSome_iff_exists] at hknown
    obtain ⟨entry, hentry⟩ := hknown
    have hthere := hagrees entry.owner (entry.owner + 1)
    rw [validate_forNothing hexempt rfl hentry, validate_forNothing hexempt rfl hentry,
      judgeSession_owned hnamed hid hentry,
      judgeSession_elsewhere hid hentry (Nat.ne_of_lt (Nat.lt_succ_self _))] at hthere
    split_ifs at hthere
  · intro h dispatcher other
    rw [validate_verdict hnamed h, validate_verdict hnamed h]

/-- A client that has a session asks what the server is. -/
def asking : EndpointRequest where
  methodName := ascii "server/discover"
  terminating := false
  modern := false
  offeredSession := ascii "s1"
  lastEventId := []
  principal := ascii "alice"

/-- One session of one thread. -/
def opening : List Operation := [.createSession 0 (ascii "alice") [ascii "s1"] 0]

/-- Another method, which needs its session, gets one verdict on all threads. -/
theorem validate_agrees_iff_pinging :
    ∃ s, run ⟨2, 300000, 60000⟩ opening = some s ∧ ∀ dispatcher other,
      (validate { asking with methodName := ascii "ping" } true (some s) dispatcher 5).1.verdict =
        (validate { asking with methodName := ascii "ping" } true (some s) other 5).1.verdict := by
  have hrun : run ⟨2, 300000, 60000⟩ opening =
      some ((new ⟨2, 300000, 60000⟩).createSession 0 (ascii "alice") [ascii "s1"] 0).2 := rfl
  exact ⟨_, hrun, (validate_agrees_iff hrun _ _ _).mpr fun h => absurd h.1 (by decide)⟩

/-- Its own thread serves the request, and another says there is no such session. -/
theorem not_validate_agrees_asking :
    ∃ s, run ⟨2, 300000, 60000⟩ opening = some s ∧
      (asking.validate true (some s) 0 5).1.verdict = .serve ∧
      (asking.validate true (some s) 1 5).1.verdict = .unknown :=
  ⟨_, rfl, by decide, by decide⟩

end EndpointRequest

end GopherMcp
