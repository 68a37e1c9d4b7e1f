import GopherMcp.Filter.HttpSecurity
import GopherMcp.Server.TaskRequests

/-!
# Whom tasks belong to

The owner of a task is computed from the principal of a connection. Over HTTP that is what the security filter
wrote down when the headers of a request came, and where no hook established who the request is from, the filter
wrote down a name all the same. No other transport has a hook, and none has a principal. A request is dispatched
on its connection if the filter lets its parts through.
-/

namespace GopherMcp

open TaskRequests
open TaskStore (Now)

/-- What a connection is dispatched from. -/
inductive Transport
  | http (chain : HttpSecurityFilter)
  | other

/-- A request that was dispatched: who its hook established it is from, and the owner it had. -/
structure ServedRequest where
  established : Option Bytes
  owner : Option Bytes

structure TaskServer where
  allowTasksWithoutCaller : Bool
  connections : Nat → Transport
  store : TaskStore.State
  served : List ServedRequest

inductive ServerOp
  | http (connection : Nat) (allowedOrigins : List Bytes)
  | other (connection : Nat)
  | codec (connection : Nat) (op : SecurityOp)
  | dispatch (connection : Nat) (tasks : Bool) (incoming : IncomingRequest)
  | work (work : Work × Now)

namespace HttpSecurityFilter

/-- Who the hook established the request to be from. It is asked if the origin is allowed. -/
def establishedBy (allowedOrigins : List Bytes) (request : JudgedRequest) : Option Bytes :=
  if judge allowedOrigins request = .accepted then
    request.auth.bind fun decision => if decision.principal.isEmpty then none else some decision.principal
  else none

end HttpSecurityFilter

namespace Transport

/-- `MessageDispatchContext::principal`. -/
def principal : Transport → Bytes
  | .http chain => chain.security.principal
  | .other => []

/-- Who the hook established the last request to be from. -/
def established : Transport → Option Bytes
  | .http chain => chain.requests.getLast?.bind (HttpSecurityFilter.establishedBy chain.allowedOrigins)
  | .other => none

/-- Whether what comes on the connection is let through. -/
def delivers : Transport → Bool
  | .http chain => !chain.refused
  | .other => true

end Transport

namespace TaskServer

def new (allowTasksWithoutCaller : Bool) (config : TaskStore.Config) : TaskServer :=
  ⟨allowTasksWithoutCaller, fun _ => .other, .empty config, []⟩

def connect (s : TaskServer) (connection : Nat) (transport : Transport) : TaskServer :=
  { s with connections := fun other => if other = connection then transport else s.connections other }

/-- The caller of the connection, as the session has it while the request is handled. -/
def session (s : TaskServer) (connection : Nat) (tasks : Bool) : TaskRequests.SessionContext :=
  ⟨(s.connections connection).principal, tasks⟩

def answer (s : TaskServer) (connection : Nat) (tasks : Bool) (incoming : IncomingRequest) :
    TaskStore.State × TaskAnswer :=
  handle s.allowTasksWithoutCaller s.store (s.session connection tasks) incoming

def dispatchRequest (s : TaskServer) (connection : Nat) (tasks : Bool) (incoming : IncomingRequest) :
    TaskServer :=
  if (s.connections connection).delivers then
    { s with
      store := (s.answer connection tasks incoming).1
      served := s.served ++
        [⟨(s.connections connection).established,
          taskOwnerOf s.allowTasksWithoutCaller (s.session connection tasks)⟩] }
  else s

/-- What comes from the codec of a connection. -/
def codec (text : JsonText) (s : TaskServer) (connection : Nat) (op : SecurityOp) : TaskServer :=
  match s.connections connection with
  | .http chain => s.connect connection (.http (chain.step text op))
  | .other => s

def step (text : JsonText) (s : TaskServer) : ServerOp → TaskServer
  | .http connection allowedOrigins => s.connect connection (.http (.new allowedOrigins))
  | .other connection => s.connect connection .other
  | .codec connection op => s.codec text connection op
  | .dispatch connection tasks incoming => s.dispatchRequest connection tasks incoming
  | .work work => { s with store := Work.step s.store work }

/-! ### What is promised to callers -/

/-- Two requests of no one have no caller in common, and neither finds a task made through the other's. -/
def Apart (one other : ServedRequest) : Prop :=
  ∀ owner, CallerBound owner → one.owner = some owner → other.owner ≠ some owner ∧
    ∀ store id now entry, entry.owner = owner →
      TaskStore.find store (other.owner.getD noOwner) id now ≠ some entry

/-- Whatever a request of no one asks for, if it is dispatched now, it makes no task, and gets nothing of one; and
no two requests of no one that were dispatched stand for one caller. -/
structure Belongs (s : TaskServer) : Prop where
  powerless : s.allowTasksWithoutCaller = false → ∀ connection,
    (s.connections connection).delivers = true → (s.connections connection).established = none →
    ∀ tasks incoming, (s.answer connection tasks incoming).1 = s.store ∧
      Denied (s.answer connection tasks incoming).2
  apart : ∀ (i j : Nat) one other, i ≠ j → s.served[i]? = some one → s.served[j]? = some other →
    one.established = none → other.established = none → Apart one other

/-- No request over HTTP that is let through is of no one: the hook names the caller of every request it
allows, and no error is reported while a request it denied is the last. -/
def Named (s : TaskServer) : ServerOp → Prop
  | .codec connection (.headers request _ _) =>
      ∀ chain, s.connections connection = .http chain →
        HttpSecurityFilter.judge chain.allowedOrigins request = .accepted →
        HttpSecurityFilter.establishedBy chain.allowedOrigins request ≠ none
  | .codec connection (.error _) =>
      ∀ chain request, s.connections connection = .http chain → chain.requests.getLast? = some request →
        HttpSecurityFilter.judge chain.allowedOrigins request ≠ .refusedAuth
  | _ => True

/-! ### The chain in front of a request -/

/-- What is written down as the principal of a request. -/
def principalOf (allowedOrigins : List Bytes) (request : JudgedRequest) : Bytes :=
  match HttpSecurityFilter.judge allowedOrigins request with
  | .accepted => (HttpSecurityFilter.establishedBy allowedOrigins request).getD (ascii "anonymous")
  | .refusedOrigin => []
  | .refusedAuth => ascii "anonymous"

/-- The principal is that of the last request, and a request that is let through was named by the hook. -/
structure NamedChain (chain : HttpSecurityFilter) : Prop where
  principal : chain.security.principal =
    (chain.requests.getLast?.map (principalOf chain.allowedOrigins)).getD []
  named : ∀ request, chain.requests.getLast? = some request →
    HttpSecurityFilter.judge chain.allowedOrigins request = .accepted →
    HttpSecurityFilter.establishedBy chain.allowedOrigins request ≠ none
  free : chain.refused = false → ∀ request, chain.requests.getLast? = some request →
    HttpSecurityFilter.judge chain.allowedOrigins request ≠ .refusedAuth

/-- The headers of a request settle its principal. -/
theorem principal_onHeaders (chain : HttpSecurityFilter) (text : JsonText) (request : JudgedRequest)
    (keepAlive http11 : Bool) :
    (chain.onHeaders text request keepAlive http11).security.principal =
      principalOf chain.allowedOrigins request := by
  have hjudge : HttpSecurityFilter.judge chain.allowedOrigins request =
      if !OriginPolicy.originAllowed chain.allowedOrigins
          (RequestHeadersView.get request.headers (ascii "origin")) then .refusedOrigin
      else if request.auth.any fun decision => !decision.allowed then .refusedAuth else .accepted := rfl
  unfold HttpSecurityFilter.onHeaders principalOf HttpSecurityFilter.establishedBy
  dsimp only
  by_cases horigin : (!OriginPolicy.originAllowed chain.allowedOrigins
      (RequestHeadersView.get request.headers (ascii "origin"))) = true
  · have horigin' : (!OriginPolicy.originAllowed (chain.arrive request).allowedOrigins
        (RequestHeadersView.get request.headers (ascii "origin"))) = true := horigin
    rw [if_pos horigin] at hjudge
    rw [if_pos horigin', hjudge]
    rfl
  · have horigin' : ¬ (!OriginPolicy.originAllowed (chain.arrive request).allowedOrigins
        (RequestHeadersView.get request.headers (ascii "origin"))) = true := horigin
    rw [if_neg horigin] at hjudge
    rw [if_neg horigin']
    cases hauth : request.auth with
    | none =>
        rw [hauth, Option.any_none, if_neg Bool.false_ne_true] at hjudge
        rw [hjudge]
        rfl
    | some decision =>
        rw [hauth, Option.any_some] at hjudge
        by_cases hdenied : (!decision.allowed) = true
        · rw [if_pos hdenied] at hjudge
          dsimp only
          rw [if_pos hdenied, hjudge]
          rfl
        · rw [if_neg hdenied] at hjudge
          dsimp only
          rw [if_neg hdenied, hjudge, if_pos rfl]
          cases hprincipal : decision.principal.isEmpty with
          | true =>
              dsimp only [Option.bind]
              rw [if_pos hprincipal]
              rfl
          | false =>
              have hnot : ¬ decision.principal.isEmpty = true := by rw [hprincipal]; exact Bool.false_ne_true
              dsimp only [Option.bind]
              rw [if_neg hnot]
              rfl

/-- The rest of what the headers of a request leave behind. -/
theorem onHeaders_leaves (chain : HttpSecurityFilter) (text : JsonText) (request : JudgedRequest)
    (keepAlive http11 : Bool) :
    let after := chain.onHeaders text request keepAlive http11
    after.allowedOrigins = chain.allowedOrigins ∧ after.requests = chain.requests ++ [request] ∧
      (after.refused = false ↔ HttpSecurityFilter.judge chain.allowedOrigins request = .accepted) := by
  intro after
  rcases chain.onHeaders_cases text request keepAlive http11 with
    ⟨hjudge, security, heq⟩ | ⟨hjudge, message, heq⟩ | ⟨hjudge, security, statusCode, message, heq⟩
  · have hafter : after = _ := heq
    rw [hafter, hjudge]
    exact ⟨rfl, rfl, fun _ => rfl, fun _ => rfl⟩
  · have hafter : after = _ := heq
    rw [hafter, hjudge]
    exact ⟨rfl, rfl, fun h => Bool.noConfusion h, fun h => SecurityVerdict.noConfusion h⟩
  · have hafter : after = _ := heq
    rw [hafter, hjudge]
    exact ⟨rfl, rfl, fun h => Bool.noConfusion h, fun h => SecurityVerdict.noConfusion h⟩

theorem namedChain_new (allowedOrigins : List Bytes) : NamedChain (.new allowedOrigins) where
  principal := rfl
  named _ hlast := by cases hlast
  free _ _ hlast := by cases hlast

theorem namedChain_headers {chain : HttpSecurityFilter} {text : JsonText} {request : JudgedRequest}
    {keepAlive http11 : Bool}
    (h : HttpSecurityFilter.judge chain.allowedOrigins request = .accepted →
      HttpSecurityFilter.establishedBy chain.allowedOrigins request ≠ none) :
    NamedChain (chain.onHeaders text request keepAlive http11) := by
  obtain ⟨horigins, hrequests, hrefused⟩ := onHeaders_leaves chain text request keepAlive http11
  have hlast : (chain.onHeaders text request keepAlive http11).requests.getLast? = some request := by
    rw [hrequests, List.getLast?_concat]
  refine ⟨?_, ?_, ?_⟩
  · rw [principal_onHeaders, hlast, horigins]
    rfl
  · intro other hother
    rw [hlast, Option.some.injEq] at hother
    rw [horigins, ← hother]
    exact h
  · intro hfree other hother
    rw [hlast, Option.some.injEq] at hother
    rw [horigins, ← hother, hrefused.mp hfree]
    decide

theorem NamedChain.step {chain : HttpSecurityFilter} (h : NamedChain chain) {text : JsonText} {op : SecurityOp}
    (hheaders : ∀ request keepAlive http11, op = .headers request keepAlive http11 →
      HttpSecurityFilter.judge chain.allowedOrigins request = .accepted →
      HttpSecurityFilter.establishedBy chain.allowedOrigins request ≠ none)
    (herror : ∀ message, op = .error message → ∀ request, chain.requests.getLast? = some request →
      HttpSecurityFilter.judge chain.allowedOrigins request ≠ .refusedAuth) :
    NamedChain (chain.step text op) := by
  cases op with
  | headers request keepAlive http11 => exact namedChain_headers (hheaders request keepAlive http11 rfl)
  | body data endStream =>
      show NamedChain (chain.onBody data endStream)
      unfold HttpSecurityFilter.onBody
      split_ifs
      · exact h
      · exact { h with }
  | messageComplete =>
      show NamedChain chain.onMessageComplete
      unfold HttpSecurityFilter.onMessageComplete
      split_ifs
      · exact h
      · exact { h with }
  | error message => exact ⟨h.principal, h.named, fun _ => herror message rfl⟩

/-- A request of no one that is let through has no principal. -/
theorem NamedChain.principal_eq_nil {chain : HttpSecurityFilter} (h : NamedChain chain)
    (hdelivers : (Transport.http chain).delivers = true)
    (hestablished : (Transport.http chain).established = none) : chain.security.principal = [] := by
  have hfree : chain.refused = false := by
    unfold Transport.delivers at hdelivers
    rwa [Bool.not_eq_true'] at hdelivers
  rw [h.principal]
  cases hlast : chain.requests.getLast? with
  | none => rfl
  | some request =>
      unfold Transport.established at hestablished
      dsimp only at hestablished
      rw [hlast, Option.bind_some] at hestablished
      rw [Option.map_some, Option.getD_some]
      unfold principalOf
      cases hjudge : HttpSecurityFilter.judge chain.allowedOrigins request with
      | accepted => exact absurd hestablished (h.named request hlast hjudge)
      | refusedOrigin => rfl
      | refusedAuth => exact absurd hjudge (h.free hfree request hlast)

/-! ### The invariant -/

structure Inv (s : TaskServer) : Prop where
  chains : ∀ connection chain, s.connections connection = .http chain → NamedChain chain
  owners : ∀ id entry, s.store.entries.find? id = some entry → entry.owner ≠ noOwner
  served : ∀ one ∈ s.served, one.established = none → ∀ owner, one.owner = some owner → ¬ CallerBound owner

theorem inv_new (allow : Bool) (config : TaskStore.Config) : Inv (new allow config) where
  chains _ _ h := by cases h
  owners _ _ h := by cases h
  served _ h := absurd h List.not_mem_nil

/-- A request of no one has no caller. -/
theorem Inv.principal_eq_nil {s : TaskServer} (h : Inv s) {connection : Nat}
    (hdelivers : (s.connections connection).delivers = true)
    (hestablished : (s.connections connection).established = none) :
    (s.connections connection).principal = [] := by
  cases htransport : s.connections connection with
  | http chain =>
      rw [htransport] at hdelivers hestablished
      exact (h.chains connection chain htransport).principal_eq_nil hdelivers hestablished
  | other => rfl

theorem Inv.connect {s : TaskServer} (h : Inv s) {connection : Nat} {transport : Transport}
    (hchain : ∀ chain, transport = .http chain → NamedChain chain) : Inv (s.connect connection transport) where
  chains other chain hother := by
    unfold TaskServer.connect at hother
    dsimp only at hother
    split_ifs at hother
    · exact hchain chain hother
    · exact h.chains other chain hother
  owners := h.owners
  served := h.served

theorem Inv.dispatchRequest {s : TaskServer} (h : Inv s) (connection : Nat) (tasks : Bool)
    (incoming : IncomingRequest) : Inv (s.dispatchRequest connection tasks incoming) := by
  unfold TaskServer.dispatchRequest
  split_ifs with hdelivers
  · refine ⟨h.chains, fun id entry hfind => ?_, fun one hone hestablished owner howner => ?_⟩
    · rcases (makesFor_handle _ _ _ incoming).owners id entry hfind with ⟨old, hold, hsame⟩ | hnew
      · rw [hsame]
        exact h.owners id old hold
      · exact taskOwnerOf_ne_noOwner hnew
    · rcases List.mem_append.mp hone with hbefore | hlast
      · exact h.served one hbefore hestablished owner howner
      · rw [List.mem_singleton.mp hlast] at hestablished howner
        have hnil : (s.session connection tasks).principal = [] := h.principal_eq_nil hdelivers hestablished
        dsimp only at howner
        rw [taskOwnerOf_of_nil hnil] at howner
        split_ifs at howner
        rw [← Option.some.inj howner]
        exact not_callerBound_nil
  · exact h

/-- **One step** that lets no request of no one through. -/
theorem inv_step {text : JsonText} {s : TaskServer} {op : ServerOp} (hok : Named s op) (h : Inv s) :
    Inv (step text s op) := by
  cases op with
  | http connection allowedOrigins =>
      refine h.connect fun chain heq => ?_
      rw [← Transport.http.inj heq]
      exact namedChain_new allowedOrigins
  | other connection => exact h.connect fun chain heq => Transport.noConfusion heq
  | codec connection op =>
      show Inv (s.codec text connection op)
      unfold codec
      cases htransport : s.connections connection with
      | other => exact h
      | http chain =>
          refine h.connect fun after heq => ?_
          rw [← Transport.http.inj heq]
          refine (h.chains connection chain htransport).step ?_ ?_
          · intro request keepAlive http11 hop
            subst hop
            exact hok chain htransport
          · intro message hop request
            subst hop
            exact hok chain request htransport
  | dispatch connection tasks incoming => exact h.dispatchRequest connection tasks incoming
  | work work =>
      refine ⟨h.chains, fun id entry hfind => ?_, h.served⟩
      obtain ⟨old, hold, hsame⟩ := (keepsOwners_work work).owners id entry hfind
      rw [hsame]
      exact h.owners id old hold

/-- What is promised follows, since no one's requests have no owner that stands for a caller. -/
theorem Inv.belongs {s : TaskServer} (h : Inv s) : Belongs s where
  powerless hallow connection hdelivers hestablished tasks incoming := by
    refine handle_of_no_owner ?_ h.owners incoming
    have hnil : (s.session connection tasks).principal = [] := h.principal_eq_nil hdelivers hestablished
    rw [taskOwnerOf_of_nil hnil, hallow]
    rfl
  apart i j one other _ hone _ hestablished _ owner hbound howner :=
    absurd hbound (h.served one (List.mem_of_getElem? hone) hestablished owner howner)

/-! ### A name for no one -/

/-- No one who has a principal is powerless: there is room for a task of theirs, or they have one. -/
theorem not_belongs_of_principal {s : TaskServer} {connection : Nat}
    (hallow : s.allowTasksWithoutCaller = false) (hroom : 0 < s.store.config.maxPerCaller)
    (hdelivers : (s.connections connection).delivers = true)
    (hestablished : (s.connections connection).established = none)
    (hprincipal : (s.connections connection).principal ≠ []) : ¬ Belongs s := by
  intro h
  have hpowerless := h.powerless hallow connection hdelivers hestablished true
  let now : Now := ⟨0, []⟩
  let owner := callerPrefix ++ (s.connections connection).principal
  have howner : taskOwnerOf s.allowTasksWithoutCaller (s.session connection true) = some owner := by
    unfold taskOwnerOf
    exact if_pos (by simpa [session] using hprincipal)
  by_cases hheld :
      (TaskStore.sweep s.store now).entries.values.countP (·.owner = owner) ≥ s.store.config.maxPerCaller
  · -- one of the tasks held is there to be read
    obtain ⟨entry, hentry, hsame⟩ := List.countP_pos_iff.mp (hroom.trans_le hheld)
    obtain ⟨id, hfind⟩ := ((TaskStore.sweep s.store now).entries.mem_values_iff).mp hentry
    have hfound : TaskStore.find s.store owner id now = some entry := by
      have hswept : (s.store.entries.find? id).filter (fun entry => !entry.expired now) = some entry := by
        rw [← hfind]
        exact (s.store.entries.find?_filter (fun _ entry => !entry.expired now) id).symm
      obtain ⟨hthere, hfresh⟩ := Option.filter_eq_some_iff.mp hswept
      rw [Bool.not_eq_true'] at hfresh
      unfold TaskStore.find
      rw [hthere]
      dsimp only
      rw [if_neg (by rw [hfresh]; exact Bool.false_ne_true), if_pos (of_decide_eq_true hsame)]
    have hread := handle_readRequest howner rfl hfound
    have hdenied := (hpowerless (readRequest id now)).2
    unfold answer at hdenied
    rw [hread] at hdenied
    exact hdenied
  · have hmade := @handle_callRequest s.store [] _ _ _ howner rfl now hheld
    have hsame := (hpowerless (callRequest [] now)).1
    unfold answer at hsame
    rw [hsame] at hmade
    omega

/-- The request that is let through is of no one, and has a principal. -/
theorem not_belongs_step {text : JsonText} {s : TaskServer} {op : ServerOp} (h : Inv s)
    (hallow : s.allowTasksWithoutCaller = false) (hroom : 0 < s.store.config.maxPerCaller)
    (hnot : ¬ Named s op) : ¬ Belongs (step text s op) := by
  have hbreaks (connection : Nat) (chain after : HttpSecurityFilter) (request : JudgedRequest)
      (hop : step text s op = s.connect connection (.http after)) (hfree : after.refused = false)
      (hlast : after.requests.getLast? = some request)
      (hnone : HttpSecurityFilter.establishedBy after.allowedOrigins request = none)
      (hprincipal : after.security.principal = ascii "anonymous") : ¬ Belongs (step text s op) := by
    have hthere : (step text s op).connections connection = .http after := by
      rw [hop]
      exact if_pos rfl
    have hstep : (step text s op).allowTasksWithoutCaller = false ∧
        0 < (step text s op).store.config.maxPerCaller := by
      rw [hop]
      exact ⟨hallow, hroom⟩
    apply not_belongs_of_principal hstep.1 hstep.2
    · rw [hthere]
      unfold Transport.delivers
      dsimp only
      rw [hfree]
      rfl
    · rw [hthere]
      unfold Transport.established
      dsimp only
      rw [hlast]
      exact hnone
    · rw [hthere]
      unfold Transport.principal
      dsimp only
      rw [hprincipal]
      decide
  cases op with
  | http connection allowedOrigins => exact absurd trivial hnot
  | other connection => exact absurd trivial hnot
  | dispatch connection tasks incoming => exact absurd trivial hnot
  | work work => exact absurd trivial hnot
  | codec connection op =>
      have hcodec (chain : HttpSecurityFilter) (htransport : s.connections connection = .http chain) :
          step text s (.codec connection op) = s.connect connection (.http (chain.step text op)) := by
        show s.codec text connection op = _
        unfold codec
        rw [htransport]
      cases op with
      | body data endStream => exact absurd trivial hnot
      | messageComplete => exact absurd trivial hnot
      | headers request keepAlive http11 =>
          unfold Named at hnot
          push Not at hnot
          obtain ⟨chain, htransport, hjudge, hnone⟩ := hnot
          obtain ⟨horigins, hrequests, hrefused⟩ := onHeaders_leaves chain text request keepAlive http11
          refine hbreaks connection chain _ request (hcodec chain htransport) (hrefused.mpr hjudge) ?_ ?_ ?_
          · show (chain.onHeaders text request keepAlive http11).requests.getLast? = some request
            rw [hrequests, List.getLast?_concat]
          · show HttpSecurityFilter.establishedBy
              (chain.onHeaders text request keepAlive http11).allowedOrigins request = none
            rw [horigins]
            exact hnone
          · show (chain.onHeaders text request keepAlive http11).security.principal = ascii "anonymous"
            rw [principal_onHeaders]
            unfold principalOf
            rw [hjudge, hnone]
            rfl
      | error message =>
          unfold Named at hnot
          push Not at hnot
          obtain ⟨chain, request, htransport, hlast, hjudge⟩ := hnot
          refine hbreaks connection chain _ request (hcodec chain htransport) rfl hlast ?_ ?_
          · unfold HttpSecurityFilter.establishedBy
            have hdenied : HttpSecurityFilter.judge chain.allowedOrigins request ≠ .accepted := by
              rw [hjudge]
              decide
            exact if_neg hdenied
          · show chain.security.principal = ascii "anonymous"
            rw [(h.chains connection chain htransport).principal, hlast]
            show principalOf chain.allowedOrigins request = ascii "anonymous"
            unfold principalOf
            rw [hjudge]

/-- What a request of no one must not reach does not depend on the limits, which no step changes. -/
theorem limits_step (text : JsonText) (s : TaskServer) (op : ServerOp) :
    (step text s op).allowTasksWithoutCaller = s.allowTasksWithoutCaller ∧
      (step text s op).store.config = s.store.config := by
  cases op with
  | http connection allowedOrigins => exact ⟨rfl, rfl⟩
  | other connection => exact ⟨rfl, rfl⟩
  | codec connection op =>
      show (s.codec text connection op).allowTasksWithoutCaller = _ ∧
        (s.codec text connection op).store.config = _
      unfold codec
      cases s.connections connection with
      | http chain => exact ⟨rfl, rfl⟩
      | other => exact ⟨rfl, rfl⟩
  | dispatch connection tasks incoming =>
      show (s.dispatchRequest connection tasks incoming).allowTasksWithoutCaller = _ ∧
        (s.dispatchRequest connection tasks incoming).store.config = _
      unfold dispatchRequest
      split_ifs
      · exact ⟨rfl, (makesFor_handle _ _ _ incoming).config⟩
      · exact ⟨rfl, rfl⟩
  | work work => exact ⟨rfl, (keepsOwners_work work).config⟩

/-- Two requests over HTTP, and no hook. -/
def anonymousRun : TaskServer :=
  Runs.run (step ⟨fun _ => [], fun _ => none⟩) (new false ⟨0, 1000, 1, false⟩)
    [.http 0 [], .http 1 [], .codec 0 (.headers ⟨.empty, none⟩ true true),
      .codec 1 (.headers ⟨.empty, none⟩ true true), .dispatch 0 true (callRequest (ascii "t") ⟨0, []⟩)]

end TaskServer

end GopherMcp
