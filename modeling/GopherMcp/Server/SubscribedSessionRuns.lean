import GopherMcp.Server.SessionTables

/-!
# The tables of sessions and subscriptions stay consistent

The map of subscriptions keeps what the sessions keep. An empty set stays in it when a session unsubscribes
that was the last one, or none of them; nothing else goes wrong.
-/

namespace GopherMcp

namespace SessionServer

open SessionManager ResourceManager

variable {s : SessionServer}

/-- The tables and the subscriptions as they should be. -/
structure Sound (s : SessionServer) : Prop where
  tables : s.manager.Tables
  subscribed : ∀ uri id, s.resources.Holds uri id ↔
    ∃ session, s.manager.sessions.find? id = some session ∧ uri ∈ session.subscriptions.keys
  occupied : s.resources.Occupied

/-- What a reader of the tables relies on. -/
structure Consistent (s : SessionServer) : Prop where
  connections : ∀ connection id, s.manager.connectionSessions.find? connection = some id ↔
    ∃ session, s.manager.sessions.find? id = some session ∧ session.connection = some connection
  transports : ∀ transport id, s.manager.transportSessions.find? transport = some id ↔
    transport ≠ [] ∧ ∃ session, s.manager.sessions.find? id = some session ∧
      session.transportSessionId = transport
  bounded : s.manager.sessions.size ≤ s.manager.maxSessions
  active : s.manager.sessionsActive = s.manager.sessions.size
  unswept : ∀ now, ∀ gone ∈ (s.manager.cleanupExpiredSessions now).2, gone.transportSessionId = []
  subscribed : ∀ uri id, s.resources.Holds uri id ↔
    ∃ session, s.manager.sessions.find? id = some session ∧ uri ∈ session.subscriptions.keys
  occupied : s.resources.Occupied

/-- Operations as the server makes them: a connection that gets a session has none, and a transport
session has an id. -/
def Proper (s : SessionServer) : SessionOp → Prop
  | .createSession (some connection) => s.manager.connectionSessions.find? connection = none
  | .getOrCreateSessionByTransportId transportSessionId => transportSessionId ≠ []
  | _ => True

/-- When a session unsubscribes from a resource, another stays subscribed to it. -/
def KeepsOne (s : SessionServer) : SessionOp → Prop
  | .unsubscribe uri id =>
      s.manager.sessions.find? id ≠ none → ∃ other, other ≠ id ∧ s.resources.Holds uri other
  | _ => True

theorem Sound.consistent (h : s.Sound) : s.Consistent := by
  refine ⟨h.tables.connections, h.tables.transports, h.tables.bounded, h.tables.active,
    fun now gone hgone => ?_, h.subscribed, h.occupied⟩
  obtain ⟨m', removed, heq, -, -, hunknown⟩ := h.tables.cleanupExpiredSessions now
  rw [heq] at hgone
  exact hunknown gone hgone

theorem sound_new (maxSessions : Nat) (sessionTimeout : Int) : Sound (new maxSessions sessionTimeout) where
  tables := tables_new maxSessions sessionTimeout
  subscribed _ _ := ⟨fun ⟨_, h, _⟩ => (by cases h), fun ⟨_, h, _⟩ => (by cases h)⟩
  occupied _ _ h := by cases h

/-! ### Removing -/

/-- Sessions are removed and released. -/
theorem Sound.released (h : s.Sound) {m' : SessionManager} {removed : List SessionContext}
    (htables : m'.Tables) (hleft : Left s.manager removed m') : (s.released (m', removed)).Sound := by
  refine ⟨htables, fun uri id => ?_, h.occupied.releaseAll removed⟩
  change (removed.foldl ResourceManager.releaseSession s.resources).Holds uri id ↔ _
  rw [holds_releaseAll, h.subscribed]
  change _ ↔ ∃ session, m'.sessions.find? id = some session ∧ uri ∈ session.subscriptions.keys
  simp only [hleft.kept]
  constructor
  · rintro ⟨⟨session, hsession, huri⟩, hnot⟩
    refine ⟨session, ⟨hsession, fun gone hgone hid => hnot ⟨gone, hgone, ?_, hid.symm⟩⟩, huri⟩
    have hsame := hleft.gone gone hgone
    rw [hid, hsession] at hsame
    exact Option.some.inj hsame ▸ huri
  · rintro ⟨session, ⟨hsession, hnot⟩, huri⟩
    exact ⟨⟨session, hsession, huri⟩, fun ⟨gone, hgone, _, hid⟩ => hnot gone hgone hid.symm⟩

theorem Sound.removed (h : s.Sound) {m' : SessionManager} {id : Bytes} {session : SessionContext}
    (hfind : s.manager.sessions.find? id = some session) (hgone : s.manager.Without id m') :
    (s.releasedOne (m', some session)).Sound := by
  have hid := h.tables.named id session hfind
  subst hid
  exact h.released (h.tables.without hfind hgone) (hgone.left hfind)

/-! ### Adding -/

theorem Sound.added (h : s.Sound) {connection : Option Nat} {transport : Bytes} {now : Int}
    (htables : (s.manager.addSession connection transport now).Tables) :
    Sound { s with manager := s.manager.addSession connection transport now } := by
  refine ⟨htables, fun uri id => ?_, h.occupied⟩
  have hfresh := h.tables.fresh
  rw [h.subscribed]
  change _ ↔ ∃ session, (s.manager.sessions.insert (sessionIdOf (s.manager.counter + 1))
    (SessionContext.new (sessionIdOf (s.manager.counter + 1)) connection transport now)).find? id =
      some session ∧ uri ∈ session.subscriptions.keys
  rw [OrdMap.find?_insert]
  split_ifs with hid
  · subst hid
    rw [hfresh]
    simp [SessionContext.new]
  · rfl

/-- A session is created where there is room for it, perhaps after a sweep. -/
theorem Sound.created (h : s.Sound) {connection : Option Nat} {transport : Bytes}
    (hone : connection = none ∨ transport = [])
    (hconnection : ∀ held, connection = some held →
      s.manager.connectionSessions.find? held = none)
    (htransport : s.manager.transportSessions.find? transport = none) (now : Int) :
    (s.released (let (m, expired) := s.manager.makeRoom now
      if m.maxSessions ≤ m.sessions.size then (m, expired)
      else (m.addSession connection transport now, expired))).Sound := by
  obtain ⟨m', gone, heq, htables, hleft⟩ := h.tables.makeRoom now
  have hreleased := h.released htables hleft
  rw [heq]
  dsimp only
  split_ifs with hfull
  · exact hreleased
  · refine Sound.added (s := s.released (m', gone)) hreleased ?_
    refine htables.addSession hone (fun held hheld => ?_) ?_ hfull now
    · cases hfind : m'.connectionSessions.find? held with
      | none => rfl
      | some id =>
          obtain ⟨session, hsession, hsame⟩ := (htables.connections held id).mp hfind
          have hbefore := (h.tables.connections held id).mpr
            ⟨session, ((hleft.kept id session).mp hsession).1, hsame⟩
          rw [hconnection held hheld] at hbefore
          cases hbefore
    · cases hfind : m'.transportSessions.find? transport with
      | none => rfl
      | some id =>
          obtain ⟨hnonempty, session, hsession, hsame⟩ := (htables.transports transport id).mp hfind
          have hbefore := (h.tables.transports transport id).mpr
            ⟨hnonempty, session, ((hleft.kept id session).mp hsession).1, hsame⟩
          rw [htransport] at hbefore
          cases hbefore

/-- No transport session id is empty. -/
theorem transport_nil (h : s.Sound) : s.manager.transportSessions.find? [] = none := by
  cases hfind : s.manager.transportSessions.find? [] with
  | none => rfl
  | some id => exact absurd rfl ((h.tables.transports [] id).mp hfind).1

/-! ### Changing -/

theorem Sound.updateActivity (h : s.Sound) (id : Bytes) (now : Int) :
    Sound { s with manager := s.manager.updateActivity id now } := by
  unfold SessionManager.updateActivity
  cases hfind : s.manager.sessions.find? id with
  | none => exact h
  | some session =>
      refine ⟨h.tables.replace hfind rfl rfl rfl, fun uri other => ?_, h.occupied⟩
      rw [h.subscribed]
      dsimp only
      rw [OrdMap.find?_insert]
      split_ifs with hother
      · rw [hother, hfind]
        simp
      · rfl

theorem Sound.holds_iff_mem_subscriptions (h : s.Sound) {id : Bytes} {session : SessionContext}
    (hfind : s.manager.sessions.find? id = some session) (uri : Bytes) :
    s.resources.Holds uri id ↔ uri ∈ session.subscriptions.keys := by
  rw [h.subscribed, hfind]
  simp

/-- A session and the map change alike; where there is no such session neither changes. -/
theorem Sound.onSubscription (h : s.Sound) {id : Bytes} {resources : ResourceManager}
    {change : OrdSet Bytes → OrdSet Bytes}
    (hself : ∀ session, s.manager.sessions.find? id = some session → ∀ uri,
      resources.Holds uri id ↔ uri ∈ (change session.subscriptions).keys)
    (hothers : ∀ uri other, other ≠ id → (resources.Holds uri other ↔ s.resources.Holds uri other))
    (hoccupied : s.manager.sessions.find? id ≠ none → resources.Occupied) :
    (s.onSubscription id resources change).Sound := by
  unfold SessionServer.onSubscription
  cases hfind : s.manager.sessions.find? id with
  | none => exact h
  | some session =>
      simp only
      refine ⟨h.tables.replace hfind rfl rfl rfl, fun uri other => ?_, hoccupied (by simp [hfind])⟩
      dsimp only
      rw [OrdMap.find?_insert]
      split_ifs with hother
      · rw [hother, hself session hfind]
        simp
      · rw [hothers uri other hother, h.subscribed]

theorem Sound.subscribe (h : s.Sound) (uri id : Bytes) : (s.step (.subscribe uri id)).Sound := by
  change (s.onSubscription id (s.resources.subscribe uri id) fun uris => uris.insert uri ()).Sound
  refine h.onSubscription (fun session hfind other => ?_) (fun other who hwho => ?_) fun _ => ?_
  · rw [holds_subscribe, h.holds_iff_mem_subscriptions hfind, OrdMap.mem_keys_insert]
    simp
  · rw [holds_subscribe]
    simp [hwho]
  · refine h.occupied.insert fun hempty => ?_
    have hin : id ∈ (((s.resources.subscriptions.find? uri).getD .empty).insert id ()).keys :=
      (OrdMap.mem_keys_insert _ _ _ _).mpr (Or.inl rfl)
    rw [hempty] at hin
    exact List.not_mem_nil hin

theorem Sound.unsubscribe (h : s.Sound) (uri id : Bytes) (hkeeps : s.KeepsOne (.unsubscribe uri id)) :
    (s.step (.unsubscribe uri id)).Sound := by
  change (s.onSubscription id (s.resources.unsubscribe uri id) fun uris => uris.erase uri).Sound
  refine h.onSubscription (fun session hfind other => ?_) (fun other who hwho => ?_) fun hknown => ?_
  · rw [holds_unsubscribe, h.holds_iff_mem_subscriptions hfind, OrdMap.mem_keys_erase]
    simp
  · rw [holds_unsubscribe]
    simp [hwho]
  · refine h.occupied.insert fun hempty => ?_
    obtain ⟨who, hwho, hholds⟩ := hkeeps hknown
    have hin : who ∈ (((s.resources.subscriptions.find? uri).getD .empty).erase id).keys := by
      rw [OrdMap.mem_keys_erase, holds_getD]
      exact ⟨hholds, hwho⟩
    rw [hempty] at hin
    exact List.not_mem_nil hin

/-! ### Steps and runs -/

theorem Sound.step (h : s.Sound) (op : SessionOp) (hproper : s.Proper op) (hkeeps : s.KeepsOne op) :
    (s.step op).Sound := by
  cases op with
  | createSession connection =>
      refine h.created (Or.inr rfl) (fun held hheld => ?_) (transport_nil h) s.now
      cases hheld
      exact hproper
  | getOrCreateSessionByTransportId transport =>
      change (s.released (s.manager.getOrCreateSessionByTransportId transport s.now)).Sound
      unfold SessionManager.getOrCreateSessionByTransportId
      cases hfind : s.manager.transportSessions.find? transport with
      | some id => exact h.updateActivity id s.now
      | none => exact h.created (Or.inl rfl) (fun held hheld => by cases hheld) hfind s.now
  | getSession id => exact h.updateActivity id s.now
  | removeSession id =>
      change (s.releasedOne (s.manager.removeSession id)).Sound
      cases hfind : s.manager.sessions.find? id with
      | none =>
          unfold SessionManager.removeSession
          simp only [hfind]
          exact h
      | some session =>
          obtain ⟨m', heq, hgone⟩ := h.tables.removeSession hfind
          rw [heq]
          exact h.removed hfind hgone
  | removeSessionByConnection connection =>
      change (s.releasedOne (s.manager.removeSessionByConnection connection)).Sound
      cases hfind : s.manager.connectionSessions.find? connection with
      | none =>
          unfold SessionManager.removeSessionByConnection
          simp only [hfind]
          exact h
      | some id =>
          obtain ⟨m', session, hsession, heq, hgone⟩ := h.tables.removeSessionByConnection hfind
          rw [heq]
          exact h.removed hsession hgone
  | removeSessionByTransportId transport =>
      change (s.releasedOne (s.manager.removeSessionByTransportId transport)).Sound
      cases hfind : s.manager.transportSessions.find? transport with
      | none =>
          unfold SessionManager.removeSessionByTransportId
          simp only [hfind]
          exact h
      | some id =>
          obtain ⟨m', session, hsession, heq, hgone⟩ := h.tables.removeSessionByTransportId hfind
          rw [heq]
          exact h.removed hsession hgone
  | cleanupExpiredSessions =>
      obtain ⟨m', gone, heq, htables, hleft, -⟩ := h.tables.cleanupExpiredSessions s.now
      change (s.released (s.manager.cleanupExpiredSessions s.now)).Sound
      rw [heq]
      exact h.released htables hleft
  | subscribe uri id => exact h.subscribe uri id
  | unsubscribe uri id => exact h.unsubscribe uri id hkeeps
  | advance milliseconds => exact ⟨h.tables, h.subscribed, h.occupied⟩

/-- Where nobody stays subscribed, an empty set is left. -/
theorem not_consistent_of_emptied {op : SessionOp} (hout : ¬ s.KeepsOne op) :
    ¬ (s.step op).Consistent := by
  intro hconsistent
  cases op with
  | unsubscribe uri id =>
      rw [KeepsOne, Classical.not_imp] at hout
      obtain ⟨hlive, hnobody⟩ := hout
      obtain ⟨session, hfind⟩ := Option.ne_none_iff_exists'.mp hlive
      have hstep : (s.step (.unsubscribe uri id)).resources = s.resources.unsubscribe uri id := by
        change (s.onSubscription id (s.resources.unsubscribe uri id) fun uris => uris.erase uri).resources =
          _
        unfold onSubscription
        simp only [hfind]
      have hset : (s.step (.unsubscribe uri id)).resources.subscriptions.find? uri =
          some (((s.resources.subscriptions.find? uri).getD OrdMap.empty).erase id) := by
        rw [hstep]
        exact OrdMap.find?_insert_self _ _ _
      apply hconsistent.occupied uri _ hset
      apply List.eq_nil_iff_forall_not_mem.mpr
      intro who hwho
      rw [OrdMap.mem_keys_erase, holds_getD] at hwho
      exact hnobody ⟨who, hwho.2, hwho.1⟩
  | _ => exact hout trivial

/-- **The tables stay consistent**, in every state of a run, exactly when whoever unsubscribes leaves
somebody subscribed. -/
theorem consistent_iff {maxSessions : Nat} {sessionTimeout : Int} {ops : List SessionOp}
    (hproper : Runs.Guarded step Proper (new maxSessions sessionTimeout) ops) :
    (∀ before after, ops = before ++ after →
        (Runs.run step (new maxSessions sessionTimeout) before).Consistent) ↔
      Runs.Guarded step KeepsOne (new maxSessions sessionTimeout) ops := by
  have hkeeps (s : SessionServer) (op : SessionOp) (hs : s.Proper op) (hone : s.KeepsOne op)
      (hsound : s.Sound) : (s.step op).Sound := hsound.step op hs hone
  have hshows (s : SessionServer) (hsound : s.Sound) : s.Consistent := hsound.consistent
  have hbreaks (s : SessionServer) (op : SessionOp) (_ : s.Proper op) (_ : s.Sound) (hout : ¬ s.KeepsOne op) :
      ¬ (s.step op).Consistent := not_consistent_of_emptied hout
  exact Runs.everywhere_iff_of_inv step hkeeps hshows hbreaks (sound_new maxSessions sessionTimeout) hproper

/-- Two clients subscribe, one takes it back, and the connection of the other closes. -/
def subscribing : List SessionOp :=
  [.createSession (some 3), .getOrCreateSessionByTransportId (ascii "t"),
    .subscribe (ascii "u") (ascii "session_1"), .subscribe (ascii "u") (ascii "session_2"),
    .unsubscribe (ascii "u") (ascii "session_2"), .removeSessionByConnection 3]

theorem consistent_iff_subscribing : (Runs.run step (new 2 300000) subscribing).Consistent := by
  have hproper : Runs.Guarded step Proper (new 2 300000) subscribing :=
    ⟨rfl, List.cons_ne_nil _ _, trivial, trivial, trivial, trivial, trivial⟩
  refine (consistent_iff hproper).mpr ⟨trivial, trivial, trivial, trivial, fun _ => ?_, trivial, trivial⟩
    subscribing [] (List.append_nil _).symm
  exact ⟨ascii "session_1", by decide, _, rfl, by decide⟩

/-- A session unsubscribes from a resource nobody subscribed to, and it has an empty set then. -/
theorem not_consistent_unsubscribed :
    Runs.Guarded step Proper (new 2 300000)
        [.createSession (some 3), .unsubscribe (ascii "u") (ascii "session_1")] ∧
      ¬ (Runs.run step (new 2 300000)
        [.createSession (some 3), .unsubscribe (ascii "u") (ascii "session_1")]).Consistent := by
  refine ⟨⟨rfl, trivial, trivial⟩, fun hconsistent => ?_⟩
  exact hconsistent.occupied (ascii "u") OrdMap.empty rfl rfl

end SessionServer

end GopherMcp
