import GopherMcp.Server.SubscribedSessions

/-!
# What each operation does to the tables

A session has a connection or a transport session id, never both, so each way of removing it takes it out
of every table it is in.
-/

namespace GopherMcp

namespace SessionManager

variable {m : SessionManager}

/-! ### Tables -/

/-- The tables lead to the sessions there are, and every session is found in them. -/
structure Tables (m : SessionManager) : Prop where
  named : ∀ id session, m.sessions.find? id = some session → session.id = id
  oneKey : ∀ id session, m.sessions.find? id = some session →
    session.connection = none ∨ session.transportSessionId = []
  connections : ∀ connection id, m.connectionSessions.find? connection = some id ↔
    ∃ session, m.sessions.find? id = some session ∧ session.connection = some connection
  transports : ∀ transport id, m.transportSessions.find? transport = some id ↔
    transport ≠ [] ∧ ∃ session, m.sessions.find? id = some session ∧
      session.transportSessionId = transport
  bounded : m.sessions.size ≤ m.maxSessions
  active : m.sessionsActive = m.sessions.size
  numbered : ∀ id session, m.sessions.find? id = some session →
    ∃ number ≤ m.counter, id = sessionIdOf number

theorem tables_new (maxSessions : Nat) (sessionTimeout : Int) : Tables (new maxSessions sessionTimeout) where
  named _ _ h := by cases h
  oneKey _ _ h := by cases h
  connections _ _ := ⟨fun h => (by cases h), fun ⟨_, h, _⟩ => (by cases h)⟩
  transports _ _ := ⟨fun h => (by cases h), fun ⟨_, _, h, _⟩ => (by cases h)⟩
  bounded := Nat.zero_le _
  active := rfl
  numbered _ _ h := by cases h

/-- A session is gone, and with it what led to it. -/
structure Without (m : SessionManager) (id : Bytes) (m' : SessionManager) : Prop where
  sessions : m'.sessions = m.sessions.erase id
  connections : ∀ connection other, m'.connectionSessions.find? connection = some other ↔
    m.connectionSessions.find? connection = some other ∧ other ≠ id
  transports : ∀ transport other, m'.transportSessions.find? transport = some other ↔
    m.transportSessions.find? transport = some other ∧ other ≠ id
  active : m'.sessionsActive = m.sessionsActive - 1
  counter : m'.counter = m.counter
  maxSessions : m'.maxSessions = m.maxSessions

theorem Tables.without (h : Tables m) {m' : SessionManager} {id : Bytes} {session : SessionContext}
    (hfind : m.sessions.find? id = some session) (hgone : m.Without id m') : Tables m' := by
  have hsize := OrdMap.size_of_find? hfind
  have hkept (other : Bytes) (found : SessionContext) :
      m'.sessions.find? other = some found ↔ m.sessions.find? other = some found ∧ other ≠ id := by
    rw [hgone.sessions, OrdMap.find?_erase_eq_some_iff]
  refine ⟨fun other found hfound => ?_, fun other found hfound => ?_, fun connection other => ?_,
    fun transport other => ?_, ?_, ?_, fun other found hfound => ?_⟩
  · exact h.named other found ((hkept other found).mp hfound).1
  · exact h.oneKey other found ((hkept other found).mp hfound).1
  · rw [hgone.connections, h.connections]
    simp only [hkept]
    constructor
    · rintro ⟨⟨found, hfound, hconnection⟩, hother⟩
      exact ⟨found, ⟨hfound, hother⟩, hconnection⟩
    · rintro ⟨found, ⟨hfound, hother⟩, hconnection⟩
      exact ⟨⟨found, hfound, hconnection⟩, hother⟩
  · rw [hgone.transports, h.transports]
    simp only [hkept]
    constructor
    · rintro ⟨⟨htransport, found, hfound, hsame⟩, hother⟩
      exact ⟨htransport, found, ⟨hfound, hother⟩, hsame⟩
    · rintro ⟨htransport, found, ⟨hfound, hother⟩, hsame⟩
      exact ⟨⟨htransport, found, hfound, hsame⟩, hother⟩
  · have hbounded := h.bounded
    rw [hgone.sessions, hgone.maxSessions]
    omega
  · have hactive := h.active
    rw [hgone.sessions, hgone.active]
    omega
  · obtain ⟨number, hnumber, hid⟩ := h.numbered other found ((hkept other found).mp hfound).1
    exact ⟨number, hgone.counter ▸ hnumber, hid⟩

/-! ### What leads to a session -/

theorem Tables.forgetConnection (h : Tables m) {id : Bytes} {session : SessionContext}
    (hfind : m.sessions.find? id = some session) (connection : Nat) (other : Bytes) :
    (m.forgetConnection session.connection).connectionSessions.find? connection = some other ↔
      m.connectionSessions.find? connection = some other ∧ other ≠ id := by
  have hleads : m.connectionSessions.find? connection = some id ↔ session.connection = some connection := by
    rw [h.connections, hfind]
    simp
  cases hheld : session.connection with
  | none =>
      rw [hheld] at hleads
      refine ⟨fun hfound => ⟨hfound, fun hother => ?_⟩, And.left⟩
      cases hleads.mp (hother ▸ hfound)
  | some held =>
      rw [hheld, Option.some.injEq] at hleads
      change (m.connectionSessions.erase held).find? connection = some other ↔ _
      rw [OrdMap.find?_erase_eq_some_iff]
      refine and_congr_right fun hfound => not_congr ⟨fun hsame => ?_, fun hother => ?_⟩
      · exact Option.some.inj (hfound.symm.trans (hleads.mpr hsame.symm))
      · exact (hleads.mp (hother ▸ hfound)).symm

theorem Tables.forgetTransport (h : Tables m) {id : Bytes} {session : SessionContext}
    (hfind : m.sessions.find? id = some session) (transport : Bytes) (other : Bytes) :
    (m.forgetTransport session.transportSessionId).transportSessions.find? transport = some other ↔
      m.transportSessions.find? transport = some other ∧ other ≠ id := by
  have hleads : m.transportSessions.find? transport = some id ↔
      transport ≠ [] ∧ session.transportSessionId = transport := by
    rw [h.transports, hfind]
    simp
  rw [SessionManager.forgetTransport]
  split_ifs with hnone
  · refine ⟨fun hfound => ⟨hfound, fun hother => ?_⟩, And.left⟩
    obtain ⟨hnonempty, hsame⟩ := hleads.mp (hother ▸ hfound)
    exact hnonempty (hsame ▸ hnone)
  · change (m.transportSessions.erase session.transportSessionId).find? transport = some other ↔ _
    rw [OrdMap.find?_erase_eq_some_iff]
    refine and_congr_right fun hfound => not_congr ⟨fun hsame => ?_, fun hother => ?_⟩
    · exact Option.some.inj (hfound.symm.trans (hleads.mpr ⟨hsame ▸ hnone, hsame.symm⟩))
    · exact (hleads.mp (hother ▸ hfound)).2.symm

/-- Nothing in the table of connections leads to a session without one. -/
theorem Tables.connection_ne (h : Tables m) {id : Bytes} {session : SessionContext}
    (hfind : m.sessions.find? id = some session) (hnone : session.connection = none) (connection : Nat)
    (other : Bytes) : m.connectionSessions.find? connection = some other ↔
      m.connectionSessions.find? connection = some other ∧ other ≠ id := by
  have hforget := h.forgetConnection hfind connection other
  rw [hnone] at hforget
  exact hforget

theorem Tables.transport_ne (h : Tables m) {id : Bytes} {session : SessionContext}
    (hfind : m.sessions.find? id = some session) (hnone : session.transportSessionId = [])
    (transport : Bytes) (other : Bytes) : m.transportSessions.find? transport = some other ↔
      m.transportSessions.find? transport = some other ∧ other ≠ id := by
  have hforget := h.forgetTransport hfind transport other
  rw [SessionManager.forgetTransport, if_pos hnone] at hforget
  exact hforget

/-! ### Removing -/

theorem Tables.removeSession (h : Tables m) {id : Bytes} {session : SessionContext}
    (hfind : m.sessions.find? id = some session) :
    ∃ m', m.removeSession id = (m', some session) ∧ m.Without id m' := by
  unfold SessionManager.removeSession
  rw [hfind]
  have hconnections := h.forgetConnection hfind
  have htransports := h.forgetTransport hfind
  refine ⟨_, rfl, ?_⟩
  rw [SessionManager.forgetTransport] at htransports ⊢
  cases hconnection : session.connection with
  | none =>
      rw [hconnection] at hconnections
      split_ifs at htransports ⊢ with htransport
      · exact ⟨rfl, hconnections, htransports, rfl, rfl, rfl⟩
      · exact ⟨rfl, hconnections, htransports, rfl, rfl, rfl⟩
  | some connection =>
      rw [hconnection] at hconnections
      split_ifs at htransports ⊢ with htransport
      · exact ⟨rfl, hconnections, htransports, rfl, rfl, rfl⟩
      · exact ⟨rfl, hconnections, htransports, rfl, rfl, rfl⟩

theorem Tables.removeSessionByConnection (h : Tables m) {connection : Nat} {id : Bytes}
    (hfind : m.connectionSessions.find? connection = some id) :
    ∃ m' session, m.sessions.find? id = some session ∧
      m.removeSessionByConnection connection = (m', some session) ∧ m.Without id m' := by
  obtain ⟨session, hsession, hconnection⟩ := (h.connections connection id).mp hfind
  have hconnections := h.forgetConnection hsession
  rw [hconnection] at hconnections
  have hnone : session.transportSessionId = [] := by
    obtain hno | hnone := h.oneKey id session hsession
    · rw [hno] at hconnection
      cases hconnection
    · exact hnone
  refine ⟨(m.forgetConnection (some connection)).dropSession id, session, hsession, ?_,
    ⟨rfl, hconnections, h.transport_ne hsession hnone, rfl, rfl, rfl⟩⟩
  simp only [SessionManager.removeSessionByConnection, hfind, hsession]

theorem Tables.removeSessionByTransportId (h : Tables m) {transport : Bytes} {id : Bytes}
    (hfind : m.transportSessions.find? transport = some id) :
    ∃ m' session, m.sessions.find? id = some session ∧
      m.removeSessionByTransportId transport = (m', some session) ∧ m.Without id m' := by
  obtain ⟨hnonempty, session, hsession, htransport⟩ := (h.transports transport id).mp hfind
  have htransports := h.forgetTransport hsession
  rw [SessionManager.forgetTransport, htransport, if_neg hnonempty] at htransports
  have hnone : session.connection = none := by
    obtain hnone | hno := h.oneKey id session hsession
    · exact hnone
    · exact absurd (htransport.symm.trans hno) hnonempty
  refine ⟨{ m with transportSessions := m.transportSessions.erase transport }.dropSession id, session,
    hsession, ?_, ⟨rfl, h.connection_ne hsession hnone, htransports, rfl, rfl, rfl⟩⟩
  simp only [SessionManager.removeSessionByTransportId, hfind, hsession]

/-! ### The sweep -/

/-- Sessions are gone, each of which was there, and the others are left. -/
structure Left (m : SessionManager) (removed : List SessionContext) (m' : SessionManager) : Prop where
  kept : ∀ id session, m'.sessions.find? id = some session ↔
    m.sessions.find? id = some session ∧ ∀ gone ∈ removed, gone.id ≠ id
  gone : ∀ gone ∈ removed, m.sessions.find? gone.id = some gone

theorem left_nil (m : SessionManager) : Left m [] m :=
  ⟨fun _ _ => ⟨fun h => ⟨h, fun _ hgone => absurd hgone List.not_mem_nil⟩, And.left⟩,
    fun _ hgone => absurd hgone List.not_mem_nil⟩

theorem Without.left {m' : SessionManager} {session : SessionContext}
    (hfind : m.sessions.find? session.id = some session) (hgone : m.Without session.id m') :
    Left m [session] m' := by
  refine ⟨fun other found => ?_, fun gone hmem => ?_⟩
  · rw [hgone.sessions, OrdMap.find?_erase_eq_some_iff, List.forall_mem_singleton]
    exact and_congr_right fun _ => ne_comm
  · rw [List.mem_singleton.mp hmem]
    exact hfind

theorem Left.trans {m' m'' : SessionManager} {first second : List SessionContext} (h : Left m first m')
    (h' : Left m' second m'') : Left m (first ++ second) m'' := by
  refine ⟨fun id session => ?_, fun gone hmem => ?_⟩
  · rw [h'.kept, h.kept, List.forall_mem_append, and_assoc]
  · obtain hfirst | hsecond := List.mem_append.mp hmem
    · exact h.gone gone hfirst
    · exact ((h.kept _ _).mp (h'.gone gone hsecond)).1

/-- One turn of the sweep, on a session its transport does not know. -/
theorem Tables.sweepOne (h : Tables m) (removed : List SessionContext) {id : Bytes}
    (hunknown : ∀ session, m.sessions.find? id = some session → session.transportSessionId = []) :
    ∃ m' gone, SessionManager.sweepOne (m, removed) id = (m', removed ++ gone) ∧ Tables m' ∧
      Left m gone m' ∧ ∀ session ∈ gone, session.transportSessionId = [] := by
  cases hfind : m.sessions.find? id with
  | none =>
      refine ⟨m, [], ?_, h, left_nil m, fun _ hmem => absurd hmem List.not_mem_nil⟩
      simp only [SessionManager.sweepOne, hfind, List.append_nil]
  | some session =>
      have hid := h.named id session hfind
      subst hid
      have hnone := hunknown session hfind
      have hswept : m.Without session.id
          { (m.forgetConnection session.connection).dropSession session.id with
            sessionsExpired := (m.forgetConnection session.connection).sessionsExpired + 1 } := by
        have hconnections := h.forgetConnection hfind
        have htransports := h.transport_ne hfind hnone
        cases hconnection : session.connection with
        | none =>
            rw [hconnection] at hconnections
            exact ⟨rfl, hconnections, htransports, rfl, rfl, rfl⟩
        | some connection =>
            rw [hconnection] at hconnections
            exact ⟨rfl, hconnections, htransports, rfl, rfl, rfl⟩
      refine ⟨_, [session], ?_, h.without hfind hswept, hswept.left hfind, fun other hmem => ?_⟩
      · simp only [SessionManager.sweepOne, hfind]
        rfl
      · rw [List.mem_singleton.mp hmem]
        exact hnone

theorem Tables.sweep (h : Tables m) (removed : List SessionContext) (ids : List Bytes)
    (hunknown : ∀ id ∈ ids, ∀ session, m.sessions.find? id = some session →
      session.transportSessionId = []) :
    ∃ m' gone, ids.foldl SessionManager.sweepOne (m, removed) = (m', removed ++ gone) ∧ Tables m' ∧
      Left m gone m' ∧ ∀ session ∈ gone, session.transportSessionId = [] := by
  induction ids generalizing m removed with
  | nil =>
      refine ⟨m, [], ?_, h, left_nil m, fun _ hmem => absurd hmem List.not_mem_nil⟩
      rw [List.foldl_nil, List.append_nil]
  | cons id rest ih =>
      obtain ⟨m', first, hone, htables, hleft, hfirst⟩ :=
        h.sweepOne removed (hunknown id List.mem_cons_self)
      have hrest : ∀ other ∈ rest, ∀ session, m'.sessions.find? other = some session →
          session.transportSessionId = [] := by
        intro other hother session hsession
        exact hunknown other (List.mem_cons_of_mem _ hother) session ((hleft.kept _ _).mp hsession).1
      obtain ⟨m'', second, hall, htables', hleft', hsecond⟩ := ih htables (removed ++ first) hrest
      refine ⟨m'', first ++ second, ?_, htables', hleft.trans hleft', fun session hmem => ?_⟩
      · rw [List.foldl_cons, hone, hall, List.append_assoc]
      · obtain hin | hin := List.mem_append.mp hmem
        · exact hfirst session hin
        · exact hsecond session hin

/-- No session its transport knows is swept, and the tables stay as they should be. -/
theorem Tables.cleanupExpiredSessions (h : Tables m) (now : Int) :
    ∃ m' gone, m.cleanupExpiredSessions now = (m', gone) ∧ Tables m' ∧ Left m gone m' ∧
      ∀ session ∈ gone, session.transportSessionId = [] := by
  refine h.sweep [] (m.expiredIds now) fun id hid session hsession => ?_
  rw [expiredIds, OrdMap.mem_keys_iff, OrdMap.find?_filter, hsession, Option.isSome_filter,
    Option.any_some, Bool.and_eq_true, decide_eq_true_eq] at hid
  exact hid.1

theorem Tables.makeRoom (h : Tables m) (now : Int) :
    ∃ m' gone, m.makeRoom now = (m', gone) ∧ Tables m' ∧ Left m gone m' := by
  rw [SessionManager.makeRoom]
  split_ifs
  · obtain ⟨m', gone, heq, htables, hleft, -⟩ := h.cleanupExpiredSessions now
    exact ⟨m', gone, heq, htables, hleft⟩
  · exact ⟨m, [], rfl, h, left_nil m⟩

/-! ### Adding and changing -/

theorem sessionIdOf_injective : Function.Injective sessionIdOf := by
  intro a b hsame
  exact toDecimal_injective (List.append_cancel_left hsame)

/-- The next id is that of no session. -/
theorem Tables.fresh (h : Tables m) : m.sessions.find? (sessionIdOf (m.counter + 1)) = none := by
  cases hfind : m.sessions.find? (sessionIdOf (m.counter + 1)) with
  | none => rfl
  | some session =>
      obtain ⟨number, hnumber, hsame⟩ := h.numbered _ session hfind
      have heq := sessionIdOf_injective hsame
      omega

theorem Tables.addSession (h : Tables m) {connection : Option Nat} {transport : Bytes}
    (hone : connection = none ∨ transport = [])
    (hconnection : ∀ held, connection = some held → m.connectionSessions.find? held = none)
    (htransport : m.transportSessions.find? transport = none)
    (hroom : ¬ m.maxSessions ≤ m.sessions.size) (now : Int) :
    Tables (m.addSession connection transport now) := by
  have hfresh := h.fresh
  have hsize : (m.addSession connection transport now).sessions.size = m.sessions.size + 1 := by
    change (m.sessions.insert _ _).size = _
    rw [OrdMap.size_insert, OrdMap.erase_of_find?_eq_none hfresh]
  have hfind (id : Bytes) (session : SessionContext) :
      (m.addSession connection transport now).sessions.find? id = some session ↔
        (id = sessionIdOf (m.counter + 1) ∧ SessionContext.new id connection transport now = session) ∨
          m.sessions.find? id = some session := by
    change (m.sessions.insert _ _).find? id = some session ↔ _
    rw [OrdMap.find?_insert]
    split_ifs with hid
    · subst hid
      rw [hfresh]
      simp
    · simp [hid]
  refine ⟨fun id session hsession => ?_, fun id session hsession => ?_, fun held id => ?_,
    fun other id => ?_, ?_, ?_, fun id session hsession => ?_⟩
  · obtain ⟨-, rfl⟩ | hold := (hfind id session).mp hsession
    · rfl
    · exact h.named id session hold
  · obtain ⟨-, rfl⟩ | hold := (hfind id session).mp hsession
    · exact hone
    · exact h.oneKey id session hold
  · have hstep : (m.addSession connection transport now).connectionSessions.find? held = some id ↔
        (id = sessionIdOf (m.counter + 1) ∧ connection = some held) ∨
          m.connectionSessions.find? held = some id := by
      cases connection with
      | none =>
          change m.connectionSessions.find? held = some id ↔ _
          simp
      | some other =>
          change (m.connectionSessions.insert other _).find? held = some id ↔ _
          rw [OrdMap.find?_insert]
          split_ifs with hheld
          · rw [hheld, hconnection other rfl]
            simp [eq_comm]
          · simp [Ne.symm hheld]
    rw [hstep, h.connections]
    simp only [hfind]
    constructor
    · rintro (⟨hid, hheld⟩ | ⟨session, hsession, hheld⟩)
      · exact ⟨_, Or.inl ⟨hid, rfl⟩, hheld⟩
      · exact ⟨session, Or.inr hsession, hheld⟩
    · rintro ⟨session, ⟨hid, rfl⟩ | hsession, hheld⟩
      · exact Or.inl ⟨hid, hheld⟩
      · exact Or.inr ⟨session, hsession, hheld⟩
  · have hstep : (m.addSession connection transport now).transportSessions.find? other = some id ↔
        (id = sessionIdOf (m.counter + 1) ∧ other ≠ [] ∧ transport = other) ∨
          m.transportSessions.find? other = some id := by
      change (if transport = [] then m.transportSessions
        else m.transportSessions.insert transport _).find? other = some id ↔ _
      split_ifs with hempty
      · constructor
        · exact Or.inr
        · rintro (⟨-, hother, rfl⟩ | hold)
          · exact absurd hempty hother
          · exact hold
      · rw [OrdMap.find?_insert]
        split_ifs with hother
        · subst hother
          rw [htransport]
          simp [eq_comm, hempty]
        · simp [Ne.symm hother]
    rw [hstep, h.transports]
    simp only [hfind]
    constructor
    · rintro (⟨hid, hother, hsame⟩ | ⟨hother, session, hsession, hsame⟩)
      · exact ⟨hother, _, Or.inl ⟨hid, rfl⟩, hsame⟩
      · exact ⟨hother, session, Or.inr hsession, hsame⟩
    · rintro ⟨hother, session, ⟨hid, rfl⟩ | hsession, hsame⟩
      · exact Or.inl ⟨hid, hother, hsame⟩
      · exact Or.inr ⟨hother, session, hsession, hsame⟩
  · have hroomy : m.sessions.size < m.maxSessions := Nat.lt_of_not_le hroom
    rw [hsize]
    exact hroomy
  · have hactive := h.active
    rw [hsize]
    change m.sessionsActive + 1 = _
    omega
  · obtain ⟨rfl, -⟩ | hold := (hfind id session).mp hsession
    · exact ⟨m.counter + 1, le_rfl, rfl⟩
    · obtain ⟨number, hnumber, hid⟩ := h.numbered id session hold
      exact ⟨number, Nat.le_succ_of_le hnumber, hid⟩

/-- A session changes in what it is not found by. -/
theorem Tables.replace (h : Tables m) {id : Bytes} {old new : SessionContext}
    (hold : m.sessions.find? id = some old) (hid : new.id = old.id)
    (hconnection : new.connection = old.connection)
    (htransport : new.transportSessionId = old.transportSessionId) :
    Tables { m with sessions := m.sessions.insert id new } := by
  have hsize : (m.sessions.insert id new).size = m.sessions.size := by
    rw [OrdMap.size_insert, OrdMap.size_of_find? hold]
  have hfind (other : Bytes) (session : SessionContext)
      (hsession : (m.sessions.insert id new).find? other = some session) :
      ∃ before, m.sessions.find? other = some before ∧ session.id = before.id ∧
        session.connection = before.connection ∧
        session.transportSessionId = before.transportSessionId := by
    rw [OrdMap.find?_insert] at hsession
    split_ifs at hsession with hother
    · cases hsession
      exact ⟨old, hother ▸ hold, hid, hconnection, htransport⟩
    · exact ⟨session, hsession, rfl, rfl, rfl⟩
  have hback (other : Bytes) (before : SessionContext) (hbefore : m.sessions.find? other = some before) :
      ∃ session, (m.sessions.insert id new).find? other = some session ∧
        session.connection = before.connection ∧
        session.transportSessionId = before.transportSessionId := by
    rw [OrdMap.find?_insert]
    split_ifs with hother
    · rw [hother, hold] at hbefore
      cases hbefore
      exact ⟨new, rfl, hconnection, htransport⟩
    · exact ⟨before, hbefore, rfl, rfl⟩
  refine ⟨fun other session hsession => ?_, fun other session hsession => ?_, fun held other => ?_,
    fun transport other => ?_, hsize ▸ h.bounded, hsize ▸ h.active, fun other session hsession => ?_⟩
  · obtain ⟨before, hbefore, hsame, -, -⟩ := hfind other session hsession
    exact hsame.trans (h.named other before hbefore)
  · obtain ⟨before, hbefore, -, hheld, hkept⟩ := hfind other session hsession
    rw [hheld, hkept]
    exact h.oneKey other before hbefore
  · rw [h.connections]
    constructor
    · rintro ⟨before, hbefore, hheld⟩
      obtain ⟨session, hsession, hsame, -⟩ := hback other before hbefore
      exact ⟨session, hsession, hsame.trans hheld⟩
    · rintro ⟨session, hsession, hheld⟩
      obtain ⟨before, hbefore, -, hsame, -⟩ := hfind other session hsession
      exact ⟨before, hbefore, hsame.symm.trans hheld⟩
  · rw [h.transports]
    refine and_congr_right fun _ => ⟨?_, ?_⟩
    · rintro ⟨before, hbefore, hheld⟩
      obtain ⟨session, hsession, -, hsame⟩ := hback other before hbefore
      exact ⟨session, hsession, hsame.trans hheld⟩
    · rintro ⟨session, hsession, hheld⟩
      obtain ⟨before, hbefore, -, -, hsame⟩ := hfind other session hsession
      exact ⟨before, hbefore, hsame.symm.trans hheld⟩
  · obtain ⟨before, hbefore, -⟩ := hfind other session hsession
    exact h.numbered other before hbefore

end SessionManager

namespace ResourceManager

variable {r : ResourceManager}

/-! ### Subscriptions -/

/-- The map has a session under a resource. -/
def Holds (r : ResourceManager) (uri id : Bytes) : Prop :=
  ∃ ids, r.subscriptions.find? uri = some ids ∧ id ∈ ids.keys

/-- No resource has an empty set. -/
def Occupied (r : ResourceManager) : Prop :=
  ∀ uri ids, r.subscriptions.find? uri = some ids → ids.keys ≠ []

theorem Occupied.insert (h : Occupied r) {uri : Bytes} {ids : OrdSet Bytes} (hsome : ids.keys ≠ []) :
    Occupied ⟨r.subscriptions.insert uri ids⟩ := by
  intro other found hfound
  rw [OrdMap.find?_insert] at hfound
  split_ifs at hfound
  · exact Option.some.inj hfound ▸ hsome
  · exact h other found hfound

/-- One set is replaced. -/
theorem holds_insert (r : ResourceManager) (uri : Bytes) (ids : OrdSet Bytes) (other who : Bytes) :
    Holds ⟨r.subscriptions.insert uri ids⟩ other who ↔
      (other = uri ∧ who ∈ ids.keys) ∨ (other ≠ uri ∧ r.Holds other who) := by
  rw [Holds, OrdMap.find?_insert]
  split_ifs with hother
  · simp [hother]
  · simp [hother, Holds]

theorem holds_getD (r : ResourceManager) (uri who : Bytes) :
    who ∈ ((r.subscriptions.find? uri).getD OrdMap.empty).keys ↔ r.Holds uri who := by
  rw [Holds]
  cases r.subscriptions.find? uri with
  | none => simp
  | some ids => simp

theorem holds_subscribe (r : ResourceManager) (uri id other who : Bytes) :
    (r.subscribe uri id).Holds other who ↔ (other = uri ∧ who = id) ∨ r.Holds other who := by
  rw [subscribe, holds_insert, OrdMap.mem_keys_insert, holds_getD]
  by_cases hother : other = uri
  · simp [hother]
  · simp [hother]

theorem holds_unsubscribe (r : ResourceManager) (uri id other who : Bytes) :
    (r.unsubscribe uri id).Holds other who ↔ r.Holds other who ∧ ¬ (other = uri ∧ who = id) := by
  rw [unsubscribe, holds_insert, OrdMap.mem_keys_erase, holds_getD]
  by_cases hother : other = uri
  · simp [hother]
  · simp [hother]

theorem holds_releaseUri (r : ResourceManager) (id uri other who : Bytes) :
    (releaseUri id r uri).Holds other who ↔ r.Holds other who ∧ ¬ (other = uri ∧ who = id) := by
  unfold releaseUri
  cases hfind : r.subscriptions.find? uri with
  | none =>
      refine ⟨fun hholds => ⟨hholds, fun hboth => ?_⟩, And.left⟩
      obtain ⟨ids, hids, -⟩ := hholds
      rw [hboth.1, hfind] at hids
      cases hids
  | some ids =>
      have hmem : who ∈ ids.keys ↔ r.Holds uri who := by
        rw [← holds_getD, hfind, Option.getD_some]
      dsimp only
      split_ifs with hempty
      · have hlast : ∀ left ∈ ids.keys, left = id := by
          intro left hleft
          by_contra hne
          have hin : left ∈ (ids.erase id).keys := (OrdMap.mem_keys_erase _ _ _).mpr ⟨hleft, hne⟩
          rw [hempty] at hin
          exact List.not_mem_nil hin
        rw [Holds, OrdMap.find?_erase]
        split_ifs with hother
        · subst hother
          simp only [false_and, exists_false, true_and, false_iff, not_and, not_not]
          intro hholds
          exact hlast who (hmem.mpr hholds)
        · simp [hother, Holds]
      · rw [holds_insert, OrdMap.mem_keys_erase, hmem]
        by_cases hother : other = uri
        · simp [hother]
        · simp [hother]

theorem Occupied.releaseUri (h : Occupied r) (id uri : Bytes) :
    Occupied (ResourceManager.releaseUri id r uri) := by
  unfold ResourceManager.releaseUri
  cases r.subscriptions.find? uri with
  | none => exact h
  | some ids =>
      dsimp only
      split_ifs with hempty
      · intro other found hfound
        rw [OrdMap.find?_erase] at hfound
        split_ifs at hfound
        exact h other found hfound
      · exact h.insert hempty

/-- A session is released from what it subscribed to. -/
theorem holds_releaseSession (r : ResourceManager) (session : SessionContext) (uri who : Bytes) :
    (r.releaseSession session).Holds uri who ↔
      r.Holds uri who ∧ ¬ (uri ∈ session.subscriptions.keys ∧ who = session.id) := by
  rw [releaseSession]
  induction session.subscriptions.keys generalizing r with
  | nil => simp
  | cons first rest ih =>
      rw [List.foldl_cons, ih, holds_releaseUri, List.mem_cons]
      tauto

theorem holds_releaseAll (r : ResourceManager) (removed : List SessionContext) (uri who : Bytes) :
    (removed.foldl releaseSession r).Holds uri who ↔
      r.Holds uri who ∧ ¬ ∃ gone ∈ removed, uri ∈ gone.subscriptions.keys ∧ who = gone.id := by
  induction removed generalizing r with
  | nil => simp
  | cons gone rest ih =>
      rw [List.foldl_cons, ih, holds_releaseSession]
      simp only [List.mem_cons, exists_eq_or_imp, not_or, and_assoc]

theorem Occupied.releaseAll (h : Occupied r) (removed : List SessionContext) :
    Occupied (removed.foldl ResourceManager.releaseSession r) := by
  induction removed generalizing r with
  | nil => exact h
  | cons gone rest ih =>
      rw [List.foldl_cons]
      apply ih
      rw [ResourceManager.releaseSession]
      induction gone.subscriptions.keys generalizing r with
      | nil => exact h
      | cons uri uris ihUris => exact ihUris (h.releaseUri gone.id uri)

end ResourceManager

end GopherMcp
