import GopherMcp.Transport.SessionInvariant

/-!
# Runs of the session manager

Every operation that is safe where it is taken keeps the invariant, so a run of safe operations goes
wrong nowhere, keeps the indexes and the queues of all sessions in step, and loses no message.
-/

namespace GopherMcp

namespace StreamableSessionManager

variable {s : StreamableSessionManager}

/-! ### Ids in use -/

section Counted

variable {reserved : List Bytes} {directory : OrdMap Bytes Entry} {streamIds : OrdMap Bytes Unit}

theorem contains_insert (streamIds : OrdMap Bytes Unit) (drawn streamId : Bytes) :
    (streamIds.insert drawn ()).contains streamId =
      (decide (streamId = drawn) || streamIds.contains streamId) := by
  unfold OrdMap.contains
  rw [OrdMap.find?_insert]
  by_cases hsame : streamId = drawn <;> simp [hsame]

theorem contains_erase (streamIds : OrdMap Bytes Unit) (gone streamId : Bytes) :
    (streamIds.erase gone).contains streamId =
      (!decide (streamId = gone) && streamIds.contains streamId) := by
  unfold OrdMap.contains
  rw [OrdMap.find?_erase]
  by_cases hsame : streamId = gone <;> simp [hsame]

theorem Counted.reserve (h : Counted reserved directory streamIds) {drawn : Bytes}
    (hfresh : streamIds.contains drawn = false) :
    Counted (drawn :: reserved) directory (streamIds.insert drawn ()) := by
  intro streamId
  have hcount := h streamId
  rw [contains_insert, List.count_cons]
  by_cases hsame : streamId = drawn
  · subst hsame
    simp only [hfresh, Bool.false_eq_true, if_false, beq_self_eq_true, if_true, decide_true,
      Bool.true_or] at hcount ⊢
    omega
  · have hne : (drawn == streamId) = false := by simpa using Ne.symm hsame
    simpa [hsame, hne] using hcount

/-- A reserved id becomes the id of a stream. -/
theorem Counted.open (h : Counted reserved directory streamIds) {id opened : Bytes} {entry : Entry}
    (hfind : directory.find? id = some entry) (hreserved : opened ∈ reserved) {session : SessionCtx}
    (hids : session.ids = entry.ctx.ids ++ [opened]) :
    Counted (reserved.erase opened) (directory.insert id { entry with ctx := session }) streamIds := by
  intro streamId
  have hcount := h streamId
  rw [OrdMap.total_of_find? _ hfind] at hcount
  rw [OrdMap.total_insert]
  simp only [hids, List.count_append, List.count_singleton, List.count_erase]
  have hpos : 0 < reserved.count opened := List.count_pos_iff.mpr hreserved
  by_cases hsame : opened = streamId
  · subst hsame
    simp only [beq_self_eq_true, if_true]
    omega
  · have hne : (opened == streamId) = false := by simpa using hsame
    simp only [hne, Bool.false_eq_true, if_false]
    omega

/-- An id that is counted is in use, once. -/
theorem Counted.contains_of_count (h : Counted reserved directory streamIds) {streamId : Bytes}
    (hpos : 0 < reserved.count streamId +
      directory.total fun entry => entry.ctx.ids.count streamId) :
    streamIds.contains streamId = true := by
  have hcount := h streamId
  by_contra hnot
  rw [if_neg hnot] at hcount
  omega

/-- The stream of an id is closed. -/
theorem Counted.close (h : Counted reserved directory streamIds) {id gone : Bytes} {entry : Entry}
    (hfind : directory.find? id = some entry) {session : SessionCtx}
    (hids : ∀ streamId, entry.ctx.ids.count streamId =
      session.ids.count streamId + if gone = streamId then 1 else 0) :
    Counted reserved (directory.insert id { entry with ctx := session }) (streamIds.erase gone) := by
  intro streamId
  have hcount := h streamId
  have hclosed := hids streamId
  rw [OrdMap.total_of_find? _ hfind] at hcount
  rw [OrdMap.total_insert, contains_erase]
  simp only
  by_cases hsame : gone = streamId
  · subst hsame
    simp only [if_true] at hclosed
    simp only [decide_true, Bool.not_true, Bool.false_and, Bool.false_eq_true, if_false]
    split_ifs at hcount <;> omega
  · have hne : decide (streamId = gone) = false := by simpa using Ne.symm hsame
    simp only [if_neg hsame] at hclosed
    simp only [hne, Bool.not_false, Bool.true_and]
    omega

end Counted

/-! ### Draws -/

theorem drawFresh_eq_some {used : Bytes → Bool} {draws : List Bytes} {drawn : Bytes}
    (h : drawFresh used draws = some drawn) : used drawn = false ∧ drawn ≠ [] := by
  induction draws with
  | nil => simp [drawFresh] at h
  | cons head rest ih =>
      rw [drawFresh] at h
      split_ifs at h with hempty hused
      · exact ih h
      · obtain rfl := Option.some.inj h
        exact ⟨by simpa using hused, hempty⟩

theorem Sound.reserveStreamId (h : Sound s) (draws : List Bytes) :
    Sound (s.reserveStreamId draws).2 := by
  unfold StreamableSessionManager.reserveStreamId
  split
  · exact h
  · next drawn hdrawn =>
      obtain ⟨hfresh, hne⟩ := drawFresh_eq_some hdrawn
      refine ⟨h.counted.reserve hfresh, ?_, fun id entry hfind => ?_, h.flushed⟩
      · simpa using ⟨hne, h.nonempty⟩
      · have hold := h.sessions id entry hfind
        exact ⟨hold.named, hold.indexed, hold.queueing⟩

/-- A session that is not there is not being flushed. -/
theorem Sound.targets_eq_nil (h : Sound s) {id : Bytes} (hnone : s.directory.find? id = none) :
    s.targets id = [] := by
  simp only [targets, List.map_eq_nil_iff, List.filter_eq_nil_iff, decide_eq_true_eq]
  rintro flush hflush rfl
  have hsome := h.flushed flush hflush
  simp [hnone] at hsome

theorem Sound.createSession (h : Sound s) (owner : Nat) (principal : Bytes) (draws : List Bytes)
    (now : Int) : Sound (s.createSession owner principal draws now).2 := by
  unfold StreamableSessionManager.createSession
  split
  · exact h
  · next id hdrawn =>
      have hfree : s.directory.find? id = none := by
        simpa [OrdMap.contains] using (drawFresh_eq_some hdrawn).1
      refine ⟨fun streamId => ?_, h.nonempty, fun other entry hfind => ?_, fun flush hflush => ?_⟩
      · have hcount := h.counted streamId
        rw [OrdMap.total_insert, OrdMap.erase_of_find?_eq_none hfree]
        exact hcount
      · simp only [OrdMap.find?_insert] at hfind
        split_ifs at hfind with hsame
        · obtain rfl := Option.some.inj hfind
          refine ⟨hsame ▸ rfl, SessionCtx.indexed_new _ _ _ _, ?_⟩
          have htargets := h.targets_eq_nil hfree
          rw [hsame]
          change SessionCtx.Queueing s.config.pendingLimit (s.targets id) _
          rw [htargets]
          exact SessionCtx.queueing_new _ _ _ _
        · have hold := h.sessions other entry hfind
          exact ⟨hold.named, hold.indexed, hold.queueing⟩
      · rw [OrdMap.find?_insert]
        split_ifs
        · rfl
        · exact h.flushed flush hflush

/-! ### Sessions that stay -/

theorem Sound.onSession (h : Sound s) (id : Bytes) {change : SessionCtx → SessionCtx}
    (hchange : ∀ session, SessionCtx.Reshaped session (change session)) : Sound (s.onSession id change) := by
  unfold StreamableSessionManager.onSession
  split
  · exact h
  · next session hsession =>
      obtain ⟨entry, hfind, rfl⟩ := session?_eq_some hsession
      have hold := h.sessions id entry hfind
      have hreshaped := hchange entry.ctx
      refine h.replace hfind (SessionCtx.ids_reshape hreshaped)
        ⟨?_, hold.indexed.reshape hreshaped, hold.queueing.reshape hreshaped⟩
      obtain ⟨_, _, _, heq⟩ := hreshaped
      rw [heq]
      exact hold.named

theorem Sound.touch (h : Sound s) (id : Bytes) (caller : Nat) (now : Int) :
    Sound (s.touch id caller now).2 := by
  unfold StreamableSessionManager.touch StreamableSessionManager.find
  cases hfind : s.directory.find? id with
  | none => exact h
  | some entry =>
      by_cases howner : entry.owner = caller
      · have hreshaped := SessionCtx.reshaped_of_lastActivity entry.ctx now
        have hold := h.sessions id entry hfind
        simp only [if_pos howner]
        exact h.replace hfind (SessionCtx.ids_reshape hreshaped)
          ⟨hold.named, hold.indexed.reshape hreshaped, hold.queueing.reshape hreshaped⟩
      · simpa [howner] using h

/-- A message that may be sent is, and the manager stays sound. -/
theorem Sound.routeUnsolicited (h : Sound s) (id payload : Bytes)
    (hsafe : s.safe (.routeUnsolicited id payload) = true) :
    ∃ t, s.routeUnsolicited id payload = some t ∧ Sound t := by
  unfold StreamableSessionManager.routeUnsolicited
  cases hsession : s.session? id with
  | none => exact ⟨s, rfl, h⟩
  | some session =>
      obtain ⟨entry, hfind, rfl⟩ := session?_eq_some hsession
      have hold := h.sessions id entry hfind
      have hmay : entry.ctx.currentStream.isSome = true ∨
          entry.ctx.pending.length < s.config.pendingLimit ∨
          (s.config.pendingLimit ≠ 0 ∧ s.targets id = []) := by
        have hnot : s.flushing id = false ↔ s.targets id = [] := by
          rw [Bool.eq_false_iff, ne_eq, flushing_iff, not_not]
        simpa [safe, hsession, or_assoc, hnot] using hsafe
      obtain ⟨went, session', hroute, hqueueing, hindexed, hids, hid⟩ :=
        hold.queueing.route hold.indexed payload hmay
      refine ⟨s.put id session', by simp [hroute], h.replace hfind hids ?_⟩
      exact ⟨hid.trans hold.named, hindexed, hqueueing⟩

/-! ### Streams open and close -/

/-- A flush into one session is none into another. -/
theorem targets_cons_of_ne {id other : Bytes} (hne : other ≠ id) (address : Nat)
    (flushes : List (Bytes × Nat)) :
    { s with flushes := (id, address) :: flushes }.targets other =
      { s with flushes := flushes }.targets other := by
  simp [targets, Ne.symm hne]

theorem Counted.not_mem_of_reserved {reserved : List Bytes} {directory : OrdMap Bytes Entry}
    {streamIds : OrdMap Bytes Unit} (h : Counted reserved directory streamIds) {streamId id : Bytes}
    (hreserved : streamId ∈ reserved) {entry : Entry} (hfind : directory.find? id = some entry) :
    streamId ∉ entry.ctx.ids := by
  intro hmem
  have hcount := h streamId
  have hleft := List.count_pos_iff.mpr hreserved
  have hright := List.count_pos_iff.mpr hmem
  rw [OrdMap.total_of_find? _ hfind] at hcount
  split_ifs at hcount <;> omega

/-- A session takes a stream under a reserved id, and its queue may begin to be flushed. -/
theorem Sound.opening (h : Sound s) {id streamId : Bytes} {entry : Entry}
    (hfind : s.directory.find? id = some entry) (hreserved : streamId ∈ s.reserved)
    {session : SessionCtx} (hids : session.ids = entry.ctx.ids ++ [streamId])
    (hnamed : session.id = id) (hindexed : session.Indexed (s.nextAddress + 1))
    {flushes : List (Bytes × Nat)} (hflushes : flushes = s.flushes ∨
      ∃ address, flushes = (id, address) :: s.flushes)
    (hqueueing : session.Queueing s.config.pendingLimit ({ s with flushes := flushes }.targets id)) :
    Sound { s with
      nextAddress := s.nextAddress + 1
      reserved := s.reserved.erase streamId
      directory := s.directory.insert id { entry with ctx := session }
      flushes := flushes } := by
  refine ⟨h.counted.open hfind hreserved hids, fun hmem => h.nonempty (List.mem_of_mem_erase hmem),
    fun other found hother => ?_, fun flush hflush => ?_⟩
  · simp only [OrdMap.find?_insert] at hother
    split_ifs at hother with hsame
    · obtain rfl := Option.some.inj hother
      subst hsame
      exact ⟨hnamed, hindexed, hqueueing⟩
    · have hold := h.sessions other found hother
      refine ⟨hold.named, hold.indexed.mono (Nat.le_succ _), ?_⟩
      rcases hflushes with rfl | ⟨address, rfl⟩
      · exact hold.queueing
      · have htargets := targets_cons_of_ne (s := s) hsame address s.flushes
        change SessionCtx.Queueing s.config.pendingLimit
          ({ s with flushes := (id, address) :: s.flushes }.targets other) _
        rw [htargets]
        exact hold.queueing
  · rw [OrdMap.find?_insert]
    split_ifs with hsame
    · rfl
    · rcases hflushes with rfl | ⟨address, rfl⟩
      · exact h.flushed flush hflush
      · rcases List.mem_cons.mp hflush with rfl | hold
        · exact absurd rfl hsame
        · exact h.flushed flush hold

/-- The stream added last is found at its address. -/
theorem streamAt_addStream {session : SessionCtx} {next : Nat} (h : session.Indexed next)
    {stream : StreamCtx} (haddress : stream.address = next) (now : Int) :
    (session.addStream stream now).streamAt stream.address = some stream := by
  have hnone : session.streams.find? (fun other => decide (other.address = stream.address)) = none := by
    apply List.find?_eq_none.mpr
    intro other hother
    have hlt := h.below other hother
    simp only [decide_eq_true_eq]
    omega
  rw [SessionCtx.streamAt, SessionCtx.addStream, List.find?_append, hnone, Option.none_or,
    List.find?_cons_of_pos (by simp)]

theorem flushPending_cases (s : StreamableSessionManager) {id : Bytes} {entry : Entry}
    (hfind : s.directory.find? id = some entry) (session : SessionCtx) (stream : StreamCtx) :
    s.flushPending id session stream =
        { s with directory := s.directory.insert id { entry with ctx := session } } ∨
      ∃ front rest, session.pending = front :: rest ∧ stream.live = true ∧
        s.flushPending id session stream =
          { s with
            directory := s.directory.insert id
              { entry with ctx := session.writeToStream stream front true }
            flushes := (id, stream.address) :: s.flushes } := by
  unfold flushPending
  cases hpending : session.pending with
  | nil => exact Or.inl (put_eq hfind session)
  | cons front rest =>
      by_cases hlive : stream.live = true
      · refine Or.inr ⟨front, rest, rfl, hlive, ?_⟩
        simp only [hlive, Bool.not_true, Bool.false_eq_true, if_false, put_eq hfind]
      · exact Or.inl (by simp only [hlive, Bool.not_false, if_true, put_eq hfind])

/-- The first write of a flush into the stream opened last. -/
theorem Sound.openFlushing (h : Sound s) {id : Bytes} {entry : Entry} {now : Int}
    (hfind : s.directory.find? id = some entry) {stream : StreamCtx}
    (haddress : stream.address = s.nextAddress) (hreserved : stream.id ∈ s.reserved)
    (hindexed : (entry.ctx.addStream stream now).Indexed (s.nextAddress + 1))
    (hlive : stream.live = true) (hcalm : s.targets id = []) {front : Message}
    {rest : List Message} (hpending : entry.ctx.pending = front :: rest) :
    Sound { s with
      nextAddress := s.nextAddress + 1
      reserved := s.reserved.erase stream.id
      directory := s.directory.insert id
        { entry with ctx := (entry.ctx.addStream stream now).writeToStream stream front true }
      flushes := (id, stream.address) :: s.flushes } := by
  have hold := h.sessions id entry hfind
  have hqueueing := hold.queueing.addStream stream now
  rw [hcalm] at hqueueing
  have hexchange := SessionCtx.exchange_of_live hindexed
    (List.mem_append_right _ (List.mem_singleton_self _)) hlive
  have hopened : stream.id ∈ (entry.ctx.addStream stream now).opened :=
    List.mem_append_right _ (List.mem_singleton_self _)
  have hbegin := hqueueing.begin hpending (streamAt_addStream hold.indexed haddress now) hexchange
    hopened
  have htargets : { s with flushes := (id, stream.address) :: s.flushes }.targets id =
      [stream.address] := by
    have hrest : s.flushes.filter (fun flush => flush.1 = id) = [] := List.map_eq_nil_iff.mp hcalm
    simp [targets, hrest]
  have hwritten : (entry.ctx.addStream stream now).writeToStream stream front true = _ :=
    SessionCtx.writeToStream_eq hexchange front true
  refine h.opening hfind hreserved ?_ ?_ ?_ (Or.inr ⟨stream.address, rfl⟩) (htargets ▸ hbegin)
  · rw [hwritten]
    simp [SessionCtx.ids, SessionCtx.addStream]
  · rw [hwritten]
    exact hold.named
  · rw [hwritten]
    exact ⟨hindexed.index, hindexed.addresses, hindexed.below, hindexed.named, hindexed.producing⟩

theorem Sound.openStream (h : Sound s) {id streamId : Bytes} {kind : StreamKind}
    {exchange conn : Option Nat} {dispatcher : Nat} {now : Int}
    (hsafe : s.safe (.openStream id streamId kind exchange conn dispatcher now) = true) :
    Sound (s.openStream id streamId kind exchange conn dispatcher now) := by
  simp only [safe, Bool.and_eq_true, Bool.or_eq_true, decide_eq_true_eq, List.contains_iff_mem,
    Bool.not_eq_true', Bool.and_eq_false_iff] at hsafe
  obtain ⟨hid, hcalm⟩ := hsafe
  unfold StreamableSessionManager.openStream
  by_cases hempty : streamId = []
  · rw [if_pos hempty]
    exact h
  rw [if_neg hempty]
  cases hsession : s.session? id with
  | none => exact h
  | some session =>
      obtain ⟨entry, hfind, rfl⟩ := session?_eq_some hsession
      have hreserved : streamId ∈ s.reserved := hid.resolve_left hempty
      have hold := h.sessions id entry hfind
      have hfresh := h.counted.not_mem_of_reserved hreserved hfind
      generalize hstream : s.newStream streamId kind exchange conn dispatcher = stream
      have haddress : stream.address = s.nextAddress := by rw [← hstream, newStream]
      have hname : stream.id = streamId := by rw [← hstream, newStream]
      have hconn : stream.conn = conn := by rw [← hstream, newStream]
      have hexchange : stream.exchange = exchange := by rw [← hstream, newStream]
      have hproducing : stream.producing = exchange.isSome := by rw [← hstream, newStream]
      subst hname
      have hindexed : (entry.ctx.addStream stream now).Indexed (s.nextAddress + 1) :=
        hold.indexed.addStream haddress hempty hfresh (by simp [hproducing, hexchange]) now
      have hids : (entry.ctx.addStream stream now).ids = entry.ctx.ids ++ [stream.id] := by
        simp [SessionCtx.ids, SessionCtx.addStream]
      have hquiet := h.opening hfind hreserved hids hold.named hindexed (Or.inl rfl)
        (hold.queueing.addStream stream now)
      cases kind with
      | postResponse =>
          have heq := put_eq (s := { s with
            nextAddress := s.nextAddress + 1, reserved := s.reserved.erase stream.id }) hfind
          simp only [heq]
          exact hquiet
      | get =>
          rcases flushPending_cases { s with
            nextAddress := s.nextAddress + 1, reserved := s.reserved.erase stream.id } hfind
            (entry.ctx.addStream stream now) stream with heq | ⟨front, rest, hpending, hlive, heq⟩
          · simp only [heq]
            exact hquiet
          · have hflushing : s.targets id = [] := by
              have hparts := hlive
              simp only [StreamCtx.live, StreamCtx.isOpen, hconn, hproducing,
                Bool.and_eq_true] at hparts
              have hnot : s.flushing id = false := by simpa [hparts] using hcalm
              by_contra hne
              rw [(flushing_iff s id).mpr hne] at hnot
              exact Bool.noConfusion hnot
            simp only [heq]
            exact h.openFlushing hfind haddress hreserved hindexed hlive hflushing hpending

theorem releaseStreamId_eq {streamId : Bytes} (hne : streamId ≠ []) :
    s.releaseStreamId streamId = { s with streamIds := s.streamIds.erase streamId } := by
  rw [releaseStreamId, if_neg hne]

theorem Sound.closeStream (h : Sound s) (id : Bytes) (address : Nat)
    (hsafe : address ∉ s.targets id) : Sound (s.closeStream id address) := by
  unfold StreamableSessionManager.closeStream
  cases hsession : s.session? id with
  | none => exact h
  | some session =>
      obtain ⟨entry, hfind, rfl⟩ := session?_eq_some hsession
      have hold := h.sessions id entry hfind
      cases hstream : entry.ctx.streamAt address with
      | none => simpa [hstream] using h
      | some stream =>
          have hmem : stream ∈ entry.ctx.streams := List.mem_of_find?_eq_some hstream
          simp only [hstream]
          rw [releaseStreamId_eq (hold.indexed.named stream hmem).1, put_eq hfind]
          refine ⟨h.counted.close hfind fun streamId => SessionCtx.ids_dropStream hstream streamId,
            h.nonempty, fun other found hother => ?_, fun flush hflush => ?_⟩
          · simp only [OrdMap.find?_insert] at hother
            split_ifs at hother with hsame
            · obtain rfl := Option.some.inj hother
              subst hsame
              exact ⟨hold.named,
                hold.indexed.dropStream hstream (h.counted.nodup_ids hfind),
                hold.queueing.dropStream hstream hsafe⟩
            · have hother' := h.sessions other found hother
              exact ⟨hother'.named, hother'.indexed, hother'.queueing⟩
          · rw [OrdMap.find?_insert]
            split_ifs
            · rfl
            · exact h.flushed flush hflush

/-! ### Flushing -/

/-- The innermost flush ends with its session changed. -/
theorem Sound.endFlush (h : Sound s) {id : Bytes} {address : Nat} {outer : List (Bytes × Nat)}
    (hflushes : s.flushes = (id, address) :: outer) {entry : Entry}
    (hfind : s.directory.find? id = some entry) {session : SessionCtx}
    (hids : session.ids = entry.ctx.ids)
    (hsettled : { s with flushes := outer }.Settled id session) :
    Sound { s with
      directory := s.directory.insert id { entry with ctx := session }, flushes := outer } := by
  refine ⟨h.counted.replace hfind hids, h.nonempty, fun other found hother => ?_, fun flush hflush => ?_⟩
  · simp only [OrdMap.find?_insert] at hother
    split_ifs at hother with hsame
    · obtain rfl := Option.some.inj hother
      subst hsame
      exact ⟨hsettled.named, hsettled.indexed, hsettled.queueing⟩
    · have hold := h.sessions other found hother
      have hqueueing := hold.queueing
      have htargets : s.targets other = { s with flushes := outer }.targets other := by
        rw [← targets_cons_of_ne hsame address outer]
        simp [targets, hflushes]
      rw [htargets] at hqueueing
      exact ⟨hold.named, hold.indexed, hqueueing⟩
  · rw [OrdMap.find?_insert]
    split_ifs
    · rfl
    · exact h.flushed flush (hflushes ▸ List.mem_cons_of_mem _ hflush)

/-- A write of a flush returns, and the manager stays sound. -/
theorem Sound.flushed_step (h : Sound s) : ∃ t, s.flushed = some t ∧ Sound t := by
  unfold StreamableSessionManager.flushed
  cases hflushes : s.flushes with
  | nil => exact ⟨s, rfl, h⟩
  | cons flush outer =>
      obtain ⟨id, address⟩ := flush
      obtain ⟨entry, hfind⟩ := Option.isSome_iff_exists.mp
        (h.flushed (id, address) (by rw [hflushes]; exact List.mem_cons_self))
      have hsession : s.session? id = some entry.ctx := by simp [session?, hfind]
      have hold := h.sessions id entry hfind
      have hqueueing := hold.queueing
      have htargets : s.targets id = address :: { s with flushes := outer }.targets id := by
        simp [targets, hflushes]
      have houter : { s with flushes := outer }.targets id = [] := by
        have hsingle := hqueueing.single
        rw [htargets, List.length_cons] at hsingle
        exact List.length_eq_zero_iff.mp (by omega)
      rw [htargets, houter] at hqueueing
      simp only [hsession]
      cases hpending : entry.ctx.pending with
      | nil => exact absurd hpending (hqueueing.ready (List.cons_ne_nil _ _))
      | cons done rest =>
          cases rest with
          | nil =>
              refine ⟨_, rfl, ?_⟩
              have hended := hqueueing.end hpending
              rw [← houter] at hended
              have heq := put_eq (s := { s with flushes := outer }) hfind
                { entry.ctx with pending := [] }
              rw [heq]
              exact h.endFlush hflushes hfind rfl ⟨hold.named, ⟨hold.indexed.index,
                hold.indexed.addresses, hold.indexed.below, hold.indexed.named,
                hold.indexed.producing⟩, hended⟩
          | cons front rest =>
              obtain ⟨stream, hstream, hexchange⟩ :=
                hqueueing.target address (List.mem_singleton_self _)
              have hmem : stream ∈ entry.ctx.streams := List.mem_of_find?_eq_some hstream
              have hnext := hqueueing.next hpending hstream (hold.indexed.named stream hmem).2
              rw [← houter, ← htargets] at hnext
              have hwritten : SessionCtx.writeToStream { entry.ctx with pending := front :: rest }
                stream front true = _ := SessionCtx.writeToStream_eq hexchange front true
              simp only [hstream]
              refine ⟨_, rfl, h.replace hfind ?_ ⟨?_, ?_, hnext⟩⟩
              · rw [hwritten]
                rfl
              · rw [hwritten]
                exact hold.named
              · rw [hwritten]
                exact ⟨hold.indexed.index, hold.indexed.addresses, hold.indexed.below,
                  hold.indexed.named, hold.indexed.producing⟩

/-! ### Removing sessions -/

/-- Closing every stream gives up their ids, and nothing else. -/
theorem closeAll_eq (s : StreamableSessionManager) {session : SessionCtx}
    (hne : ∀ stream ∈ session.streams, stream.id ≠ []) :
    ∃ streamIds, s.closeAll session = { s with streamIds := streamIds } ∧
      ∀ streamId, streamIds.contains streamId =
        (s.streamIds.contains streamId && !decide (streamId ∈ session.ids)) := by
  have hfold (streams : List StreamCtx) (hnonempty : ∀ stream ∈ streams, stream.id ≠ [])
      (s : StreamableSessionManager) :
      ∃ streamIds, streams.foldl (fun s stream => s.releaseStreamId stream.id) s =
          { s with streamIds := streamIds } ∧
        ∀ streamId, streamIds.contains streamId =
          (s.streamIds.contains streamId && !decide (streamId ∈ streams.map StreamCtx.id)) := by
    induction streams generalizing s with
    | nil => exact ⟨s.streamIds, rfl, by simp⟩
    | cons stream rest ih =>
        obtain ⟨streamIds, heq, hcontains⟩ :=
          ih (fun other hother => hnonempty other (List.mem_cons_of_mem _ hother))
            { s with streamIds := s.streamIds.erase stream.id }
        refine ⟨streamIds, ?_, fun streamId => ?_⟩
        · rw [List.foldl_cons, releaseStreamId_eq (hnonempty stream List.mem_cons_self), heq]
        · rw [hcontains, contains_erase, List.map_cons]
          by_cases hsame : streamId = stream.id <;> simp [hsame]
  obtain ⟨streamIds, heq, hcontains⟩ := hfold session.streams.reverse
    (fun stream hstream => hne stream (List.mem_reverse.mp hstream)) s
  refine ⟨streamIds, heq, fun streamId => ?_⟩
  rw [hcontains, List.map_reverse]
  simp [SessionCtx.ids]

/-- **What removal does**: the session and its ids go, and nothing else changes. -/
theorem Sound.removeOwned_eq (h : Sound s) {id : Bytes} {entry : Entry}
    (hfind : s.directory.find? id = some entry) :
    ∃ streamIds, (s.removeOwned id entry.owner).2 =
        { s with
          directory := s.directory.erase id
          streamIds := streamIds
          removed := s.removed ++ [id] } ∧
      ∀ streamId, streamIds.contains streamId =
        (s.streamIds.contains streamId && !decide (streamId ∈ entry.ctx.ids)) := by
  obtain ⟨streamIds, heq, hcontains⟩ := closeAll_eq { s with directory := s.directory.erase id }
    fun stream hstream => ((h.sessions id entry hfind).indexed.named stream hstream).1
  refine ⟨streamIds, ?_, hcontains⟩
  simp only [removeOwned, hfind, if_true, heq]

theorem Counted.remove {reserved : List Bytes} {directory : OrdMap Bytes Entry}
    {streamIds left : OrdMap Bytes Unit} (h : Counted reserved directory streamIds) {id : Bytes}
    {entry : Entry} (hfind : directory.find? id = some entry)
    (hleft : ∀ streamId, left.contains streamId =
      (streamIds.contains streamId && !decide (streamId ∈ entry.ctx.ids))) :
    Counted reserved (directory.erase id) left := by
  intro streamId
  have hcount := h streamId
  rw [OrdMap.total_of_find? _ hfind] at hcount
  rw [hleft]
  by_cases hmem : streamId ∈ entry.ctx.ids
  · have hpos := List.count_pos_iff.mpr hmem
    simp only [hmem, decide_true, Bool.not_true, Bool.and_false, Bool.false_eq_true, if_false]
    split_ifs at hcount <;> omega
  · have hzero : entry.ctx.ids.count streamId = 0 := List.count_eq_zero.mpr hmem
    simp only [hmem, decide_false, Bool.not_false, Bool.and_true]
    omega

theorem Sound.removeOwned (h : Sound s) (id : Bytes) (caller : Nat)
    (hcalm : s.flushing id = false) : Sound (s.removeOwned id caller).2 := by
  cases hfind : s.directory.find? id with
  | none => simpa [StreamableSessionManager.removeOwned, hfind] using h
  | some entry =>
      by_cases howner : entry.owner = caller
      · subst howner
        obtain ⟨streamIds, heq, hcontains⟩ := h.removeOwned_eq hfind
        rw [heq]
        refine ⟨h.counted.remove hfind hcontains, h.nonempty, fun other found hother => ?_,
          fun flush hflush => ?_⟩
        · simp only [OrdMap.find?_erase] at hother
          split_ifs at hother with hsame
          have hold := h.sessions other found hother
          exact ⟨hold.named, hold.indexed, hold.queueing⟩
        · have hne : flush.1 ≠ id := by
            have hnone := List.any_eq_false.mp hcalm flush hflush
            simpa using hnone
          rw [OrdMap.find?_erase_of_ne _ hne]
          exact h.flushed flush hflush
      · simpa [StreamableSessionManager.removeOwned, hfind, howner] using h

/-! ### Sweeping -/

/-- Sound, and no flush under way. -/
def Calm (s : StreamableSessionManager) : Prop := Sound s ∧ s.flushes = []

theorem Calm.closeStream (h : Calm s) (id : Bytes) (address : Nat) :
    Calm (s.closeStream id address) := by
  refine ⟨h.1.closeStream id address (by simp [targets, h.2]), ?_⟩
  unfold StreamableSessionManager.closeStream releaseStreamId put
  split
  · exact h.2
  · split
    · exact h.2
    · split_ifs <;> split <;> exact h.2

theorem flushes_put (s : StreamableSessionManager) (id : Bytes) (session : SessionCtx) :
    (s.put id session).flushes = s.flushes := by
  unfold put
  split <;> rfl

theorem Calm.retireStreams (h : Calm s) (now : Int) (id : Bytes) :
    Calm (s.retireStreams now id) := by
  unfold StreamableSessionManager.retireStreams
  by_cases hkept : s.config.closedStreamRetention ≤ 0
  · rw [if_pos hkept]
    exact h
  rw [if_neg hkept]
  cases hsession : s.session? id with
  | none => exact h
  | some session =>
      have hwound := h.1.onSession id fun session =>
        SessionCtx.reshaped_windStreams session s.config.closedStreamRetention now
      simp only [onSession, hsession] at hwound
      have hkeeps (t : StreamableSessionManager) (address : Nat) (ht : Calm t) :
          Calm (t.closeStream id address) := ht.closeStream id address
      have hcalm : Calm (s.put id { session with
          streams := session.streams.map (SessionCtx.windStream s.config.closedStreamRetention now) }) :=
        ⟨hwound, (flushes_put _ _ _).trans h.2⟩
      exact Runs.invariant_of_every_step
        (fun (t : StreamableSessionManager) address => t.closeStream id address) hkeeps hcalm _

theorem Calm.removeOwned (h : Calm s) (id : Bytes) (caller : Nat) :
    Calm (s.removeOwned id caller).2 := by
  refine ⟨h.1.removeOwned id caller (by simp [flushing, h.2]), ?_⟩
  cases hfind : s.directory.find? id with
  | none => simpa [StreamableSessionManager.removeOwned, hfind] using h.2
  | some entry =>
      by_cases howner : entry.owner = caller
      · subst howner
        obtain ⟨streamIds, heq, -⟩ := h.1.removeOwned_eq hfind
        rw [heq]
        exact h.2
      · simpa [StreamableSessionManager.removeOwned, hfind, howner] using h.2

theorem Calm.sweepFor (h : Calm s) (owner : Nat) (now : Int) : Calm (s.sweepFor owner now) := by
  have hretires (t : StreamableSessionManager) (id : Bytes) (ht : Calm t) :
      Calm (t.retireStreams now id) := ht.retireStreams now id
  have hremoves (t : StreamableSessionManager) (id : Bytes) (ht : Calm t) :
      Calm (t.removeOwned id owner).2 := ht.removeOwned id owner
  have hretired := Runs.invariant_of_every_step (fun t id => t.retireStreams now id) hretires h
    (s.ownedBy owner)
  exact Runs.invariant_of_every_step (fun t id => (t.removeOwned id owner).2) hremoves hretired _

/-! ### Runs -/

/-- **A safe operation goes wrong nowhere and keeps the invariant.** -/
theorem Sound.step (h : Sound s) (operation : Operation) (hsafe : s.safe operation = true) :
    ∃ t, s.step operation = some t ∧ Sound t := by
  cases operation with
  | createSession owner principal draws now =>
      exact ⟨_, rfl, h.createSession owner principal draws now⟩
  | touch id caller now => exact ⟨_, rfl, h.touch id caller now⟩
  | remove id caller => exact ⟨_, rfl, h.removeOwned id caller (by simpa [safe] using hsafe)⟩
  | reserveStreamId draws => exact ⟨_, rfl, h.reserveStreamId draws⟩
  | openStream id streamId kind exchange conn dispatcher now =>
      exact ⟨_, rfl, h.openStream hsafe⟩
  | closeStream id address =>
      refine ⟨_, rfl, h.closeStream id address fun hmem => ?_⟩
      obtain ⟨flush, hflush, rfl⟩ := List.mem_map.mp hmem
      obtain ⟨hin, hid⟩ := List.mem_filter.mp hflush
      obtain rfl : flush.1 = id := by simpa using hid
      simp [safe, hin] at hsafe
  | endStream id address now =>
      exact ⟨_, rfl, h.onSession id fun session => SessionCtx.reshaped_endStream session address now⟩
  | routeUnsolicited id payload => exact h.routeUnsolicited id payload hsafe
  | detachConnection id conn now =>
      exact ⟨_, rfl, h.onSession id fun session =>
        SessionCtx.reshaped_detachConnection session conn now⟩
  | finishStream id streamId now =>
      exact ⟨_, rfl, h.onSession id fun session =>
        SessionCtx.reshaped_finishStream session streamId now⟩
  | resumeFrom id lastEventId => exact ⟨s, rfl, h⟩
  | sweepFor owner now =>
      have hcalm : Calm s := ⟨h, by simpa [safe] using hsafe⟩
      exact ⟨_, rfl, (hcalm.sweepFor owner now).1⟩
  | flushed => exact h.flushed_step

/-- What is promised of the manager in every state. -/
structure Promises (s : StreamableSessionManager) : Prop where
  inUse : ∀ streamId, s.streamIds.contains streamId = true ↔ streamId ∈ s.reserved ∨
    ∃ id session, s.session? id = some session ∧ (session.streamIndex.find? streamId).isSome = true
  index : ∀ id session, s.session? id = some session → ∀ streamId address,
    session.streamIndex.find? streamId = some address ↔
      ∃ stream ∈ session.streams, stream.id = streamId ∧ stream.address = address
  apart : ∀ id id' session session' streamId, s.session? id = some session →
    s.session? id' = some session' → streamId ∈ session.ids → streamId ∈ session'.ids → id = id'
  unopened : ∀ streamId ∈ s.reserved, ∀ id session, s.session? id = some session →
    streamId ∉ session.ids
  bounded : ∀ id session, s.session? id = some session →
    session.pending.length ≤ s.config.pendingLimit
  accepted : ∀ id session, s.session? id = some session → ∀ number,
    session.out.count number + (session.waiting (s.flushing id)).count number +
      (session.dropped.map Message.number).count number = if number < session.accepted then 1 else 0
  inOrder : ∀ id session, s.session? id = some session →
    (session.queuedOut ++ session.waiting (s.flushing id)).Pairwise (· < ·)
  toStreams : ∀ id session, s.session? id = some session →
    ∀ write ∈ session.written, write.stream ∈ session.opened
  removal : ∀ id entry, s.directory.find? id = some entry →
    ∃ t, s.step (.remove id entry.owner) = some t ∧ t.reserved = s.reserved ∧
      (∀ streamId, t.streamIds.contains streamId =
        (s.streamIds.contains streamId && !decide (streamId ∈ entry.ctx.ids))) ∧
      ∀ other, t.directory.find? other = if other = id then none else s.directory.find? other

theorem flushing_eq (s : StreamableSessionManager) (id : Bytes) :
    (!(s.targets id).isEmpty) = s.flushing id := by
  rw [Bool.eq_iff_iff, flushing_iff]
  simp

/-- An id of a stream is found in the index of its session. -/
theorem isSome_streamIndex_iff {session : SessionCtx} {next : Nat} (h : session.Indexed next)
    (streamId : Bytes) :
    (session.streamIndex.find? streamId).isSome = true ↔ streamId ∈ session.ids := by
  rw [Option.isSome_iff_exists, SessionCtx.ids, List.mem_map]
  constructor
  · rintro ⟨address, haddress⟩
    obtain ⟨stream, hstream, hid, -⟩ := (h.index streamId address).mp haddress
    exact ⟨stream, hstream, hid⟩
  · rintro ⟨stream, hstream, hid⟩
    exact ⟨stream.address, (h.index streamId _).mpr ⟨stream, hstream, hid, rfl⟩⟩

/-- Something weighs something if anything does. -/
theorem exists_of_total_pos {directory : OrdMap Bytes Entry} {streamId : Bytes}
    (hpos : 0 < directory.total fun entry => entry.ctx.ids.count streamId) :
    ∃ id entry, directory.find? id = some entry ∧ streamId ∈ entry.ctx.ids := by
  by_contra hnone
  push Not at hnone
  have hzero : directory.total (fun entry => entry.ctx.ids.count streamId) = 0 := by
    apply List.sum_eq_zero
    intro weight hweight
    obtain ⟨entry, hentry, rfl⟩ := List.mem_map.mp hweight
    obtain ⟨id, hfind⟩ := (OrdMap.mem_values_iff directory).mp hentry
    exact List.count_eq_zero.mpr (hnone id entry hfind)
  omega

theorem Sound.promises (h : Sound s) : Promises s where
  inUse streamId := by
    constructor
    · intro hin
      have hcount := h.counted streamId
      rw [if_pos hin] at hcount
      by_cases hreserved : streamId ∈ s.reserved
      · exact Or.inl hreserved
      · rw [List.count_eq_zero.mpr hreserved] at hcount
        obtain ⟨id, entry, hfind, hmem⟩ := exists_of_total_pos
          (show 0 < s.directory.total fun entry => entry.ctx.ids.count streamId by omega)
        exact Or.inr ⟨id, entry.ctx, by simp [session?, hfind],
          (isSome_streamIndex_iff (h.sessions id entry hfind).indexed streamId).mpr hmem⟩
    · rintro (hreserved | ⟨id, session, hsession, hindex⟩)
      · exact h.counted.contains_of_count
          (Nat.add_pos_left (List.count_pos_iff.mpr hreserved) _)
      · obtain ⟨entry, hfind, rfl⟩ := session?_eq_some hsession
        have hmem := (isSome_streamIndex_iff (h.sessions id entry hfind).indexed streamId).mp hindex
        have hpos := List.count_pos_iff.mpr hmem
        refine h.counted.contains_of_count (Nat.add_pos_right _ ?_)
        rw [OrdMap.total_of_find? _ hfind]
        omega
  index id session hsession := by
    obtain ⟨entry, hfind, rfl⟩ := session?_eq_some hsession
    exact (h.sessions id entry hfind).indexed.index
  apart id id' session session' streamId hsession hsession' hmem hmem' := by
    obtain ⟨entry, hfind, rfl⟩ := session?_eq_some hsession
    obtain ⟨entry', hfind', rfl⟩ := session?_eq_some hsession'
    by_contra hne
    have hcount := h.counted streamId
    have hother : (s.directory.erase id).find? id' = some entry' := by
      rw [OrdMap.find?_erase_of_ne _ (Ne.symm hne), hfind']
    have hpos := List.count_pos_iff.mpr hmem
    have hpos' := List.count_pos_iff.mpr hmem'
    rw [OrdMap.total_of_find? _ hfind, OrdMap.total_of_find? _ hother] at hcount
    split_ifs at hcount <;> omega
  unopened streamId hreserved id session hsession := by
    obtain ⟨entry, hfind, rfl⟩ := session?_eq_some hsession
    exact h.counted.not_mem_of_reserved hreserved hfind
  bounded id session hsession := by
    obtain ⟨entry, hfind, rfl⟩ := session?_eq_some hsession
    exact (h.sessions id entry hfind).queueing.bounded
  accepted id session hsession := by
    obtain ⟨entry, hfind, rfl⟩ := session?_eq_some hsession
    rw [← flushing_eq]
    exact (h.sessions id entry hfind).queueing.numbers.counted
  inOrder id session hsession := by
    obtain ⟨entry, hfind, rfl⟩ := session?_eq_some hsession
    rw [← flushing_eq]
    exact (h.sessions id entry hfind).queueing.numbers.inOrder
  toStreams id session hsession := by
    obtain ⟨entry, hfind, rfl⟩ := session?_eq_some hsession
    exact (h.sessions id entry hfind).queueing.toStreams
  removal id entry hfind := by
    obtain ⟨streamIds, heq, hcontains⟩ := h.removeOwned_eq hfind
    refine ⟨_, congrArg some heq, rfl, hcontains, fun other => ?_⟩
    by_cases hother : other = id
    · simp [hother]
    · simp [hother, OrdMap.find?_erase_of_ne]

end StreamableSessionManager

end GopherMcp
