import GopherMcp.Lib.NumberedQueue
import GopherMcp.Transport.SessionManager

/-!
# What holds of every session

A session's index leads to its streams and to nothing else; its messages are shared out between what
was written, what waits and what was dropped; and the ids in use anywhere are those reserved and those
of open streams, each counted once. An operation changes one session, so the invariant has a part for
each session and a part that counts.
-/

namespace GopherMcp

/-! ### One session -/

namespace SessionCtx

variable {session : SessionCtx}

/-- The messages that wait: while a flush is under way, its front is out already. -/
def waiting (session : SessionCtx) (flushing : Bool) : List Nat :=
  (if flushing then session.pending.tail else session.pending).map Message.number

def out (session : SessionCtx) : List Nat := session.written.map fun write => write.message.number

def queuedOut (session : SessionCtx) : List Nat :=
  (session.written.filter Written.queued).map fun write => write.message.number

/-- The index and the streams say the same. -/
structure Indexed (next : Nat) (session : SessionCtx) : Prop where
  index : ∀ streamId address, session.streamIndex.find? streamId = some address ↔
    ∃ stream ∈ session.streams, stream.id = streamId ∧ stream.address = address
  addresses : (session.streams.map StreamCtx.address).Pairwise (· < ·)
  below : ∀ stream ∈ session.streams, stream.address < next
  named : ∀ stream ∈ session.streams, stream.id ≠ [] ∧ stream.id ∈ session.opened
  producing : ∀ stream ∈ session.streams, stream.producing = true → stream.exchange.isSome = true

/-- `targets` are the streams the session's queue is being flushed into. -/
structure Queueing (limit : Nat) (targets : List Nat) (session : SessionCtx) : Prop where
  bounded : session.pending.length ≤ limit
  single : targets.length ≤ 1
  ready : targets ≠ [] → session.pending ≠ []
  target : ∀ address ∈ targets, ∃ stream, session.streamAt address = some stream ∧
    stream.exchange.isSome = true
  numbers : NumberedQueue session.out session.queuedOut (session.waiting (!targets.isEmpty))
    (session.dropped.map Message.number) session.accepted
  droppedCount : session.pendingDropped = session.dropped.length
  toStreams : ∀ write ∈ session.written, write.stream ∈ session.opened

theorem indexed_new (id principal : Bytes) (now : Int) (next : Nat) :
    Indexed next (new id principal now) where
  index := by simp [new]
  addresses := by simp [new]
  below := by simp [new]
  named := by simp [new]
  producing := by simp [new]

theorem queueing_new (id principal : Bytes) (now : Int) (limit : Nat) :
    Queueing limit [] (new id principal now) where
  bounded := Nat.zero_le _
  single := Nat.zero_le _
  ready h := absurd rfl h
  target := by simp
  numbers := NumberedQueue.empty
  droppedCount := rfl
  toStreams := by simp [new]

theorem Indexed.mono {next next' : Nat} (h : Indexed next session) (hle : next ≤ next') :
    Indexed next' session :=
  ⟨h.index, h.addresses, fun stream hstream => (h.below stream hstream).trans_le hle, h.named,
    h.producing⟩

/-! ### Streams come and go -/

theorem Indexed.addStream {next : Nat} (h : Indexed next session) {stream : StreamCtx}
    (haddress : stream.address = next) (hid : stream.id ≠ []) (hfresh : stream.id ∉ session.ids)
    (hproducing : stream.producing = true → stream.exchange.isSome = true) (now : Int) :
    Indexed (next + 1) (session.addStream stream now) where
  index streamId address := by
    simp only [SessionCtx.addStream, OrdMap.find?_insert, List.mem_append, List.mem_singleton]
    split_ifs with hsame
    · subst hsame
      constructor
      · intro haddr
        exact ⟨stream, Or.inr rfl, rfl, Option.some.inj haddr⟩
      · rintro ⟨other, hold | rfl, hname, haddr⟩
        · exact absurd (List.mem_map.mpr ⟨other, hold, hname⟩) hfresh
        · rw [haddr]
    · rw [h.index]
      constructor
      · rintro ⟨other, hold, hother⟩
        exact ⟨other, Or.inl hold, hother⟩
      · rintro ⟨other, hold | rfl, hname, haddr⟩
        · exact ⟨other, hold, hname, haddr⟩
        · exact absurd hname.symm hsame
  addresses := by
    simp only [SessionCtx.addStream, List.map_append, List.map_cons, List.map_nil]
    refine List.pairwise_append.mpr ⟨h.addresses, List.pairwise_singleton _ _, fun a ha b hb => ?_⟩
    obtain ⟨other, hother, rfl⟩ := List.mem_map.mp ha
    rw [List.mem_singleton.mp hb, haddress]
    exact h.below other hother
  below other hother := by
    rcases List.mem_append.mp hother with hold | hnew
    · exact (h.below other hold).trans (Nat.lt_succ_self _)
    · rw [List.mem_singleton.mp hnew, haddress]
      exact Nat.lt_succ_self _
  named other hother := by
    rcases List.mem_append.mp hother with hold | hnew
    · exact ⟨(h.named other hold).1, List.mem_append_left _ (h.named other hold).2⟩
    · rw [List.mem_singleton.mp hnew]
      exact ⟨hid, List.mem_append_right _ (List.mem_singleton_self _)⟩
  producing other hother := by
    rcases List.mem_append.mp hother with hold | hnew
    · exact h.producing other hold
    · rw [List.mem_singleton.mp hnew]
      exact hproducing

/-- A stream found at an address stands at one place among the others. -/
theorem streamAt_split {address : Nat} {stream : StreamCtx}
    (hfind : session.streamAt address = some stream) :
    stream.address = address ∧ ∃ before after, session.streams = before ++ stream :: after ∧
      (session.dropStream stream).streams = before ++ after := by
  obtain ⟨haddress, before, after, hsplit, hbefore⟩ := List.find?_eq_some_iff_append.mp hfind
  have heq : stream.address = address := by simpa using haddress
  refine ⟨heq, before, after, hsplit, ?_⟩
  have hnone : ∀ other ∈ before, ¬ decide (other.address = stream.address) = true := by
    intro other hother
    simpa [heq] using hbefore other hother
  rw [dropStream, hsplit, List.eraseP_append_right _ hnone, List.eraseP_cons_of_pos (by simp)]

theorem Indexed.dropStream {next address : Nat} (h : Indexed next session) {stream : StreamCtx}
    (hfind : session.streamAt address = some stream) (hids : session.ids.Nodup) :
    Indexed next (session.dropStream stream) := by
  obtain ⟨-, before, after, hsplit, hleft⟩ := streamAt_split hfind
  have hmem (other : StreamCtx) (hother : other ∈ (session.dropStream stream).streams) :
      other ∈ session.streams := by
    rw [hleft] at hother
    rw [hsplit]
    rcases List.mem_append.mp hother with hb | ha
    · exact List.mem_append_left _ hb
    · exact List.mem_append_right _ (List.mem_cons_of_mem _ ha)
  refine ⟨fun streamId other => ?_, ?_, fun other hother => h.below other (hmem other hother),
    fun other hother => h.named other (hmem other hother),
    fun other hother => h.producing other (hmem other hother)⟩
  · simp only [SessionCtx.dropStream, OrdMap.find?_erase]
    split_ifs with hsame
    · subst hsame
      simp only [false_iff, not_exists, not_and]
      intro found hfound hname
      rw [ids, hsplit, List.map_append, List.map_cons, List.nodup_middle, List.nodup_cons] at hids
      refine absurd ?_ hids.1
      rw [← List.map_append, ← hname]
      exact List.mem_map_of_mem (hleft ▸ hfound)
    · rw [h.index]
      constructor
      · rintro ⟨found, hfound, hname, haddr⟩
        refine ⟨found, ?_, hname, haddr⟩
        change found ∈ (session.dropStream stream).streams
        rw [hsplit] at hfound
        rw [hleft]
        rcases List.mem_append.mp hfound with hb | ha
        · exact List.mem_append_left _ hb
        · rcases List.mem_cons.mp ha with rfl | ha
          · exact absurd hname.symm hsame
          · exact List.mem_append_right _ ha
      · rintro ⟨found, hfound, hfinds⟩
        exact ⟨found, hmem found hfound, hfinds⟩
  · have hsub : List.Sublist (session.dropStream stream).streams session.streams :=
      List.eraseP_sublist
    exact h.addresses.sublist (hsub.map _)

theorem ids_dropStream {address : Nat} {stream : StreamCtx}
    (hfind : session.streamAt address = some stream) (streamId : Bytes) :
    session.ids.count streamId =
      (session.dropStream stream).ids.count streamId + if stream.id = streamId then 1 else 0 := by
  obtain ⟨-, before, after, hsplit, hleft⟩ := streamAt_split hfind
  rw [ids, ids, hsplit, hleft, List.map_append, List.map_append, List.map_cons, List.count_append,
    List.count_append, List.count_cons]
  simp only [beq_iff_eq]
  omega

theorem streamAt_dropStream {address other : Nat} {stream : StreamCtx}
    (hfind : session.streamAt address = some stream) (hne : other ≠ address) :
    (session.dropStream stream).streamAt other = session.streamAt other := by
  obtain ⟨haddress, before, after, hsplit, hleft⟩ := streamAt_split hfind
  rw [streamAt, streamAt, hleft, hsplit, List.find?_append, List.find?_append, List.find?_cons_of_neg]
  simpa [haddress] using hne.symm

/-- Streams change in what they forget and in whether they go on, and the time of last use changes. -/
def Reshaped (session session' : SessionCtx) : Prop :=
  ∃ (change : StreamCtx → StreamCtx) (now : Int),
    (∀ stream, (change stream).id = stream.id ∧ (change stream).address = stream.address ∧
      (change stream).exchange = stream.exchange ∧
      ((change stream).producing = true → stream.producing = true)) ∧
    session' = { session with streams := session.streams.map change, lastActivity := now }

theorem reshaped_of_lastActivity (session : SessionCtx) (now : Int) :
    Reshaped session { session with lastActivity := now } :=
  ⟨fun stream => stream, now, fun _ => ⟨rfl, rfl, rfl, fun h => h⟩, by rw [List.map_id']⟩

theorem Reshaped.refl (session : SessionCtx) : Reshaped session session :=
  reshaped_of_lastActivity session session.lastActivity

theorem reshaped_modifyStream (session : SessionCtx) (address : Nat) (now : Int)
    {change : StreamCtx → StreamCtx}
    (hchange : ∀ stream, (change stream).id = stream.id ∧ (change stream).address = stream.address ∧
      (change stream).exchange = stream.exchange ∧ (change stream).producing = false) :
    Reshaped session { session.modifyStream address change with lastActivity := now } := by
  refine ⟨_, now, fun stream => ?_, rfl⟩
  obtain ⟨hid, haddress, hexchange, hproducing⟩ := hchange stream
  split_ifs
  · exact ⟨hid, haddress, hexchange, fun h => by simp [hproducing] at h⟩
  · exact ⟨rfl, rfl, rfl, fun h => h⟩

theorem reshaped_endStream (session : SessionCtx) (address : Nat) (now : Int) :
    Reshaped session (session.endStream address now).2 := by
  unfold endStream
  split
  · exact Reshaped.refl session
  · split_ifs
    · exact Reshaped.refl session
    · exact reshaped_modifyStream session address now fun _ => ⟨rfl, rfl, rfl, rfl⟩

theorem reshaped_finishStream (session : SessionCtx) (streamId : Bytes) (now : Int) :
    Reshaped session (session.finishStream streamId now).2 := by
  unfold finishStream
  split
  · exact Reshaped.refl session
  · next stream _ =>
      split_ifs
      · exact Reshaped.refl session
      · exact reshaped_modifyStream session stream.address now fun _ => ⟨rfl, rfl, rfl, rfl⟩

theorem reshaped_detachConnection (session : SessionCtx) (conn : Option Nat) (now : Int) :
    Reshaped session (session.detachConnection conn now) := by
  unfold detachConnection
  by_cases hconn : conn = none
  · rw [if_pos hconn]
    exact Reshaped.refl session
  · rw [if_neg hconn]
    refine ⟨_, _, fun stream => ?_, rfl⟩
    split_ifs <;> exact ⟨rfl, rfl, rfl, fun h => h⟩

theorem reshaped_windStreams (session : SessionCtx) (retention now : Int) :
    Reshaped session { session with streams := session.streams.map (windStream retention now) } := by
  refine ⟨windStream retention now, session.lastActivity, fun stream => ?_, rfl⟩
  unfold windStream
  split_ifs <;> exact ⟨rfl, rfl, rfl, fun h => h⟩

theorem Indexed.reshape {next : Nat} {session' : SessionCtx} (h : Indexed next session)
    (hreshaped : Reshaped session session') : Indexed next session' := by
  obtain ⟨change, now, hchange, rfl⟩ := hreshaped
  have hmem {stream : StreamCtx} (hstream : stream ∈ session.streams.map change) :
      ∃ before ∈ session.streams, stream.id = before.id ∧ stream.address = before.address ∧
        stream.exchange = before.exchange ∧ (stream.producing = true → before.producing = true) := by
    obtain ⟨before, hbefore, rfl⟩ := List.mem_map.mp hstream
    exact ⟨before, hbefore, hchange before⟩
  refine ⟨fun streamId address => ?_, ?_, fun stream hstream => ?_, fun stream hstream => ?_,
    fun stream hstream hproducing => ?_⟩
  · rw [h.index]
    constructor
    · rintro ⟨stream, hstream, hid, haddress⟩
      exact ⟨change stream, List.mem_map_of_mem hstream, (hchange stream).1.trans hid,
        (hchange stream).2.1.trans haddress⟩
    · rintro ⟨stream, hstream, hid, haddress⟩
      obtain ⟨before, hbefore, hid', haddress', -⟩ := hmem hstream
      exact ⟨before, hbefore, hid' ▸ hid, haddress' ▸ haddress⟩
  · have hsame : StreamCtx.address ∘ change = StreamCtx.address := by
      funext stream
      exact (hchange stream).2.1
    rw [List.map_map, hsame]
    exact h.addresses
  · obtain ⟨before, hbefore, -, haddress, -⟩ := hmem hstream
    rw [haddress]
    exact h.below before hbefore
  · obtain ⟨before, hbefore, hid, -⟩ := hmem hstream
    rw [hid]
    exact h.named before hbefore
  · obtain ⟨before, hbefore, -, -, hexchange, hwas⟩ := hmem hstream
    rw [hexchange]
    exact h.producing before hbefore (hwas hproducing)

theorem ids_reshape {session' : SessionCtx} (hreshaped : Reshaped session session') :
    session'.ids = session.ids := by
  obtain ⟨change, now, hchange, rfl⟩ := hreshaped
  have hsame : StreamCtx.id ∘ change = StreamCtx.id := by
    funext stream
    exact (hchange stream).1
  rw [ids, ids, List.map_map, hsame]

theorem Queueing.reshape {limit : Nat} {targets : List Nat} {session' : SessionCtx}
    (h : Queueing limit targets session) (hreshaped : Reshaped session session') :
    Queueing limit targets session' := by
  obtain ⟨change, now, hchange, rfl⟩ := hreshaped
  refine ⟨h.bounded, h.single, h.ready, fun address haddress => ?_, h.numbers, h.droppedCount,
    h.toStreams⟩
  obtain ⟨stream, hfind, hexchange⟩ := h.target address haddress
  refine ⟨change stream, ?_, (hchange stream).2.2.1.symm ▸ hexchange⟩
  have hsame : ((fun other : StreamCtx => decide (other.address = address)) ∘ change) =
      fun other => decide (other.address = address) := by
    funext other
    simp [(hchange other).2.1]
  rw [streamAt, List.find?_map, hsame]
  exact Option.map_eq_some_iff.mpr ⟨stream, hfind, rfl⟩

/-! ### Messages -/

theorem currentStream_mem {stream : StreamCtx} (h : session.currentStream = some stream) :
    stream ∈ session.streams ∧ stream.live = true := by
  have hmem := List.mem_reverse.mp (List.mem_of_find?_eq_some h)
  have hlive := List.find?_some h
  simp only [Bool.and_eq_true] at hlive
  exact ⟨hmem, hlive.2⟩

theorem exchange_of_live {next : Nat} (h : Indexed next session) {stream : StreamCtx}
    (hmem : stream ∈ session.streams) (hlive : stream.live = true) :
    stream.exchange.isSome = true := by
  simp only [StreamCtx.live, StreamCtx.isOpen, Bool.and_eq_true] at hlive
  exact h.producing stream hmem hlive.2

theorem writeToStream_eq {stream : StreamCtx} (hexchange : stream.exchange.isSome = true)
    (message : Message) (queued : Bool) :
    session.writeToStream stream message queued =
      { session with written := session.written ++ [⟨message, stream.id, queued⟩] } := by
  have hnone : stream.exchange.isNone = false := by simpa using hexchange
  simp [writeToStream, hnone]

theorem Queueing.addStream {limit : Nat} {targets : List Nat} (h : Queueing limit targets session)
    (stream : StreamCtx) (now : Int) : Queueing limit targets (session.addStream stream now) where
  bounded := h.bounded
  single := h.single
  ready := h.ready
  target address haddress := by
    obtain ⟨found, hfind, hexchange⟩ := h.target address haddress
    refine ⟨found, ?_, hexchange⟩
    rw [streamAt, SessionCtx.addStream, List.find?_append, show session.streams.find? _ = some found
      from hfind, Option.some_or]
  numbers := h.numbers
  droppedCount := h.droppedCount
  toStreams write hwrite := List.mem_append_left _ (h.toStreams write hwrite)

theorem Queueing.dropStream {limit : Nat} {targets : List Nat} (h : Queueing limit targets session)
    {address : Nat} {stream : StreamCtx} (hfind : session.streamAt address = some stream)
    (hnot : address ∉ targets) : Queueing limit targets (session.dropStream stream) where
  bounded := h.bounded
  single := h.single
  ready := h.ready
  target other hother := by
    have hne : other ≠ address := by
      rintro rfl
      exact hnot hother
    rw [streamAt_dropStream hfind hne]
    exact h.target other hother
  numbers := h.numbers
  droppedCount := h.droppedCount
  toStreams := h.toStreams

/-- A flush begins: the front goes out, and stays in the queue until its write returns. -/
theorem Queueing.begin {limit : Nat} (h : Queueing limit [] session) {front : Message}
    {rest : List Message} (hpending : session.pending = front :: rest) {stream : StreamCtx}
    (hfind : session.streamAt stream.address = some stream)
    (hexchange : stream.exchange.isSome = true) (hopened : stream.id ∈ session.opened) :
    Queueing limit [stream.address] (session.writeToStream stream front true) := by
  have hnumbers := h.numbers
  simp only [waiting, hpending, List.isEmpty_nil, Bool.not_true, Bool.false_eq_true, if_false,
    List.map_cons] at hnumbers
  rw [writeToStream_eq hexchange]
  refine ⟨h.bounded, Nat.le_refl _, fun _ => ?_, fun address haddress => ?_, ?_, h.droppedCount,
    fun write hwrite => ?_⟩
  · simp [hpending]
  · rw [List.mem_singleton.mp haddress]
    exact ⟨stream, hfind, hexchange⟩
  · have hdelivered := hnumbers.deliver
    simpa [waiting, hpending, out, queuedOut, List.filter_append] using hdelivered
  · rcases List.mem_append.mp hwrite with hold | hnew
    · exact h.toStreams write hold
    · rw [List.mem_singleton.mp hnew]
      exact hopened

/-- The last write of a flush returns. -/
theorem Queueing.end {limit address : Nat} {front : Message} (h : Queueing limit [address] session)
    (hpending : session.pending = [front]) : Queueing limit [] { session with pending := [] } := by
  refine ⟨Nat.zero_le _, Nat.zero_le _, fun h => absurd rfl h, by simp, ?_, h.droppedCount,
    h.toStreams⟩
  have hnumbers := h.numbers
  simp only [waiting, hpending] at hnumbers
  exact hnumbers

/-- A write of a flush returns, and the next goes out. -/
theorem Queueing.next {limit address : Nat} {done front : Message} {rest : List Message}
    (h : Queueing limit [address] session) (hpending : session.pending = done :: front :: rest)
    {stream : StreamCtx} (hfind : session.streamAt address = some stream)
    (hopened : stream.id ∈ session.opened) :
    Queueing limit [address]
      ({ session with pending := front :: rest }.writeToStream stream front true) := by
  obtain ⟨found, hfound, hexchange⟩ := h.target address (List.mem_singleton_self _)
  obtain rfl : found = stream := Option.some.inj (hfound.symm.trans hfind)
  have hnumbers := h.numbers
  simp only [waiting, hpending, List.isEmpty_cons, Bool.not_false, if_true, List.tail_cons,
    List.map_cons] at hnumbers
  have hbounded := h.bounded
  rw [hpending, List.length_cons] at hbounded
  rw [writeToStream_eq hexchange]
  refine ⟨(Nat.le_succ _).trans hbounded, Nat.le_refl _, fun _ => ?_, fun other hother => ?_, ?_,
    h.droppedCount, fun write hwrite => ?_⟩
  · simp
  · exact h.target other hother
  · have hdelivered := hnumbers.deliver
    simpa [waiting, out, queuedOut, List.filter_append] using hdelivered
  · rcases List.mem_append.mp hwrite with hold | hnew
    · exact h.toStreams write hold
    · rw [List.mem_singleton.mp hnew]
      exact hopened

/-- A message that may be sent is written or queued, and nothing but the messages changes. -/
theorem Queueing.route {limit next : Nat} {targets : List Nat} (h : Queueing limit targets session)
    (hindexed : Indexed next session) (payload : Bytes)
    (hsafe : session.currentStream.isSome = true ∨ session.pending.length < limit ∨
      (limit ≠ 0 ∧ targets = [])) :
    ∃ went session', session.routeUnsolicited limit payload = some (went, session') ∧
      Queueing limit targets session' ∧ Indexed next session' ∧ session'.ids = session.ids ∧
      session'.id = session.id := by
  unfold routeUnsolicited
  cases hcurrent : session.currentStream with
  | some stream =>
      obtain ⟨hmem, hlive⟩ := currentStream_mem hcurrent
      have hexchange := exchange_of_live hindexed hmem hlive
      refine ⟨true, _, rfl, ?_, ?_, ?_, ?_⟩
      · rw [writeToStream_eq hexchange]
        refine ⟨h.bounded, h.single, h.ready, h.target, ?_, h.droppedCount, fun write hwrite => ?_⟩
        · have hdirect := h.numbers.direct
          simpa [out, queuedOut, waiting, List.filter_append] using hdirect
        · rcases List.mem_append.mp hwrite with hold | hnew
          · exact h.toStreams write hold
          · rw [List.mem_singleton.mp hnew]
            exact (hindexed.named stream hmem).2
      · rw [writeToStream_eq hexchange]
        exact ⟨hindexed.index, hindexed.addresses, hindexed.below, hindexed.named, hindexed.producing⟩
      · rw [writeToStream_eq hexchange]
        rfl
      · rw [writeToStream_eq hexchange]
  | none =>
      have hindexed' (pending : List Message) (count accepted : Nat) (dropped : List Message) :
          Indexed next { session with
            accepted := accepted, pending := pending, pendingDropped := count, dropped := dropped } :=
        ⟨hindexed.index, hindexed.addresses, hindexed.below, hindexed.named, hindexed.producing⟩
      by_cases hfull : limit ≤ session.pending.length
      · have hquiet : limit ≠ 0 ∧ targets = [] := by
          rcases hsafe with hsome | hroom | hquiet
          · simp [hcurrent] at hsome
          · omega
          · exact hquiet
        obtain ⟨hlimit, rfl⟩ := hquiet
        cases hpending : session.pending with
        | nil =>
            rw [hpending, List.length_nil] at hfull
            omega
        | cons oldest rest =>
            have hnumbers := h.numbers
            have hbounded := h.bounded
            simp only [waiting, hpending, List.isEmpty_nil, Bool.not_true, Bool.false_eq_true,
              if_false, List.map_cons] at hnumbers
            rw [hpending, List.length_cons] at hbounded
            simp only [if_pos (hpending ▸ hfull)]
            refine ⟨false, _, rfl, ?_, hindexed' _ _ _ _, rfl, rfl⟩
            refine ⟨?_, h.single, fun h => absurd rfl h, by simp, ?_, ?_, h.toStreams⟩
            · simpa using hbounded
            · simpa [out, queuedOut, waiting] using hnumbers.drop.enqueue
            · simp [h.droppedCount]
      · simp only [if_neg hfull]
        refine ⟨false, _, rfl, ?_, hindexed' _ _ _ _, rfl, rfl⟩
        refine ⟨?_, h.single, fun _ => by simp, h.target, ?_, h.droppedCount, h.toStreams⟩
        · rw [List.length_append, List.length_singleton]
          omega
        · have henqueued := h.numbers.enqueue
          cases htargets : targets with
          | nil => simpa [out, queuedOut, waiting, htargets] using henqueued
          | cons target others =>
              have hready := h.ready (by simp [htargets])
              simpa [out, queuedOut, waiting, htargets, List.tail_append_of_ne_nil hready] using
                henqueued

end SessionCtx

/-! ### The manager -/

namespace StreamableSessionManager

variable {s : StreamableSessionManager}

/-- The streams of a session that its queue is being flushed into. -/
def targets (s : StreamableSessionManager) (id : Bytes) : List Nat :=
  (s.flushes.filter fun flush => flush.1 = id).map Prod.snd

/-- An id in use is reserved or names one stream of one session, and nothing else is in use. -/
def Counted (reserved : List Bytes) (directory : OrdMap Bytes Entry) (streamIds : OrdMap Bytes Unit) :
    Prop :=
  ∀ streamId, reserved.count streamId +
    directory.total (fun entry => entry.ctx.ids.count streamId) =
      if streamIds.contains streamId then 1 else 0

/-- What holds of one session of the directory. -/
structure Settled (s : StreamableSessionManager) (id : Bytes) (session : SessionCtx) : Prop where
  named : session.id = id
  indexed : session.Indexed s.nextAddress
  queueing : session.Queueing s.config.pendingLimit (s.targets id)

structure Sound (s : StreamableSessionManager) : Prop where
  counted : Counted s.reserved s.directory s.streamIds
  nonempty : [] ∉ s.reserved
  sessions : ∀ id entry, s.directory.find? id = some entry → s.Settled id entry.ctx
  flushed : ∀ flush ∈ s.flushes, (s.directory.find? flush.1).isSome = true

theorem sound_new (config : ManagerConfig) : Sound (new config) where
  counted _ := rfl
  nonempty := by simp [new]
  sessions _ _ h := by simp [new] at h
  flushed _ h := by simp [new] at h

theorem flushing_iff (s : StreamableSessionManager) (id : Bytes) :
    s.flushing id = true ↔ s.targets id ≠ [] := by
  simp [flushing, targets, List.filter_eq_nil_iff]

theorem session?_eq_some {id : Bytes} {session : SessionCtx} (h : s.session? id = some session) :
    ∃ entry, s.directory.find? id = some entry ∧ entry.ctx = session :=
  Option.map_eq_some_iff.mp h

theorem put_eq {id : Bytes} {entry : Entry} (hfind : s.directory.find? id = some entry)
    (session : SessionCtx) :
    s.put id session = { s with directory := s.directory.insert id { entry with ctx := session } } := by
  simp [put, hfind]

/-- Each id names at most one stream of a session. -/
theorem Counted.nodup_ids {reserved : List Bytes} {directory : OrdMap Bytes Entry}
    {streamIds : OrdMap Bytes Unit} (h : Counted reserved directory streamIds) {id : Bytes}
    {entry : Entry} (hfind : directory.find? id = some entry) : entry.ctx.ids.Nodup := by
  apply List.nodup_iff_count_le_one.mpr
  intro streamId
  have hcount := h streamId
  rw [OrdMap.total_of_find? _ hfind] at hcount
  split_ifs at hcount <;> omega

/-- A session with the same streams' ids counts for the same. -/
theorem Counted.replace {reserved : List Bytes} {directory : OrdMap Bytes Entry} {streamIds : OrdMap Bytes Unit}
    (h : Counted reserved directory streamIds) {id : Bytes} {entry : Entry} (hfind : directory.find? id = some entry)
    {session : SessionCtx} (hids : session.ids = entry.ctx.ids) :
    Counted reserved (directory.insert id { entry with ctx := session }) streamIds := by
  intro streamId
  have hcount := h streamId
  rw [OrdMap.total_of_find? _ hfind] at hcount
  rw [OrdMap.total_insert]
  simp only [hids]
  exact hcount

/-- **One session is replaced** by one with the same streams' ids. -/
theorem Sound.replace (h : Sound s) {id : Bytes} {entry : Entry}
    (hfind : s.directory.find? id = some entry) {session : SessionCtx}
    (hids : session.ids = entry.ctx.ids) (hsettled : s.Settled id session) :
    Sound (s.put id session) := by
  rw [put_eq hfind]
  refine ⟨h.counted.replace hfind hids, h.nonempty, fun other found hother => ?_, fun flush hflush => ?_⟩
  · simp only [OrdMap.find?_insert] at hother
    split_ifs at hother with hsame
    · cases hother
      subst hsame
      exact ⟨hsettled.named, hsettled.indexed, hsettled.queueing⟩
    · have hold := h.sessions other found hother
      exact ⟨hold.named, hold.indexed, hold.queueing⟩
  · rw [OrdMap.find?_insert]
    split_ifs
    · rfl
    · exact h.flushed flush hflush

end StreamableSessionManager

end GopherMcp
