import GopherMcp.Server.ListenLifecycle

/-!
# What a registry delivers

A publication takes the subscriptions it is to reach one after another, and the entries of its turns are
a prefix of them at all times. That carries everything about changes; what is sent at a turn is decided
by the state the turn is taken in.
-/

namespace GopherMcp

namespace ListenRegistry

variable {text : JsonText} {s : State} {subscription : Subscription}

/-! ### Publications -/

/-- The publication a frame is in the middle of, and what is left of it. -/
def Frame.underway : Frame → Option (Nat × Change × List Subscription)
  | .publishing publication change pending _ => some (publication, change, pending)
  | .notifying publication change pending _ => some (publication, change, pending)
  | _ => none

def underway (stack : List Frame) : List (Nat × Change × List Subscription) :=
  stack.filterMap Frame.underway

/-- The publication an entry belongs to. -/
def Entry.publication : Entry → Option Nat
  | .published publication _ _ => some publication
  | .notified publication _ _ => some publication
  | .passedOver publication _ => some publication
  | .delivered publication _ => some publication
  | _ => none

/-- The subscription whose turn in a publication the entry is. -/
def Entry.turnOf (publication : Nat) : Entry → Option Subscription
  | .notified other subscription _ => if other = publication then some subscription else none
  | .passedOver other subscription => if other = publication then some subscription else none
  | _ => none

/-- The turns a publication has taken so far, in order. -/
def turnsOf (publication : Nat) (log : List Entry) : List Subscription :=
  log.filterMap (Entry.turnOf publication)

variable (text) in
structure Publications (s : State) : Prop where
  distinct : ((underway s.stack).map Prod.fst).Nodup
  pending : ∀ publication change pending, (publication, change, pending) ∈ underway s.stack →
    ∃ matching, .published publication change matching ∈ s.log ∧
      matching = turnsOf publication s.log ++ pending
  finished : ∀ publication change matching, .published publication change matching ∈ s.log →
    publication ∉ (underway s.stack).map Prod.fst → turnsOf publication s.log = matching
  returned : ∀ publication count, .delivered publication count ∈ s.log →
    publication ∉ (underway s.stack).map Prod.fst
  numbered : ∀ entry ∈ s.log, ∀ publication, entry.publication = some publication →
    publication < s.nextNumber
  unique : ∀ publication change change' matching matching',
    .published publication change matching ∈ s.log →
    .published publication change' matching' ∈ s.log → change = change' ∧ matching = matching'
  nodup : ∀ publication change matching, .published publication change matching ∈ s.log →
    matching.Nodup
  tagged : ∀ publication subscription notification,
    .notified publication subscription notification ∈ s.log →
    ∃ change matching, .published publication change matching ∈ s.log ∧ subscription ∈ matching ∧
      notification = changeFor text change.method change.params subscription.id

theorem publications_empty : Publications text State.empty where
  distinct := List.nodup_nil
  pending _ _ _ h := by simp [State.empty, underway] at h
  finished _ _ _ h := by simp [State.empty] at h
  returned _ _ h := by simp [State.empty] at h
  numbered _ h := by simp [State.empty] at h
  unique _ _ _ _ _ h := by simp [State.empty] at h
  nodup _ _ _ h := by simp [State.empty] at h
  tagged _ _ _ h := by simp [State.empty] at h

/-- A change of state that is part of no publication. -/
structure Quiet (s s' : State) : Prop where
  underway : underway s'.stack = underway s.stack
  log : ∃ new, s'.log = s.log ++ new ∧ ∀ entry ∈ new, entry.publication = none
  next : s.nextNumber ≤ s'.nextNumber

namespace Quiet

variable {s' s'' : State}

theorem refl (s : State) : Quiet s s := ⟨rfl, ⟨[], by simp⟩, le_rfl⟩

theorem trans (h : Quiet s s') (h' : Quiet s' s'') : Quiet s s'' := by
  obtain ⟨new, hnew, hquiet⟩ := h.log
  obtain ⟨new', hnew', hquiet'⟩ := h'.log
  refine ⟨h'.underway.trans h.underway, ⟨new ++ new', ?_, ?_⟩, h.next.trans h'.next⟩
  · rw [hnew', hnew, List.append_assoc]
  · intro entry hentry
    rcases List.mem_append.mp hentry with hold | hlate
    · exact hquiet entry hold
    · exact hquiet' entry hlate

theorem tell (h : Quiet s s') (entry : Entry) (hentry : entry.publication = none) :
    Quiet s (s'.tell entry) :=
  h.trans ⟨rfl, ⟨[entry], rfl, by simpa using hentry⟩, le_rfl⟩

theorem push (h : Quiet s s') (frame : Frame) (hframe : frame.underway = none) :
    Quiet s (s'.push frame) :=
  h.trans ⟨List.filterMap_cons_none hframe, ⟨[], by simp [State.push]⟩, le_rfl⟩

theorem pop {frame : Frame} (hframe : frame.underway = none) : Quiet (s.push frame) s :=
  ⟨(List.filterMap_cons_none hframe).symm, ⟨[], by simp [State.push]⟩, le_rfl⟩

theorem observe (h : Quiet s s') (subscription : Subscription) : Quiet s (s'.observe subscription) := by
  unfold State.observe
  refine Quiet.tell ?_ _ rfl
  split_ifs
  · exact h.trans ⟨rfl, ⟨[], by simp [State.forget]⟩, le_rfl⟩
  · exact h

theorem addObserver (h : Quiet s s') (subscription : Subscription) :
    Quiet s (s'.addObserver subscription) := by
  simp only [State.addObserver]
  split_ifs
  · exact h.observe subscription
  · exact h.trans ⟨rfl, ⟨[], by simp⟩, le_rfl⟩

theorem callClose (h : Quiet s s') (key : SubscriptionKey) : Quiet s (s'.callClose key) := by
  unfold State.callClose
  split
  · exact h
  · refine Quiet.push (Quiet.tell ?_ _ rfl) _ rfl
    exact h.trans ⟨rfl, ⟨[], by simp [State.forget]⟩, le_rfl⟩

theorem callOpen (s : State) (caller : Bytes) (id : RequestId) (stream : Option Nat)
    (filter : NotificationFilter) : Quiet s (s.callOpen text caller id stream filter) := by
  have hnumbered : Quiet s { s with nextNumber := s.nextNumber + 1 } :=
    ⟨rfl, ⟨[], by simp⟩, Nat.le_succ _⟩
  unfold State.callOpen
  cases stream with
  | none => exact hnumbered.tell _ rfl
  | some stream =>
      simp only
      split_ifs
      · exact hnumbered.tell _ rfl
      · exact (hnumbered.tell _ rfl).push _ rfl

theorem finishOpen (h : Quiet s s') (subscription : Subscription) (sent : Bool) :
    Quiet s (s'.finishOpen subscription sent) := by
  unfold State.finishOpen
  split_ifs
  · exact h.tell _ rfl
  · exact h.tell _ rfl
  · refine Quiet.tell (Quiet.addObserver ?_ _) _ rfl
    exact h.trans ⟨rfl, ⟨[], by simp⟩, le_rfl⟩

theorem cancel (s : State) (stream : Nat) : Quiet s (s.cancel stream) := by
  simp only [State.cancel]
  split_ifs
  · exact Quiet.refl s
  · exact ⟨List.filterMap_cons_none rfl, ⟨[], by simp [State.push]⟩, le_rfl⟩

/-- A turn of `closeAll`. -/
theorem closingAll (s : State) (subscription : Subscription) (held : List Subscription) :
    Quiet (s.push (.closingAll (subscription :: held)))
      (if s.isCurrent subscription then (s.push (.closingAll held)).callClose subscription.key
        else s.push (.closingAll held)) := by
  have hrest : Quiet (s.push (.closingAll (subscription :: held))) (s.push (.closingAll held)) :=
    (Quiet.pop rfl).push _ rfl
  split_ifs
  · exact hrest.callClose _
  · exact hrest

/-- A publication whose send returns is where it was. -/
theorem notifying (s : State) (publication : Nat) (change : Change) (pending : List Subscription)
    (before after : Nat) :
    Quiet (s.push (.notifying publication change pending before))
      (s.push (.publishing publication change pending after)) :=
  ⟨by simp [State.push, ListenRegistry.underway, Frame.underway], ⟨[], by simp [State.push]⟩, le_rfl⟩

theorem sendReturns (sent : Bool) (frame : Frame) : Quiet (s.push frame) (s.sendReturns sent frame) := by
  unfold State.sendReturns
  split
  · exact (Quiet.pop rfl).finishOpen _ sent
  · exact Quiet.notifying s _ _ _ _ _
  · exact Quiet.pop rfl
  · exact Quiet.refl _

end Quiet

theorem turnOf_eq_none {entry : Entry} {publication : Nat}
    (h : entry.publication ≠ some publication) : entry.turnOf publication = none := by
  cases entry <;> simp_all [Entry.turnOf, Entry.publication]

theorem turnsOf_append_none {publication : Nat} {log new : List Entry}
    (h : ∀ entry ∈ new, entry.publication ≠ some publication) :
    turnsOf publication (log ++ new) = turnsOf publication log := by
  have hnew : new.filterMap (Entry.turnOf publication) = [] :=
    List.filterMap_eq_nil_iff.mpr fun entry hentry => turnOf_eq_none (h entry hentry)
  rw [turnsOf, List.filterMap_append, hnew, List.append_nil, turnsOf]

theorem turnsOf_eq_nil {publication : Nat} {log : List Entry}
    (h : ∀ entry ∈ log, entry.publication ≠ some publication) : turnsOf publication log = [] :=
  List.filterMap_eq_nil_iff.mpr fun entry hentry => turnOf_eq_none (h entry hentry)

theorem mem_append_quiet {log new : List Entry} {entry : Entry}
    (hnew : ∀ other ∈ new, other.publication = none) (hentry : entry.publication ≠ none) :
    entry ∈ log ++ new ↔ entry ∈ log := by
  rw [List.mem_append, or_iff_left]
  exact fun hmem => hentry (hnew entry hmem)

namespace Publications

/-- What is part of no publication keeps every publication as it is. -/
theorem quiet {s' : State} (h : Publications text s) (hquiet : Quiet s s') :
    Publications text s' := by
  obtain ⟨hunderway, ⟨new, hlog, hnew⟩, hnext⟩ := hquiet
  have hturns : ∀ publication, turnsOf publication s'.log = turnsOf publication s.log := by
    intro publication
    rw [hlog]
    exact turnsOf_append_none fun entry hentry => by simp [hnew entry hentry]
  have hmem : ∀ {entry : Entry}, entry.publication ≠ none → (entry ∈ s'.log ↔ entry ∈ s.log) := by
    intro entry hentry
    rw [hlog]
    exact mem_append_quiet hnew hentry
  exact
    { distinct := hunderway ▸ h.distinct
      pending := fun publication change pending hframe => by
        rw [hunderway] at hframe
        obtain ⟨matching, hpublished, hmatching⟩ := h.pending publication change pending hframe
        exact ⟨matching, (hmem (by simp [Entry.publication])).mpr hpublished,
          by rw [hturns, hmatching]⟩
      finished := fun publication change matching hpublished hover => by
        rw [hunderway] at hover
        rw [hturns]
        exact h.finished publication change matching
          ((hmem (by simp [Entry.publication])).mp hpublished) hover
      returned := fun publication count hdelivered => by
        rw [hunderway]
        exact h.returned publication count ((hmem (by simp [Entry.publication])).mp hdelivered)
      numbered := fun entry hentry publication hpublication => by
        have hold := (hmem (by simp [hpublication])).mp hentry
        exact (h.numbered entry hold publication hpublication).trans_le hnext
      unique := fun publication change change' matching matching' hfirst hsecond =>
        h.unique publication change change' matching matching'
          ((hmem (by simp [Entry.publication])).mp hfirst)
          ((hmem (by simp [Entry.publication])).mp hsecond)
      nodup := fun publication change matching hpublished =>
        h.nodup publication change matching ((hmem (by simp [Entry.publication])).mp hpublished)
      tagged := fun publication subscription notification hnotified => by
        obtain ⟨change, matching, hpublished, htagged⟩ := h.tagged publication subscription
          notification ((hmem (by simp [Entry.publication])).mp hnotified)
        exact ⟨change, matching, (hmem (by simp [Entry.publication])).mpr hpublished, htagged⟩ }

/-- A publication's frame names a publication that was made. -/
theorem underway_lt (h : Publications text s) {publication : Nat}
    (hmem : publication ∈ (underway s.stack).map Prod.fst) : publication < s.nextNumber := by
  obtain ⟨⟨_, change, pending⟩, hframe, rfl⟩ := List.mem_map.mp hmem
  obtain ⟨matching, hpublished, _⟩ := h.pending _ change pending hframe
  exact h.numbered _ hpublished _ rfl

theorem callPublish (h : Publications text s) (hlife : Lifecycle s) (change : Change) :
    Publications text (s.callPublish change) := by
  set matching := s.subscriptions.values.filter (·.filter.wants change.method change.uri) with hset
  have hfresh : ∀ entry ∈ s.log, entry.publication ≠ some s.nextNumber :=
    fun entry hentry heq => absurd (h.numbered entry hentry _ heq) (lt_irrefl _)
  have hturns : ∀ publication, turnsOf publication (s.callPublish change).log =
      turnsOf publication s.log := by
    intro publication
    change turnsOf publication (s.log ++ [.published s.nextNumber change matching]) = _
    simp [turnsOf, Entry.turnOf]
  have hpublished : ∀ {publication : Nat} {other : Change} {reached : List Subscription},
      .published publication other reached ∈ (s.callPublish change).log →
      .published publication other reached ∈ s.log ∨
        (publication = s.nextNumber ∧ other = change ∧ reached = matching) := by
    intro publication other reached hmem
    rcases List.mem_append.mp hmem with hold | hnew
    · exact Or.inl hold
    · cases List.mem_singleton.mp hnew
      exact Or.inr ⟨rfl, rfl, rfl⟩
  have hold : ∀ {entry : Entry}, entry ∈ s.log → entry ∈ (s.callPublish change).log :=
    fun hmem => List.mem_append_left _ hmem
  exact
    { distinct := List.nodup_cons.mpr
        ⟨fun hmem => absurd (h.underway_lt hmem) (lt_irrefl _), h.distinct⟩
      pending := fun publication other pending hframe => by
        rw [hturns]
        rcases List.mem_cons.mp hframe with heq | hframe
        · cases heq
          refine ⟨matching, List.mem_append_right _ List.mem_cons_self, ?_⟩
          rw [turnsOf_eq_nil hfresh, List.nil_append]
        · obtain ⟨reached, hmem, hreached⟩ := h.pending publication other pending hframe
          exact ⟨reached, hold hmem, hreached⟩
      finished := fun publication other reached hmem hover => by
        rw [hturns]
        rcases hpublished hmem with hmem | ⟨rfl, _, _⟩
        · exact h.finished publication other reached hmem
            fun hframe => hover (List.mem_cons_of_mem _ hframe)
        · exact absurd List.mem_cons_self hover
      returned := fun publication count hmem => by
        rcases List.mem_append.mp hmem with hmem | hnew
        · intro hframe
          rcases List.mem_cons.mp hframe with rfl | hframe
          · exact hfresh _ hmem rfl
          · exact h.returned publication count hmem hframe
        · cases List.mem_singleton.mp hnew
      numbered := fun entry hmem publication hpublication => by
        change publication < s.nextNumber + 1
        rcases List.mem_append.mp hmem with hmem | hnew
        · exact (h.numbered entry hmem publication hpublication).trans (Nat.lt_succ_self _)
        · cases List.mem_singleton.mp hnew
          cases hpublication
          exact Nat.lt_succ_self _
      unique := fun publication first second reached reached' hfirst hsecond => by
        rcases hpublished hfirst with hold1 | ⟨hnew1, rfl, rfl⟩ <;>
          rcases hpublished hsecond with hold2 | ⟨hnew2, rfl, rfl⟩
        · exact h.unique publication first second reached reached' hold1 hold2
        · exact absurd (congrArg some hnew2) (hfresh _ hold1)
        · exact absurd (congrArg some hnew1) (hfresh _ hold2)
        · exact ⟨rfl, rfl⟩
      nodup := fun publication other reached hmem => by
        rcases hpublished hmem with hmem | ⟨_, _, rfl⟩
        · exact h.nodup publication other reached hmem
        · exact hlife.nodup_values.filter _
      tagged := fun publication subscription notification hmem => by
        rcases List.mem_append.mp hmem with hmem | hnew
        · obtain ⟨other, reached, hmem, htagged⟩ := h.tagged publication subscription
            notification hmem
          exact ⟨other, reached, hold hmem, htagged⟩
        · cases List.mem_singleton.mp hnew }

/-- A publication that has reached everything it was to reach returns. -/
theorem deliver {frame : Frame} {publication count : Nat} {change : Change}
    (h : Publications text (s.push frame))
    (hframe : frame.underway = some (publication, change, [])) :
    Publications text (s.tell (.delivered publication count)) := by
  have hunderway : underway (s.push frame).stack =
      (publication, change, []) :: underway s.stack := List.filterMap_cons_some hframe
  obtain ⟨matching, hmatching, hturned⟩ := h.pending publication change [] (by simp [hunderway])
  obtain ⟨hgone, hdistinct⟩ := List.nodup_cons.mp (hunderway ▸ h.distinct)
  have hturns : ∀ other, turnsOf other (s.tell (.delivered publication count)).log =
      turnsOf other s.log := by
    intro other
    change turnsOf other (s.log ++ [.delivered publication count]) = _
    simp [turnsOf, Entry.turnOf]
  have hold : ∀ {entry : Entry}, entry ∈ s.log →
      entry ∈ (s.tell (.delivered publication count)).log := fun hmem => List.mem_append_left _ hmem
  have hcases : ∀ {entry : Entry}, entry ∈ (s.tell (.delivered publication count)).log →
      entry ∈ s.log ∨ entry = .delivered publication count := fun hmem =>
    (List.mem_append.mp hmem).imp id List.mem_singleton.mp
  exact
    { distinct := hdistinct
      pending := fun other change' pending hmem => by
        obtain ⟨reached, hreached, heq⟩ := h.pending other change' pending
          (hunderway ▸ List.mem_cons_of_mem _ hmem)
        exact ⟨reached, hold hreached, by rw [hturns]; exact heq⟩
      finished := fun other change' reached hmem hover => by
        have hmade : .published other change' reached ∈ s.log := (hcases hmem).resolve_right nofun
        rw [hturns]
        by_cases hother : other = publication
        · subst hother
          obtain ⟨_, rfl⟩ := h.unique other change change' matching reached hmatching hmade
          rw [hturned, List.append_nil]
          rfl
        · refine h.finished other change' reached hmade fun hframe => ?_
          rw [hunderway, List.map_cons, List.mem_cons] at hframe
          exact hframe.elim hother hover
      returned := fun other total hmem => by
        rcases hcases hmem with hmem | heq
        · have hout := h.returned other total hmem
          rw [hunderway, List.map_cons, List.mem_cons, not_or] at hout
          exact hout.2
        · cases heq
          exact hgone
      numbered := fun entry hmem other hother => by
        rcases hcases hmem with hmem | rfl
        · exact h.numbered entry hmem other hother
        · cases hother
          exact h.numbered _ hmatching publication rfl
      unique := fun other change' change'' reached reached' hfirst hsecond =>
        h.unique other change' change'' reached reached'
          ((hcases hfirst).resolve_right nofun) ((hcases hsecond).resolve_right nofun)
      nodup := fun other change' reached hmem =>
        h.nodup other change' reached ((hcases hmem).resolve_right nofun)
      tagged := fun other subscription notification hmem => by
        obtain ⟨change', reached, hreached, htagged⟩ := h.tagged other subscription notification
          ((hcases hmem).resolve_right nofun)
        exact ⟨change', reached, hold hreached, htagged⟩ }

/-- A publication takes the turn of the next subscription it is to reach. -/
theorem takeTurn {frame frame' : Frame} {publication : Nat} {change : Change}
    {pending : List Subscription} {entry : Entry} (h : Publications text (s.push frame))
    (hframe : frame.underway = some (publication, change, subscription :: pending))
    (hframe' : frame'.underway = some (publication, change, pending))
    (hentry : entry = .passedOver publication subscription ∨
      entry = .notified publication subscription
        (changeFor text change.method change.params subscription.id)) :
    Publications text ((s.tell entry).push frame') := by
  have hunderway : underway (s.push frame).stack =
      (publication, change, subscription :: pending) :: underway s.stack :=
    List.filterMap_cons_some hframe
  have hunderway' : underway ((s.tell entry).push frame').stack =
      (publication, change, pending) :: underway s.stack := List.filterMap_cons_some hframe'
  have hkeys : (underway ((s.tell entry).push frame').stack).map Prod.fst =
      (underway (s.push frame).stack).map Prod.fst := by
    rw [hunderway, hunderway', List.map_cons, List.map_cons]
  have hpublication : entry.publication = some publication := by
    rcases hentry with rfl | rfl <;> rfl
  have hturn : entry.turnOf publication = some subscription := by
    rcases hentry with rfl | rfl <;> simp [Entry.turnOf]
  have hturns : turnsOf publication ((s.tell entry).push frame').log =
      turnsOf publication s.log ++ [subscription] := by
    change turnsOf publication (s.log ++ [entry]) = _
    rw [turnsOf, List.filterMap_append, List.filterMap_cons_some hturn, List.filterMap_nil, turnsOf]
  have hother : ∀ other, other ≠ publication →
      turnsOf other ((s.tell entry).push frame').log = turnsOf other s.log := by
    intro other hne
    refine turnsOf_append_none fun told htold => ?_
    obtain rfl := List.mem_singleton.mp htold
    rw [hpublication]
    exact fun heq => hne (Option.some.inj heq).symm
  have hold : ∀ {told : Entry}, told ∈ s.log → told ∈ ((s.tell entry).push frame').log :=
    fun hmem => List.mem_append_left _ hmem
  have hcases : ∀ {told : Entry}, told ∈ ((s.tell entry).push frame').log →
      told ∈ s.log ∨ told = entry := fun hmem =>
    (List.mem_append.mp hmem).imp id List.mem_singleton.mp
  have hpublished : ∀ {other : Nat} {change' : Change} {reached : List Subscription},
      .published other change' reached ∈ ((s.tell entry).push frame').log →
      .published other change' reached ∈ s.log := by
    intro other change' reached hmem
    refine (hcases hmem).resolve_right fun heq => ?_
    rcases hentry with rfl | rfl <;> cases heq
  obtain ⟨matching, hmatching, hturned⟩ :=
    h.pending publication change (subscription :: pending) (by simp [hunderway])
  obtain ⟨hgone, _⟩ := List.nodup_cons.mp (hunderway ▸ h.distinct)
  exact
    { distinct := hkeys ▸ h.distinct
      pending := fun other change' left hmem => by
        rw [hunderway'] at hmem
        rcases List.mem_cons.mp hmem with heq | hbelow
        · cases heq
          refine ⟨matching, hold hmatching, ?_⟩
          rw [hturns, List.append_assoc, List.singleton_append]
          exact hturned
        · have hne : other ≠ publication := fun heq =>
            hgone (List.mem_map.mpr ⟨_, hbelow, heq⟩)
          obtain ⟨reached, hreached, heq⟩ := h.pending other change' left
            (hunderway ▸ List.mem_cons_of_mem _ hbelow)
          exact ⟨reached, hold hreached, by rw [hother other hne]; exact heq⟩
      finished := fun other change' reached hmem hover => by
        rw [hkeys] at hover
        have hne : other ≠ publication := by
          rintro rfl
          exact hover (by simp [hunderway])
        rw [hother other hne]
        exact h.finished other change' reached (hpublished hmem) hover
      returned := fun other count hmem => by
        rw [hkeys]
        refine h.returned other count ((hcases hmem).resolve_right fun heq => ?_)
        rcases hentry with rfl | rfl <;> cases heq
      numbered := fun told hmem other hbelongs => by
        rcases hcases hmem with hbefore | rfl
        · exact h.numbered told hbefore other hbelongs
        · rw [hpublication] at hbelongs
          cases hbelongs
          exact h.numbered _ hmatching publication rfl
      unique := fun other change' change'' reached reached' hfirst hsecond =>
        h.unique other change' change'' reached reached' (hpublished hfirst) (hpublished hsecond)
      nodup := fun other change' reached hmem =>
        h.nodup other change' reached (hpublished hmem)
      tagged := fun other reached notification hmem => by
        rcases hcases hmem with hmem | heq
        · obtain ⟨change', reaching, hreaching, htagged⟩ := h.tagged other reached notification hmem
          exact ⟨change', reaching, hold hreaching, htagged⟩
        · rcases hentry with rfl | rfl
          · cases heq
          · cases heq
            exact ⟨change, matching, hold hmatching, by rw [hturned]; simp, rfl⟩ }

theorem turn (frame : Frame) (h : Publications text (s.push frame)) :
    Publications text (s.turn text frame) := by
  unfold State.turn
  split
  · exact h.deliver rfl
  · split_ifs
    · exact h.takeTurn rfl rfl (Or.inr rfl)
    · exact h.takeTurn rfl rfl (Or.inl rfl)
  · exact h.quiet (Quiet.pop rfl)
  · exact h.quiet (Quiet.closingAll s _ _)
  · exact h.quiet (Quiet.pop rfl)
  · exact h.quiet (((Quiet.pop rfl).observe _).push _ rfl)
  · exact h

theorem call (h : Publications text s) (hlife : Lifecycle s) (action : Action) :
    Publications text (call text s action) := by
  cases action with
  | openCall caller id stream filter => exact h.quiet (Quiet.callOpen s caller id stream filter)
  | publish change => exact h.callPublish hlife change
  | close caller id => exact h.quiet ((Quiet.refl s).callClose _)
  | closeAll => exact h.quiet ((Quiet.refl s).push _ rfl)
  | forget caller id => exact h.quiet ⟨rfl, ⟨[], by simp [ListenRegistry.call, State.forget]⟩, le_rfl⟩
  | forgetDead alive =>
      exact h.quiet ⟨rfl, ⟨[], by simp [ListenRegistry.call, State.forgetDead]⟩, le_rfl⟩
  | cancel stream => exact h.quiet (Quiet.cancel s stream)
  | sendReturns sent => exact h
  | turn => exact h

theorem step (h : Publications text s) (hlife : Lifecycle s) (action : Action) :
    Publications text (step text s action) := by
  rcases step_cases text s action with
    ⟨_, hstep⟩ | ⟨sent, frame, stack, hstack, _, hstep⟩ | ⟨frame, stack, hstack, _, hstep⟩ | hstep
  · rw [hstep]
    exact h.call hlife action
  · rw [hstep]
    refine Publications.quiet (s := State.push _ frame) ?_ (Quiet.sendReturns sent frame)
    rwa [push_self hstack]
  · rw [hstep]
    exact Publications.turn frame (by rwa [push_self hstack])
  · rwa [hstep]

end Publications

variable (text) in
/-- What holds in every state a registry reaches. -/
structure Sound (s : State) : Prop where
  lifecycle : Lifecycle s
  publications : Publications text s

theorem sound_run (actions : List Action) : Sound text (run text actions) :=
  Runs.invariant_of_every_step (step text)
    (fun _ action h => ⟨h.lifecycle.step action, h.publications.step h.lifecycle action⟩)
    ⟨lifecycle_empty, publications_empty⟩ actions

/-! ### What a step tells -/

/-- What an entry says is so in the state it is told in: a publication is to reach what is registered and
wants the change, a change is sent to what is registered, and only what is not registered is
passed over. -/
def RightAt (s : State) : Entry → Prop
  | .published _ change matching => ∀ subscription, subscription ∈ matching ↔
      Registered s subscription ∧ subscription.filter.wants change.method change.uri = true
  | .notified _ subscription _ => Registered s subscription
  | .passedOver _ subscription => ¬ Registered s subscription
  | _ => True

theorem rightAt_of_quiet {entry : Entry} (h : entry.publication = none) : RightAt s entry := by
  cases entry <;> simp_all [Entry.publication, RightAt]

/-- The step from `s` to `s'` tells only what is so. -/
def TellsRight (s s' : State) : Prop :=
  ∃ new, s'.log = s.log ++ new ∧ ∀ entry ∈ new, RightAt s entry

theorem Quiet.tellsRight {s' : State} (h : Quiet s s') : TellsRight s s' := by
  obtain ⟨new, hlog, hquiet⟩ := h.log
  exact ⟨new, hlog, fun entry hentry => rightAt_of_quiet (hquiet entry hentry)⟩

theorem mem_matching_iff (hlife : Lifecycle s) (change : Change) :
    subscription ∈ s.subscriptions.values.filter (·.filter.wants change.method change.uri) ↔
      Registered s subscription ∧ subscription.filter.wants change.method change.uri = true := by
  rw [List.mem_filter, OrdMap.mem_values_iff]
  refine and_congr_left fun _ => ⟨?_, fun h => ⟨_, h⟩⟩
  rintro ⟨key, hfind⟩
  rwa [Registered, hlife.keyed key subscription hfind]

theorem tellsRight_call (hlife : Lifecycle s) (action : Action) :
    TellsRight s (call text s action) := by
  cases action with
  | openCall caller id stream filter => exact (Quiet.callOpen s caller id stream filter).tellsRight
  | publish change =>
      refine ⟨_, rfl, fun entry hentry => ?_⟩
      obtain rfl := List.mem_singleton.mp hentry
      exact fun subscription => mem_matching_iff hlife change
  | close caller id => exact ((Quiet.refl s).callClose _).tellsRight
  | closeAll => exact ((Quiet.refl s).push _ rfl).tellsRight
  | cancel stream => exact (Quiet.cancel s stream).tellsRight
  | forget caller id => exact ⟨[], (List.append_nil _).symm, nofun⟩
  | forgetDead alive => exact ⟨[], (List.append_nil _).symm, nofun⟩
  | sendReturns sent => exact (Quiet.refl s).tellsRight
  | turn => exact (Quiet.refl s).tellsRight

theorem tellsRight_turn (frame : Frame) : TellsRight (s.push frame) (s.turn text frame) := by
  unfold State.turn
  split
  · exact ⟨_, rfl, fun entry hentry => by cases List.mem_singleton.mp hentry; trivial⟩
  · split_ifs with hcurrent
    · refine ⟨_, rfl, fun entry hentry => ?_⟩
      obtain rfl := List.mem_singleton.mp hentry
      exact isCurrent_iff.mp hcurrent
    · refine ⟨_, rfl, fun entry hentry => ?_⟩
      obtain rfl := List.mem_singleton.mp hentry
      exact fun hregistered => hcurrent (isCurrent_iff.mpr hregistered)
  · exact (Quiet.pop rfl).tellsRight
  · exact (Quiet.closingAll s _ _).tellsRight
  · exact (Quiet.pop rfl).tellsRight
  · exact (((Quiet.pop rfl).observe _).push _ rfl).tellsRight
  · exact (Quiet.refl _).tellsRight

theorem tellsRight_step (hlife : Lifecycle s) (action : Action) :
    TellsRight s (step text s action) := by
  rcases step_cases text s action with
    ⟨_, hstep⟩ | ⟨sent, frame, stack, hstack, _, hstep⟩ | ⟨frame, stack, hstack, _, hstep⟩ | hstep
  · rw [hstep]
    exact tellsRight_call hlife action
  · rw [hstep, ← push_self hstack]
    exact (Quiet.sendReturns sent frame).tellsRight
  · rw [hstep, ← push_self hstack]
    exact tellsRight_turn frame
  · rw [hstep]
    exact (Quiet.refl s).tellsRight

/-! ### Delivery -/

variable (text) in
/-- **What the subscribers get.** A publication takes the turn of each subscription it is to reach once, in
order, and all of them by the time it returns; what it sends is the change, naming the subscription
it goes to; and no final response follows a final response or a cancellation. -/
structure Delivers (s : State) : Prop where
  turns : ∀ publication change matching, .published publication change matching ∈ s.log →
    matching.Nodup ∧ turnsOf publication s.log <+: matching ∧
      ∀ count, .delivered publication count ∈ s.log → turnsOf publication s.log = matching
  tagged : ∀ publication subscription notification,
    .notified publication subscription notification ∈ s.log →
    (∃ change matching, .published publication change matching ∈ s.log ∧
        subscription ∈ matching ∧
        notification = changeFor text change.method change.params subscription.id) ∧
      NamesSubscription text notification subscription.id
  responses : s.log.Pairwise fun earlier later =>
    ∀ subscription, earlier.Ends subscription → ¬ later.Responds subscription

theorem Sound.delivers (h : Sound text s) : Delivers text s where
  turns publication change matching hmade := by
    refine ⟨h.publications.nodup publication change matching hmade, ?_, fun count hdelivered => ?_⟩
    · by_cases hunderway : publication ∈ (underway s.stack).map Prod.fst
      · obtain ⟨⟨_, change', pending⟩, hframe, rfl⟩ := List.mem_map.mp hunderway
        obtain ⟨matching', hmade', hturned⟩ := h.publications.pending _ change' pending hframe
        obtain ⟨_, rfl⟩ := h.publications.unique _ _ _ _ _ hmade' hmade
        exact ⟨pending, hturned.symm⟩
      · rw [h.publications.finished publication change matching hmade hunderway]
    · exact h.publications.finished publication change matching hmade
        (h.publications.returned publication count hdelivered)
  tagged publication subscription notification hnotified := by
    obtain ⟨change, matching, hmade, hmem, rfl⟩ :=
      h.publications.tagged publication subscription notification hnotified
    exact ⟨⟨change, matching, hmade, hmem, rfl⟩, changeFor_names text _ _ _⟩
  responses := h.lifecycle.responses

theorem subscriptionKey_injective (caller : Bytes) : Function.Injective (subscriptionKey caller) := by
  intro left right h
  have hkeys : requestIdKey left = requestIdKey right := congrArg (fun key => (ofLex key).2) h
  exact requestIdKey_injective hkeys

end ListenRegistry

end GopherMcp
