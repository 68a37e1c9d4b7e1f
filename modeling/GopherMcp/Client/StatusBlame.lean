import GopherMcp.Client.StatusNotes

/-!
# Statuses are blamed right

As long as each note matches one response that the filter reports, the notes of a conversation are those of its
one shared connection, and the note at the front is that of the message answered next.
-/

namespace GopherMcp

/-! ### What the conversation keeps -/

namespace Conversation

variable {s : Conversation}

/-- Every connection that carried requests blames right. -/
def Attributed (s : Conversation) : Prop := ∀ c ∈ s.shared, c.BlamesRight

structure Kept (s : Conversation) : Prop where
  past : ∀ c ∈ s.past, c.BlamesRight
  noted : ∀ c ∈ s.activeConnection, c.Noted s.inFlight
  absent : s.activeConnection = none → s.inFlight = [] ∧ s.connected = false
  connecting : ∀ c ∈ s.activeConnection, c.isOpen = false → s.connected = false ∧ s.posted = [] ∧ s.inFlight = []
  others : ∀ key, ∀ c ∈ s.apart.find? key, c.role = .requests → c.soleRequest.isSome = true

theorem kept_new : new.Kept where
  past _ hin := absurd hin List.not_mem_nil
  noted _ hin := by cases hin
  absent _ := ⟨rfl, rfl⟩
  connecting _ hin := by cases hin
  others _ _ hin := by cases hin

theorem Kept.attributed (h : s.Kept) : s.Attributed := by
  intro c hin
  obtain hpast | hactive := List.mem_append.mp hin
  · exact h.past c hpast
  · exact (h.noted c (Option.mem_toList.mp hactive)).right

/-- A connection that takes no place among the notes is added. -/
theorem Kept.openApart (h : s.Kept) {role : ClientConnectionRole} {soleRequest : Option RequestId}
    (hown : role = .requests → soleRequest.isSome = true) : (s.openApart role soleRequest).Kept where
  past := h.past
  noted := h.noted
  absent := h.absent
  connecting := h.connecting
  others key c hfind := by
    have hfind : (s.apart.insert (s.lastKey + 1) (ClientConnection.new role soleRequest)).find? key = some c := hfind
    by_cases hkey : key = s.lastKey + 1
    · rw [hkey, OrdMap.find?_insert_self] at hfind
      cases hfind
      exact hown
    · rw [OrdMap.find?_insert_of_ne _ hkey] at hfind
      exact h.others key c hfind

/-- No shared connection, and nothing noted. -/
theorem Kept.release (h : s.Kept) {gone : List ClientConnection} (hgone : ∀ c ∈ gone, c.BlamesRight) :
    { s with connected := false, activeConnection := none, inFlight := [], past := s.past ++ gone }.Kept where
  past c hin := by
    obtain hpast | hlast := List.mem_append.mp hin
    · exact h.past c hpast
    · exact hgone c hlast
  noted _ hin := by cases hin
  absent _ := ⟨rfl, rfl⟩
  connecting _ hin := by cases hin
  others := h.others

theorem Kept.onClosed (h : s.Kept) {byPeer : Bool}
    (hends : byPeer = true → ∀ c ∈ s.activeConnection, c.reading.any (·.untilClose) = false) :
    (s.onClosed byPeer).Kept := by
  rw [Conversation.onClosed]
  split_ifs
  · exact h
  · refine h.release fun c hin => ?_
    obtain ⟨active, hactive, rfl⟩ := Option.map_eq_some_iff.mp (Option.mem_toList.mp hin)
    exact (h.noted active hactive).right.close fun hpeer => hends hpeer active hactive

/-- With nothing noted, a connection that never came up can go without an event. -/
theorem Kept.close (h : s.Kept) : s.close.Kept ∧ s.close.activeConnection = none := by
  have hreleased : { s with apart := OrdMap.empty }.Kept :=
    ⟨h.past, h.noted, h.absent, h.connecting, fun _ _ hin => by cases hin⟩
  cases hactive : s.activeConnection with
  | none =>
      have hclose : s.close = { s with apart := OrdMap.empty } := by
        rw [Conversation.close, hactive, ← (h.absent hactive).2]
      rw [hclose]
      exact ⟨hreleased, hactive⟩
  | some c =>
      cases hopen : c.isOpen with
      | false =>
          obtain ⟨-, -, hinFlight⟩ := h.connecting c hactive hopen
          have hclose : s.close =
              { s with
                apart := OrdMap.empty, connected := false, activeConnection := none, inFlight := [],
                past := s.past ++ [c] } := by
            simp [Conversation.close, hactive, hopen, hinFlight]
          rw [hclose]
          refine ⟨hreleased.release fun other hin => ?_, rfl⟩
          rw [List.mem_singleton.mp hin]
          exact (h.noted c hactive).right
      | true =>
          have hclose : s.close = { s with apart := OrdMap.empty }.onClosed false := by
            simp [Conversation.close, Conversation.onClosed, hactive, hopen]
          rw [hclose]
          refine ⟨hreleased.onClosed fun hpeer => (by cases hpeer), ?_⟩
          simp [Conversation.onClosed, hactive]

theorem Kept.reconnect (h : s.Kept) : s.reconnect.Kept := by
  obtain ⟨hclosed, hnone⟩ := h.close
  obtain ⟨hinFlight, hconnected⟩ := hclosed.absent hnone
  refine ⟨hclosed.past, fun c hin => ?_, fun hactive => (by cases hactive), fun c hin _ => ?_, hclosed.others⟩
  · cases hin
    show (ClientConnection.new .requests none).Noted s.close.inFlight
    rw [hinFlight]
    exact ClientConnection.noted_new
  · exact ⟨hconnected, rfl, hinFlight⟩

theorem Kept.onConnected (h : s.Kept) : s.onConnected.Kept := by
  unfold Conversation.onConnected
  cases hactive : s.activeConnection with
  | none => exact h
  | some c =>
      simp only
      split_ifs
      · exact h
      · have hnoted := h.noted c hactive
        refine ⟨h.past, fun other hin => ?_, fun hnone => (by cases hnone), fun other hin hopen => ?_, h.others⟩
        · cases hin
          exact ⟨⟨hnoted.right.answered, hnoted.right.final, hnoted.right.interim⟩, hnoted.shared, hnoted.notes,
            hnoted.idle, hnoted.reading⟩
        · cases hin
          cases hopen

/-- A write is posted only by a manager that is connected. -/
theorem Kept.send (h : s.Kept) (posted : PostedWrite) : (s.send posted).Kept := by
  unfold Conversation.send
  split_ifs with hready
  · refine ⟨h.past, h.noted, h.absent, fun c hin hopen => ?_, h.others⟩
    obtain ⟨hconnected, -, -⟩ := h.connecting c hin hopen
    rw [hconnected] at hready
    cases hready
  · exact h

theorem Kept.writeMessage (h : s.Kept) (hopen : ∀ c ∈ s.activeConnection, c.isOpen = true)
    (hnot : ∀ c ∈ s.activeConnection, .sessionDelete ∉ c.sent) (correlate : Option RequestId) :
    (s.writeMessage correlate).Kept := by
  unfold Conversation.writeMessage
  cases hactive : s.activeConnection with
  | none => exact h
  | some c =>
      have hup := hopen c hactive
      refine ⟨h.past, fun other hin => ?_, fun hnone => (by cases hnone), fun other hin hdown => ?_, h.others⟩
      · cases hin
        exact (h.noted c hactive).writeMessage hup (hnot c hactive) correlate
      · cases hin
        rw [ClientConnection.write, if_pos hup] at hdown
        rw [hup] at hdown
        cases hdown

theorem Kept.runPosted (h : s.Kept) {canOpen : Bool} (hproper : s.Proper (.runPosted canOpen)) :
    (s.runPosted canOpen).Kept := by
  unfold Conversation.runPosted
  cases hposted : s.posted with
  | nil => exact h
  | cons posted rest =>
      have hopen : ∀ c ∈ s.activeConnection, c.isOpen = true := by
        intro c hin
        cases hdown : c.isOpen with
        | true => rfl
        | false =>
            obtain ⟨-, hempty, -⟩ := h.connecting c hin hdown
            rw [hposted] at hempty
            cases hempty
      have hrest : { s with posted := rest }.Kept :=
        ⟨h.past, h.noted, h.absent, fun c hin hdown => absurd hdown (by simp [hopen c hin]), h.others⟩
      simp only
      split_ifs with hnone happart
      · exact hrest
      · exact hrest.openApart fun hrole => by cases hrole
      · have hnot : ∀ c ∈ s.activeConnection, .sessionDelete ∉ c.sent :=
          hproper posted (by simp [hposted]) (Bool.eq_false_iff.mpr happart)
        cases posted with
        | message correlate => exact hrest.writeMessage hopen hnot correlate
        | response => exact hrest.writeMessage hopen hnot none

theorem Kept.sendSessionDelete (h : s.Kept) : s.sendSessionDelete.Kept := by
  refine ⟨h.past, fun c hin => ?_, fun hnone => ?_, fun c hin hdown => ?_, h.others⟩
  · obtain ⟨before, hbefore, rfl⟩ := Option.map_eq_some_iff.mp hin
    exact (h.noted before hbefore).writeDelete
  · exact h.absent (Option.map_eq_none_iff.mp hnone)
  · obtain ⟨before, hbefore, rfl⟩ := Option.map_eq_some_iff.mp hin
    cases hopen : before.isOpen with
    | false => exact h.connecting before hbefore hopen
    | true =>
        rw [ClientConnection.write, if_pos hopen] at hdown
        rw [hopen] at hdown
        cases hdown

/-- A connection is put in the place it has, with the notes as they then are. -/
theorem Kept.set_active (h : s.Kept) {c after : ClientConnection} {inFlight : List (Option RequestId)}
    (hactive : s.activeConnection = some c) (hopen : after.isOpen = c.isOpen) (hnoted : after.Noted inFlight)
    (hempty : s.inFlight = [] → inFlight = []) :
    { s with activeConnection := some after, inFlight := inFlight }.Kept where
  past := h.past
  noted other hin := by
    cases hin
    exact hnoted
  absent hnone := by cases hnone
  connecting other hin hdown := by
    cases hin
    obtain ⟨hconnected, hposted, hnone⟩ := h.connecting c hactive (hopen.symm.trans hdown)
    exact ⟨hconnected, hposted, hempty hnone⟩
  others := h.others

theorem Kept.set_apart (h : s.Kept) {key : Nat} {c after : ClientConnection} (hfind : s.apart.find? key = some c)
    (hrole : after.role = c.role) (hsole : after.soleRequest = c.soleRequest) :
    { s with apart := s.apart.insert key after }.Kept where
  past := h.past
  noted := h.noted
  absent := h.absent
  connecting := h.connecting
  others other connection hin := by
    have hin : (s.apart.insert key after).find? other = some connection := hin
    by_cases hkey : other = key
    · rw [hkey, OrdMap.find?_insert_self] at hin
      cases hin
      rw [hrole, hsole]
      exact h.others key c hfind
    · rw [OrdMap.find?_insert_of_ne _ hkey] at hin
      exact h.others other connection hin

/-! ### Runs -/

theorem kept_step (h : s.Kept) {op : ConversationOp} (hpossible : s.Possible op) (hproper : s.Proper op) :
    (s.step op).Kept := by
  cases op with
  | reconnect => exact h.reconnect
  | onConnected => exact h.onConnected
  | onClosed byPeer =>
      refine h.onClosed fun hpeer => ?_
      subst hpeer
      exact hproper
  | close => exact h.close.1
  | send posted => exact h.send posted
  | runPosted canOpen => exact h.runPosted hproper
  | sendSessionDelete => exact h.sendSessionDelete
  | openServerStream => exact h.openApart fun hrole => by cases hrole
  | openSubscription id => exact h.openApart fun _ => rfl
  | closeApart key =>
      refine ⟨h.past, h.noted, h.absent, h.connecting, fun other c hin => ?_⟩
      exact h.others other c (OrdMap.find?_erase_eq_some_iff.mp hin).1
  | onHeaders key head =>
      cases hat : s.at? key with
      | none =>
          have hsame : s.step (.onHeaders key head) = s := by rw [step, hat]; rfl
          rw [hsame]
          exact h
      | some c =>
          have hset : s.step (.onHeaders key head) = s.set key (c.onHeaders head) := by rw [step, hat]; rfl
          rw [hset]
          obtain ⟨-, hlt, -⟩ := hpossible c hat
          cases key with
          | none =>
              obtain ⟨hzero, hfinal⟩ := hproper
              exact h.set_active hat rfl ((h.noted c hat).onHeaders (hlt rfl) hzero hfinal) id
          | some key => exact h.set_apart hat rfl rfl
  | onBody key data =>
      cases hat : s.at? key with
      | none =>
          have hsame : s.step (.onBody key data) = s := by rw [step, hat]; rfl
          rw [hsame]
          exact h
      | some c =>
          have hset : s.step (.onBody key data) = s.set key (c.onBody data) := by rw [step, hat]; rfl
          rw [hset]
          obtain ⟨hrole, hsole, hopen⟩ := c.onBody_frame data
          cases key with
          | none => exact h.set_active hat hopen ((h.noted c hat).onBody data) id
          | some key => exact h.set_apart hat hrole hsole
  | onMessageComplete key =>
      cases hat : s.at? key with
      | none =>
          have hsame : s.step (.onMessageComplete key) = s := by rw [step, onMessageComplete, hat]
          rw [hsame]
          exact h
      | some c =>
          have hset : s.step (.onMessageComplete key) =
              { s.set key (c.onMessageComplete s.inFlight).1 with
                inFlight := (c.onMessageComplete s.inFlight).2 } := by
            rw [step, onMessageComplete, hat]
          rw [hset]
          obtain ⟨hrole, hsole, hopen⟩ := c.onMessageComplete_frame s.inFlight
          cases key with
          | none =>
              have hreading : c.reading.isSome = true := by
                have hends := hpossible c hat
                cases hnone : c.reading with
                | none => rw [hnone] at hends; cases hends
                | some head => rfl
              refine h.set_active hat hopen ((h.noted c hat).onMessageComplete hreading) fun hempty => ?_
              rw [hempty]
              exact c.onMessageComplete_nil
          | some key =>
              rw [ClientConnection.onMessageComplete_apart (h.others key c hat)]
              exact h.set_apart hat hrole hsole

/-- **Every status is blamed on the right request**, on every connection that carries requests and in every
state of a run with no interim response, no status 000, no body that the connection's end alone ends and no
message behind the end of the session. -/
theorem attributed_run {ops : List ConversationOp}
    (h : Runs.Guarded step (fun s op => s.Possible op ∧ s.Proper op) new ops) {before after : List ConversationOp}
    (hsplit : ops = before ++ after) : (Runs.run step new before).Attributed := by
  rw [hsplit] at h
  obtain ⟨hbefore, -⟩ := (Runs.guarded_append step).mp h
  have hkept : (Runs.run step new before).Kept :=
    @Runs.invariant _ _ step _ Kept (fun _ _ hok hkept => kept_step hkept hok.1 hok.2) _ kept_new _ hbefore
  exact hkept.attributed

/-- Two calls, the first of them refused. -/
def refusedFirst : List ConversationOp :=
  [.reconnect, .onConnected, .send (.message (some (.number 1))), .runPosted false,
    .send (.message (some (.number 2))), .runPosted false, .onHeaders none ⟨404, false⟩, .onBody none [1],
    .onMessageComplete none, .onHeaders none ⟨200, false⟩, .onMessageComplete none]

theorem attributed_run_refusedFirst :
    Runs.Guarded step (fun s op => s.Possible op ∧ s.Proper op) new refusedFirst ∧
      (Runs.run step new refusedFirst).Attributed := by
  have h : Runs.Guarded step (fun s op => s.Possible op ∧ s.Proper op) new refusedFirst := by
    decide
  exact ⟨h, attributed_run h (List.append_nil refusedFirst).symm⟩

/-- The server hints at what it will answer. -/
def hinted : List ConversationOp :=
  [.reconnect, .onConnected, .send (.message (some (.number 1))), .runPosted false,
    .onHeaders none ⟨103, false⟩, .onMessageComplete none, .onHeaders none ⟨200, false⟩, .onMessageComplete none]

theorem not_always_attributed :
    Runs.Guarded step Possible new hinted ∧ ¬ (Runs.run step new hinted).Attributed := by
  refine ⟨by decide, fun h => ?_⟩
  have hactive : (Runs.run step new hinted).activeConnection.isSome = true := by decide
  obtain ⟨c, hc⟩ := Option.isSome_iff_exists.mp hactive
  have hreports : (Runs.run step new hinted).activeConnection.map (·.reports) =
      some [.transportStatus 103 (some (.number 1)) [], .transportStatus 200 none []] := by decide
  rw [hc, Option.map_some, Option.some_inj] at hreports
  have hin : c ∈ (Runs.run step new hinted).shared :=
    List.mem_append_right _ (Option.mem_toList.mpr hc)
  have hblamed := (h c hin).interim 103 (some (.number 1)) [] (by rw [hreports]; exact List.mem_cons_self) (by decide)
  cases hblamed

end Conversation

end GopherMcp
