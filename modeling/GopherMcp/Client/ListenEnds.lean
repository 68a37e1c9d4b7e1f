import GopherMcp.Client.Listening

/-!
# Subscriptions end everywhere

A subscription whose callback is gone has no connection once the tasks that were posted have run, and the
callback of a subscription goes as its request is settled. Both hold as long as no path settles the request, or
loses the connection, without the others being told.
-/

namespace GopherMcp

namespace ListeningClient

/-! ### Connections that go -/

/-- Whether a task leaves a subscription with a connection, taking one that is opened to come up. -/
def remainsAfter (id : Nat) (present : Bool) : ListenTask → Bool
  | .openSubscription opened => present || opened == id
  | .closeSubscription closed => present && closed != id
  | .cancel _ => present

def remains (id : Nat) (present : Bool) (posted : List ListenTask) : Bool := posted.foldl (remainsAfter id) present

theorem remains_post (id : Nat) (present : Bool) (posted : List ListenTask) (task : ListenTask) :
    remains id present (posted ++ [task]) = remainsAfter id (remains id present posted) task := by
  rw [remains, List.foldl_append]
  rfl

/-- With no connection now there is none later, if there is none even with one now. -/
theorem remains_of_absent {id : Nat} {present : Bool} {posted : List ListenTask}
    (h : remains id present posted = false) : remains id false posted = false := by
  induction posted generalizing present with
  | nil => rfl
  | cons task rest ih =>
      have hrest : remains id (remainsAfter id present task) rest = false := h
      show remains id (remainsAfter id false task) rest = false
      cases present with
      | false => exact hrest
      | true =>
          cases task with
          | openSubscription opened => 
              cases hsame : opened == id with
              | false =>
                  simp only [remainsAfter, hsame, Bool.or_false] at hrest ⊢
                  exact ih hrest
              | true =>
                  simp only [remainsAfter, hsame, Bool.or_true] at hrest ⊢
                  exact hrest
          | closeSubscription closed =>
              simp only [remainsAfter, Bool.false_and]
              exact ih hrest
          | cancel origin => exact ih hrest

variable {s : ListeningClient} {id : Nat}

/-- `loose` is a subscription that is being let go of. -/
structure Orderly (s : ListeningClient) (loose : Option Nat) : Prop where
  fresh : ∀ id, s.nextRequestId ≤ id →
    s.callbacks.find? id = none ∧ s.tracker.find? id = none ∧ id ∉ s.settled ∧ id ∉ s.stopped
  tracked : ∀ id, ∀ context ∈ s.tracker.find? id,
    context.id = id ∧ context.originId = id ∧ context.completed = false ∧ context.settled = false
  held : ∀ id, (s.callbacks.find? id).isSome = true → (s.tracker.find? id).isSome = true
  leaves : ∀ id, s.Released id → remains id (s.connections.find? id).isSome s.posted = false
  known : ∀ id, loose ≠ some id → s.Released id →
    (s.connections.find? id).isSome = true ∨ .openSubscription id ∈ s.posted → id ∈ s.settled ∨ id ∈ s.stopped
  settled : ∀ id ∈ s.settled, s.Released id
  stopped : ∀ id ∈ s.stopped, s.Released id
  lost : ∀ id ∈ s.lost, id ∈ s.settled ∨ id ∈ s.stopped
  stopping : ∀ id ∈ s.stopping, id ∈ s.stopped
  opening : ∀ id ∈ s.opening, id < s.nextRequestId
  late : s.late = []

theorem orderly_new (requestTimeout mrtrMaxRounds : Nat) : (new requestTimeout mrtrMaxRounds).Orderly none where
  fresh _ _ := ⟨rfl, rfl, List.not_mem_nil, List.not_mem_nil⟩
  tracked _ _ hin := by cases hin
  held _ hsome := by cases hsome
  leaves _ _ := rfl
  known _ _ _ hin := by
    obtain hsome | hposted := hin
    · cases hsome
    · exact absurd hposted List.not_mem_nil
  settled _ hin := absurd hin List.not_mem_nil
  stopped _ hin := absurd hin List.not_mem_nil
  lost _ hin := absurd hin List.not_mem_nil
  stopping _ hin := absurd hin List.not_mem_nil
  opening _ hin := absurd hin List.not_mem_nil
  late := rfl

theorem not_released_of_held (h : (s.callbacks.find? id).isSome = true) : ¬ s.Released id := by
  intro hreleased
  rw [show s.callbacks.find? id = none from hreleased] at h
  cases h

/-- Tasks run out, and with them what is left of a subscription that was let go of. -/
theorem Orderly.gone (h : s.Orderly none) (hquiet : s.posted = []) (hreleased : s.Released id) : s.Gone id := by
  have hleaves := h.leaves id hreleased
  rw [hquiet] at hleaves
  have hnone : (s.connections.find? id).isSome = false := hleaves
  exact ⟨hreleased, Option.isSome_eq_false_iff.mp hnone |> Option.isNone_iff_eq_none.mp⟩

theorem Orderly.endsEverywhere (h : s.Orderly none) : s.EndsEverywhere where
  settled hquiet id hin := h.gone hquiet (h.settled id hin)
  lost hquiet id hin := by
    have hended := h.lost id hin
    refine ⟨hended, h.gone hquiet ?_⟩
    obtain hsettled | hstopped := hended
    · exact h.settled id hsettled
    · exact h.stopped id hstopped
  late := h.late

/-- The callback goes at once and the connection with a task. -/
theorem Orderly.drop (h : s.Orderly none) (id : Nat) :
    ({ s with callbacks := s.callbacks.erase id }.post (.closeSubscription id)).Orderly (some id) := by
  have hreleased : ∀ other, other ≠ id → (s.callbacks.erase id).find? other = none → s.Released other := by
    intro other hother hnone
    rwa [OrdMap.find?_erase_of_ne _ hother] at hnone
  have hmore : ∀ other, s.Released other → (s.callbacks.erase id).find? other = none := by
    intro other hother
    rw [OrdMap.find?_erase]
    split_ifs
    · rfl
    · exact hother
  refine ⟨fun other hother => ?_, h.tracked, fun other hsome => ?_, fun other hother => ?_,
    fun other hne hother hin => ?_, fun other hin => hmore other (h.settled other hin),
    fun other hin => hmore other (h.stopped other hin), h.lost, h.stopping, h.opening, h.late⟩
  · obtain ⟨hcallback, hrest⟩ := h.fresh other hother
    exact ⟨hmore other hcallback, hrest⟩
  · obtain ⟨callback, hcallback⟩ := Option.isSome_iff_exists.mp hsome
    exact h.held other (by rw [(OrdMap.find?_erase_eq_some_iff.mp hcallback).1]; rfl)
  · show remains other (s.connections.find? other).isSome (s.posted ++ [.closeSubscription id]) = false
    rw [remains_post]
    by_cases hsame : other = id
    · simp [remainsAfter, hsame]
    · simp [remainsAfter, h.leaves other (hreleased other hsame hother)]
  · have hsame : other ≠ id := fun hsame => hne (congrArg some hsame.symm)
    refine h.known other (by simp) (hreleased other hsame hother) ?_
    obtain hsome | hposted := hin
    · exact Or.inl hsome
    · obtain hold | hnew := List.mem_append.mp hposted
      · exact Or.inr hold
      · cases List.mem_singleton.mp hnew

theorem Orderly.releaseSubscription (h : s.Orderly none) (id : Nat) :
    (s.releaseSubscription id).Orderly (some id) ∧ (s.releaseSubscription id).Released id := by
  rw [ListeningClient.releaseSubscription]
  cases hfind : s.callbacks.find? id with
  | none => exact ⟨{ h with known := fun other _ => h.known other (by simp) }, hfind⟩
  | some callback => exact ⟨h.drop id, OrdMap.find?_erase_self _ _⟩

theorem releaseSubscription_frame (s : ListeningClient) (id : Nat) :
    (s.releaseSubscription id).tracker = s.tracker ∧
      (s.releaseSubscription id).nextRequestId = s.nextRequestId ∧
      (s.releaseSubscription id).connections = s.connections ∧ (s.releaseSubscription id).lost = s.lost := by
  rw [ListeningClient.releaseSubscription]
  cases s.callbacks.find? id <;> exact ⟨rfl, rfl, rfl, rfl⟩

theorem releaseSubscription_calls (s : ListeningClient) (id : Nat) :
    (s.releaseSubscription id).stopping = s.stopping ∧ (s.releaseSubscription id).stopped = s.stopped ∧
      (s.releaseSubscription id).opening = s.opening := by
  rw [ListeningClient.releaseSubscription]
  cases s.callbacks.find? id <;> exact ⟨rfl, rfl, rfl⟩

theorem releaseSubscription_released {other : Nat} (h : s.Released other) :
    (s.releaseSubscription id).Released other := by
  rw [ListeningClient.releaseSubscription]
  cases hfind : s.callbacks.find? id with
  | none => exact h
  | some callback =>
      show (s.callbacks.erase id).find? other = none
      rw [OrdMap.find?_erase]
      split_ifs
      · rfl
      · exact h

/-- A request that is tracked is settled, and forgotten. -/
theorem Orderly.settle {loose : Option Nat} (h : s.Orderly loose) (hloose : ∀ other ∈ loose, other = id)
    (hreleased : s.Released id) (hlt : id < s.nextRequestId) :
    { s with settled := s.settled ++ [id], tracker := s.tracker.erase id }.Orderly none where
  fresh other hother := by
    obtain ⟨hcallback, htracker, hsettled, hstopped⟩ := h.fresh other hother
    have hother : other ≠ id := fun hsame => absurd hother (by simpa [hsame] using hlt)
    refine ⟨hcallback, ?_, ?_, hstopped⟩
    · show (s.tracker.erase id).find? other = none
      rw [OrdMap.find?_erase_of_ne _ hother]
      exact htracker
    · simp [hsettled, hother]
  tracked other context hin := h.tracked other context (OrdMap.find?_erase_eq_some_iff.mp hin).1
  held other hsome := by
    have hother : other ≠ id := by
      intro hsame
      subst hsame
      exact not_released_of_held hsome hreleased
    show ((s.tracker.erase id).find? other).isSome = true
    rw [OrdMap.find?_erase_of_ne _ hother]
    exact h.held other hsome
  leaves := h.leaves
  known other _ hother hin := by
    by_cases hsame : other = id
    · left
      simp [hsame]
    · have hne : loose ≠ some other := fun heq => hsame (hloose other heq)
      obtain hsettled | hstopped := h.known other hne hother hin
      · exact Or.inl (List.mem_append_left _ hsettled)
      · exact Or.inr hstopped
  settled other hin := by
    obtain hold | hnew := List.mem_append.mp hin
    · exact h.settled other hold
    · rw [List.mem_singleton.mp hnew]
      exact hreleased
  stopped := h.stopped
  lost other hin := by
    obtain hsettled | hstopped := h.lost other hin
    · exact Or.inl (List.mem_append_left _ hsettled)
    · exact Or.inr hstopped
  stopping := h.stopping
  opening := h.opening
  late := h.late

theorem Orderly.lt_next {loose : Option Nat} (h : s.Orderly loose) {context : ListenContext}
    (hfind : s.tracker.find? id = some context) : id < s.nextRequestId := by
  by_contra hle
  rw [(h.fresh id (Nat.le_of_not_lt hle)).2.1] at hfind
  cases hfind

/-- **An ending takes the callback with it**, and then the connection. -/
theorem Orderly.completeRequest (h : s.Orderly none) {context : ListenContext}
    (hfind : s.tracker.find? id = some context) :
    (s.completeRequest context).Orderly none ∧ id ∈ (s.completeRequest context).settled := by
  obtain ⟨hid, horigin, -, hsettled⟩ := h.tracked id context hfind
  obtain ⟨hloose, hreleased⟩ := h.releaseSubscription id
  have hcomplete : s.completeRequest context =
      { s.releaseSubscription id with
        settled := (s.releaseSubscription id).settled ++ [id]
        tracker := (s.releaseSubscription id).tracker.erase id } := by
    simp [ListeningClient.completeRequest, finish, finished, removeRequest, hid, horigin, hsettled]
  rw [hcomplete]
  refine ⟨hloose.settle (fun other hother => (Option.some_inj.mp hother).symm) hreleased ?_, by simp⟩
  rw [(s.releaseSubscription_frame id).2.1]
  exact h.lt_next hfind

theorem Orderly.completeRequestWithError (h : s.Orderly none) {context : ListenContext}
    (hfind : s.tracker.find? id = some context) :
    (s.completeRequestWithError context).Orderly none ∧ id ∈ (s.completeRequestWithError context).settled := by
  obtain ⟨-, -, hcompleted, -⟩ := h.tracked id context hfind
  rw [ListeningClient.completeRequestWithError, if_neg (by simp [hcompleted])]
  exact h.completeRequest hfind

/-- A request whose subscription is released already can be settled without. -/
theorem Orderly.abandonRequest (h : s.Orderly none) {context : ListenContext}
    (hfind : s.tracker.find? id = some context) (hreleased : s.Released id) :
    (s.abandonRequest context).Orderly none := by
  obtain ⟨hid, horigin, -, hsettled⟩ := h.tracked id context hfind
  have habandon : s.abandonRequest context =
      { s with settled := s.settled ++ [id], tracker := s.tracker.erase id } := by
    simp [ListeningClient.abandonRequest, finish, finished, removeRequest, hid, horigin, hsettled]
  rw [habandon]
  exact h.settle (fun _ hother => by cases hother) hreleased (h.lt_next hfind)

/-- A subscription its caller lets go of. -/
theorem Orderly.stop (h : s.Orderly (some id)) (hreleased : s.Released id) (hlt : id < s.nextRequestId)
    {opening : List Nat} (hopening : ∀ other ∈ opening, other ∈ s.opening) :
    { s with opening := opening, stopping := id :: s.stopping, stopped := s.stopped ++ [id] }.Orderly none where
  fresh other hother := by
    obtain ⟨hcallback, htracker, hsettled, hstopped⟩ := h.fresh other hother
    have hother : other ≠ id := fun hsame => absurd hother (by simpa [hsame] using hlt)
    exact ⟨hcallback, htracker, hsettled, by simp [hstopped, hother]⟩
  tracked := h.tracked
  held := h.held
  leaves := h.leaves
  known other _ hother hin := by
    by_cases hsame : other = id
    · right
      simp [hsame]
    · obtain hsettled | hstopped := h.known other (fun heq => hsame (Option.some_inj.mp heq).symm) hother hin
      · exact Or.inl hsettled
      · exact Or.inr (List.mem_append_left _ hstopped)
  settled := h.settled
  stopped other hin := by
    obtain hold | hnew := List.mem_append.mp hin
    · exact h.stopped other hold
    · rw [List.mem_singleton.mp hnew]
      exact hreleased
  lost other hin := by
    obtain hsettled | hstopped := h.lost other hin
    · exact Or.inl hsettled
    · exact Or.inr (List.mem_append_left _ hstopped)
  stopping other hin := by
    obtain rfl | hold := List.mem_cons.mp hin
    · simp
    · exact List.mem_append_left _ (h.stopping other hold)
  opening other hin := h.opening other (hopening other hin)
  late := h.late

/-! ### Connections of a subscription -/

theorem isSome_find?_insert (connections : OrdMap Nat ListenConnection) (id : Nat) (c : ListenConnection) (other : Nat) :
    ((connections.insert id c).find? other).isSome = ((connections.find? other).isSome || id == other) := by
  rw [OrdMap.find?_insert]
  split_ifs with hsame
  · simp [hsame]
  · simp [Ne.symm hsame]

/-- What a connection reads does not matter for whether it is there. -/
theorem Orderly.change (h : s.Orderly none) {c : ListenConnection} (hfind : s.connections.find? id = some c)
    (after : ListenConnection) : { s with connections := s.connections.insert id after }.Orderly none := by
  have hsame : ∀ other, ((s.connections.insert id after).find? other).isSome = (s.connections.find? other).isSome := by
    intro other
    rw [isSome_find?_insert]
    by_cases hother : id = other
    · subst hother
      simp [hfind]
    · simp [hother]
  refine { h with leaves := fun other hother => ?_, known := fun other hne hother hin => ?_ }
  · show remains other ((s.connections.insert id after).find? other).isSome s.posted = false
    rw [hsame]
    exact h.leaves other hother
  · refine h.known other hne hother ?_
    obtain hsome | hposted := hin
    · exact Or.inl ((hsame other).symm.trans hsome)
    · exact Or.inr hposted

theorem Orderly.eraseConnection (h : s.Orderly none) (id : Nat) :
    { s with connections := s.connections.erase id }.Orderly none := by
  refine { h with leaves := fun other hother => ?_, known := fun other hne hother hin => ?_ }
  · show remains other ((s.connections.erase id).find? other).isSome s.posted = false
    rw [OrdMap.find?_erase]
    split_ifs
    · exact remains_of_absent (h.leaves other hother)
    · exact h.leaves other hother
  · refine h.known other hne hother ?_
    obtain hsome | hposted := hin
    · obtain ⟨c, hc⟩ := Option.isSome_iff_exists.mp hsome
      exact Or.inl (by rw [(OrdMap.find?_erase_eq_some_iff.mp hc).1]; rfl)
    · exact Or.inr hposted

theorem Orderly.lose (h : s.Orderly none) (hended : id ∈ s.settled ∨ id ∈ s.stopped) :
    { s with lost := s.lost ++ [id] }.Orderly none := by
  refine { h with lost := fun other hin => ?_ }
  obtain hold | hnew := List.mem_append.mp hin
  · exact h.lost other hold
  · rw [List.mem_singleton.mp hnew]
    exact hended

/-- A subscription that has a connection, and no request, is one that ended. -/
theorem Orderly.ended_of_untracked (h : s.Orderly none) (hconnection : (s.connections.find? id).isSome = true)
    (huntracked : s.tracker.find? id = none) : id ∈ s.settled ∨ id ∈ s.stopped := by
  refine h.known id (by simp) ?_ (Or.inl hconnection)
  cases hcallback : s.callbacks.find? id with
  | none => exact hcallback
  | some callback =>
      have htracked := h.held id (by rw [hcallback]; rfl)
      rw [huntracked] at htracked
      cases htracked

/-- An answer that is cut off ends the request, where it did not end before. -/
theorem Orderly.answerSevered (h : s.Orderly none)
    (hknown : s.tracker.find? id = none → id ∈ s.settled ∨ id ∈ s.stopped) :
    (s.answerSevered id).Orderly none ∧ (id ∈ (s.answerSevered id).settled ∨ id ∈ (s.answerSevered id).stopped) := by
  rw [ListeningClient.answerSevered]
  cases hfind : s.tracker.find? id with
  | none => exact ⟨h, hknown hfind⟩
  | some context =>
      obtain ⟨hdone, hsettled⟩ := h.completeRequestWithError hfind
      exact ⟨hdone, Or.inl hsettled⟩

/-- What is noted of connections that were lost plays no part in it. -/
theorem answerSevered_lost (s : ListeningClient) (id : Nat) (lost : List Nat) :
    { s with lost := lost }.answerSevered id = { s.answerSevered id with lost := lost } := by
  unfold ListeningClient.answerSevered
  cases hfind : s.tracker.find? id with
  | none => simp
  | some context =>
      simp only
      unfold ListeningClient.completeRequestWithError
      split_ifs
      · rfl
      · unfold ListeningClient.completeRequest ListeningClient.releaseSubscription
        cases s.callbacks.find? context.id <;> rfl

theorem answerSevered_frame (s : ListeningClient) (id : Nat) :
    (s.answerSevered id).connections = s.connections ∧ (s.answerSevered id).lost = s.lost := by
  unfold ListeningClient.answerSevered
  cases s.tracker.find? id with
  | none => exact ⟨rfl, rfl⟩
  | some context =>
      simp only [ListeningClient.completeRequestWithError]
      split_ifs
      · exact ⟨rfl, rfl⟩
      · exact ⟨(s.releaseSubscription_frame context.id).2.2.1, (s.releaseSubscription_frame context.id).2.2.2⟩

theorem answerSevered_released {other : Nat} (h : s.Released other) : (s.answerSevered id).Released other := by
  unfold ListeningClient.answerSevered
  cases s.tracker.find? id with
  | none => exact h
  | some context =>
      simp only [ListeningClient.completeRequestWithError]
      split_ifs
      · exact h
      · exact releaseSubscription_released h

/-- A connection that was lost while its answer was read, or when there was nothing to do any more, belongs to a
subscription that has ended. -/
theorem Orderly.ended_of_losable (h : s.Orderly none) {c : ListenConnection} (hfind : s.connections.find? id = some c)
    (hup : c.isDown = false) (hlosable : s.Losable id) (hidle : c.readingEventStream = false) :
    id ∈ s.settled ∨ id ∈ s.stopped := by
  obtain hreading | hreleased := hlosable c hfind hup
  · rw [hidle] at hreading
    cases hreading
  · exact h.known id (by simp) hreleased (Or.inl (by rw [hfind]; rfl))

theorem Orderly.connectionClosed (h : s.Orderly none) (hlosable : s.Losable id) :
    (s.connectionClosed id).Orderly none := by
  unfold ListeningClient.connectionClosed
  cases hfind : s.connections.find? id with
  | none => exact h
  | some c =>
      have hchanged := h.change hfind { c with isDown := true }
      simp only
      split_ifs with hdown hreading
      · exact h
      · obtain ⟨hsevered, hended⟩ := hchanged.answerSevered (h.ended_of_untracked (by rw [hfind]; rfl))
        have hlose := hsevered.lose hended
        rw [(answerSevered_frame _ id).2] at hlose
        have hsame := answerSevered_lost { s with connections := s.connections.insert id { c with isDown := true } } id
          (s.lost ++ [id])
        exact (congrArg (fun after => after.Orderly none) hsame).mpr hlose
      · have hended := h.ended_of_losable hfind (Bool.eq_false_iff.mpr hdown) hlosable (Bool.eq_false_iff.mpr hreading)
        exact hchanged.lose hended

/-- A connection that the manager closes; those behind it can still be lost. -/
theorem Orderly.loseSubscription (h : s.Orderly none) (hlosable : s.Losable id) :
    (s.loseSubscription id).Orderly none ∧ ∀ other, s.Losable other → (s.loseSubscription id).Losable other := by
  unfold ListeningClient.loseSubscription ListeningClient.closeSubscription
  cases hfind : s.connections.find? id with
  | none =>
      simp only [Option.any_none, Bool.false_eq_true, if_false, List.append_nil]
      exact ⟨h, fun _ hother => hother⟩
  | some c =>
      have herased := h.eraseConnection id
      have hother : ∀ other, s.Losable other → { s with connections := s.connections.erase id }.Losable other := by
        intro other hlosable found hin hup
        exact hlosable found (OrdMap.find?_erase_eq_some_iff.mp hin).1 hup
      cases hdown : c.isDown with
      | true =>
          simp only [Option.any_some, hdown, Bool.not_true, Bool.false_and, Bool.false_eq_true, if_false,
            List.append_nil]
          exact ⟨herased, hother⟩
      | false =>
          cases hreading : c.readingEventStream with
          | false =>
              simp only [Option.any_some, hdown, hreading, Bool.not_false, Bool.and_false, Bool.false_eq_true,
                if_true, if_false]
              exact ⟨herased.lose (h.ended_of_losable hfind hdown hlosable hreading), hother⟩
          | true =>
              simp only [Option.any_some, hdown, hreading, Bool.not_false, Bool.and_true, if_true]
              obtain ⟨hsevered, hended⟩ := herased.answerSevered (h.ended_of_untracked (by rw [hfind]; rfl))
              have hlose := hsevered.lose hended
              rw [(answerSevered_frame _ id).2] at hlose
              have hsame := answerSevered_lost { s with connections := s.connections.erase id } id (s.lost ++ [id])
              refine (congrArg (fun after => after.Orderly none ∧ ∀ other, s.Losable other → after.Losable other)
                hsame).mpr ⟨hlose, fun other hlosable found hin hup => ?_⟩
              have hin : (({ s with connections := s.connections.erase id }.answerSevered id).connections).find? other =
                  some found := hin
              rw [(answerSevered_frame _ id).1] at hin
              obtain hstill | hreleased := hother other hlosable found hin hup
              · exact Or.inl hstill
              · exact Or.inr (answerSevered_released hreleased)

theorem Orderly.closeManager (h : s.Orderly none) (hlosable : ∀ id ∈ s.connections.keys, s.Losable id) :
    s.closeManager.Orderly none := by
  unfold ListeningClient.closeManager
  generalize s.connections.keys = keys at hlosable
  induction keys generalizing s with
  | nil => exact h
  | cons id keys ih =>
      obtain ⟨hlost, hothers⟩ := h.loseSubscription (hlosable id List.mem_cons_self)
      exact ih hlost fun other hin => hothers other (hlosable other (List.mem_cons_of_mem _ hin))

/-! ### Tasks and calls -/

theorem Orderly.openSubscription {rest : List ListenTask} (h : s.Orderly none)
    (hposted : s.posted = .openSubscription id :: rest) (canOpen : Bool) :
    ({ s with posted := rest }.openSubscription id canOpen).Orderly none := by
  have hleaves : ∀ other, s.Released other →
      remains other ((s.connections.find? other).isSome || id == other) rest = false := by
    intro other hother
    have hold := h.leaves other hother
    rw [hposted] at hold
    exact hold
  have hknown : ∀ other, s.Released other → (s.connections.find? other).isSome = true ∨ id = other ∨
      .openSubscription other ∈ rest → other ∈ s.settled ∨ other ∈ s.stopped := by
    intro other hother hin
    refine h.known other (by simp) hother ?_
    rw [hposted]
    obtain hsome | hsame | hlater := hin
    · exact Or.inl hsome
    · rw [hsame]
      exact Or.inr List.mem_cons_self
    · exact Or.inr (List.mem_cons_of_mem _ hlater)
  have hstays : { s with posted := rest }.Orderly none := by
    refine { h with leaves := fun other hother => ?_, known := fun other _ hother hin => ?_ }
    · have hopened := hleaves other hother
      cases hconnection : (s.connections.find? other).isSome with
      | false => exact remains_of_absent hopened
      | true =>
          rw [hconnection, Bool.true_or] at hopened
          exact hopened
    · obtain hsome | hlater := hin
      · exact hknown other hother (Or.inl hsome)
      · exact hknown other hother (Or.inr (Or.inr hlater))
  unfold ListeningClient.openSubscription
  split_ifs
  · exact hstays
  · refine { hstays with leaves := fun other hother => ?_, known := fun other _ hother hin => ?_ }
    · show remains other ((s.connections.insert id _).find? other).isSome rest = false
      rw [isSome_find?_insert]
      exact hleaves other hother
    · refine hknown other hother ?_
      obtain hsome | hlater := hin
      · have hsome : ((s.connections.insert id ⟨0, false, false⟩).find? other).isSome = true := hsome
        rw [isSome_find?_insert, Bool.or_eq_true, beq_iff_eq] at hsome
        obtain hsome | hsame := hsome
        · exact Or.inl hsome
        · exact Or.inr (Or.inl hsame)
      · exact Or.inr (Or.inr hlater)
  · exact hstays

/-- A task that opens nothing leaves the others to run. -/
theorem Orderly.startTask {task : ListenTask} {rest : List ListenTask} (h : s.Orderly none)
    (hposted : s.posted = task :: rest) (hopens : ∀ id, task ≠ .openSubscription id)
    (hcloses : ∀ id, task ≠ .closeSubscription id) : { s with posted := rest }.Orderly none := by
  refine { h with leaves := fun other hother => ?_, known := fun other hne hother hin => ?_ }
  · have hold := h.leaves other hother
    rw [hposted] at hold
    cases task with
    | openSubscription id => exact absurd rfl (hopens id)
    | closeSubscription id => exact absurd rfl (hcloses id)
    | cancel origin => exact hold
  · refine h.known other hne hother ?_
    obtain hsome | hlater := hin
    · exact Or.inl hsome
    · rw [hposted]
      exact Or.inr (List.mem_cons_of_mem _ hlater)

theorem Orderly.cancelRequest (h : s.Orderly none) (origin : Nat) : (s.cancelRequest origin).Orderly none := by
  unfold ListeningClient.cancelRequest
  split_ifs
  · refine { h with leaves := fun other hother => ?_, known := fun other hne hother hin => ?_ }
    · show remains other (s.connections.find? other).isSome (s.posted ++ [.cancel origin]) = false
      rw [remains_post]
      exact h.leaves other hother
    · refine h.known other hne hother ?_
      obtain hsome | hposted := hin
      · exact Or.inl hsome
      · obtain hold | hnew := List.mem_append.mp hposted
        · exact Or.inr hold
        · cases List.mem_singleton.mp hnew
  · exact h

theorem Orderly.listen (h : s.Orderly none) (callback : Nat) : (s.listen callback).Orderly none := by
  have hold : ∀ other, (s.callbacks.insert s.nextRequestId callback).find? other = none →
      other ≠ s.nextRequestId ∧ s.Released other := by
    intro other hnone
    rw [OrdMap.find?_insert] at hnone
    split_ifs at hnone with hsame
    exact ⟨hsame, hnone⟩
  have hkept : ∀ other, other < s.nextRequestId → s.Released other →
      (s.callbacks.insert s.nextRequestId callback).find? other = none := by
    intro other hlt hreleased
    rw [OrdMap.find?_insert_of_ne _ (Nat.ne_of_lt hlt)]
    exact hreleased
  have hbefore : ∀ other, other ∈ s.settled ∨ other ∈ s.stopped → other < s.nextRequestId := by
    intro other hin
    by_contra hle
    obtain ⟨-, -, hsettled, hstopped⟩ := h.fresh other (Nat.le_of_not_lt hle)
    obtain hin | hin := hin
    · exact hsettled hin
    · exact hstopped hin
  refine ⟨fun other hother => ?_, fun other context hin => ?_, fun other hsome => ?_, fun other hother => ?_,
    fun other _ hother hin => ?_, fun other hin => hkept other (hbefore other (Or.inl hin)) (h.settled other hin),
    fun other hin => hkept other (hbefore other (Or.inr hin)) (h.stopped other hin), h.lost, h.stopping,
    fun other hin => ?_, h.late⟩
  · have hlt : s.nextRequestId < other := hother
    obtain ⟨hcallback, htracker, hrest⟩ := h.fresh other (Nat.le_of_lt hlt)
    have hne := (Nat.ne_of_lt hlt).symm
    exact ⟨(OrdMap.find?_insert_of_ne _ hne _).trans hcallback, (OrdMap.find?_insert_of_ne _ hne _).trans htracker,
      hrest⟩
  · have hin : (s.tracker.insert s.nextRequestId ⟨s.nextRequestId, s.nextRequestId, s.now, 0, false, false, false⟩).find?
        other = some context := hin
    rw [OrdMap.find?_insert] at hin
    split_ifs at hin with hsame
    · cases hin
      exact ⟨hsame.symm, hsame.symm, rfl, rfl⟩
    · exact h.tracked other context hin
  · have hsome : ((s.callbacks.insert s.nextRequestId callback).find? other).isSome = true := hsome
    show ((s.tracker.insert s.nextRequestId _).find? other).isSome = true
    rw [OrdMap.find?_insert] at hsome ⊢
    split_ifs with hsame
    · rfl
    · rw [if_neg hsame] at hsome
      exact h.held other hsome
  · obtain ⟨hne, hreleased⟩ := hold other hother
    show remains other (s.connections.find? other).isSome (s.posted ++ [.openSubscription s.nextRequestId]) = false
    rw [remains_post]
    simp [remainsAfter, h.leaves other hreleased, Ne.symm hne]
  · obtain ⟨hne, hreleased⟩ := hold other hother
    refine h.known other (by simp) hreleased ?_
    obtain hsome | hposted := hin
    · exact Or.inl hsome
    · obtain hposted | hnew := List.mem_append.mp hposted
      · exact Or.inr hposted
      · cases List.mem_singleton.mp hnew
        exact absurd rfl hne
  · obtain rfl | hin := List.mem_cons.mp hin
    · exact Nat.lt_succ_self _
    · exact Nat.lt_succ_of_lt (h.opening other hin)

theorem Orderly.stopListening (h : s.Orderly none) (id : Nat) : (s.stopListening id).Orderly none := by
  unfold ListeningClient.stopListening
  split_ifs with hheld
  · obtain ⟨hloose, hreleased⟩ := h.releaseSubscription id
    have hlt : id < (s.releaseSubscription id).nextRequestId := by
      rw [(s.releaseSubscription_frame id).2.1]
      by_contra hle
      rw [(h.fresh id (Nat.le_of_not_lt hle)).1] at hheld
      cases hheld
    obtain ⟨hstopping, hstopped, hopening⟩ := s.releaseSubscription_calls id
    have hstop := hloose.stop hreleased hlt fun _ hother => hother
    rw [hstopping, hstopped] at hstop
    exact hstop
  · exact h

theorem Orderly.listenGivesUp (h : s.Orderly none) (id : Nat) : (s.listenGivesUp id).Orderly none := by
  unfold ListeningClient.listenGivesUp
  split_ifs with hopening
  · obtain ⟨hloose, hreleased⟩ := h.releaseSubscription id
    have hlt : id < (s.releaseSubscription id).nextRequestId := by
      rw [(s.releaseSubscription_frame id).2.1]
      exact h.opening id (List.contains_iff_mem.mp hopening)
    obtain ⟨hstopping, hstopped, hcalls⟩ := s.releaseSubscription_calls id
    have hsubset : ∀ other ∈ s.opening.erase id, other ∈ (s.releaseSubscription id).opening := by
      intro other hother
      rw [hcalls]
      exact List.mem_of_mem_erase hother
    have hstop := hloose.stop hreleased hlt hsubset
    rw [hstopping, hstopped] at hstop
    exact hstop
  · exact h

theorem Orderly.stopListeningReturns (h : s.Orderly none) (id : Nat) : (s.stopListeningReturns id).Orderly none := by
  unfold ListeningClient.stopListeningReturns
  split_ifs with hstopping
  · have hreleased := h.stopped id (h.stopping id (List.contains_iff_mem.mp hstopping))
    refine { h with
      fresh := fun other hother => ?_, tracked := fun other context hin => ?_, held := fun other hsome => ?_,
      stopping := fun other hin => h.stopping other (List.mem_of_mem_erase hin) }
    · obtain ⟨hcallback, htracker, hrest⟩ := h.fresh other hother
      refine ⟨hcallback, ?_, hrest⟩
      show (s.tracker.erase id).find? other = none
      rw [OrdMap.find?_erase, htracker, ite_self]
    · exact h.tracked other context (OrdMap.find?_erase_eq_some_iff.mp hin).1
    · have hother : other ≠ id := by
        intro hsame
        subst hsame
        exact not_released_of_held hsome hreleased
      show ((s.tracker.erase id).find? other).isSome = true
      rw [OrdMap.find?_erase_of_ne _ hother]
      exact h.held other hsome
  · exact h

/-- Requests that are out for too long are settled; their subscriptions are released already. -/
theorem Orderly.mainClosed (h : s.Orderly none) (hproper : s.Proper .mainClosed) : s.mainClosed.Orderly none := by
  have htracked : ∀ context ∈ s.tracker.values, s.tracker.find? context.id = some context := by
    intro context hin
    obtain ⟨⟨id, found⟩, hentry, rfl⟩ := List.mem_map.mp hin
    have hfind := (s.tracker.mem_entries_iff).mp hentry
    rw [(h.tracked id found hfind).1]
    exact hfind
  have hnew : ∀ other ∈ (s.tracker.values.filter s.timedOut).flatMap finished,
      s.Released other ∧ other < s.nextRequestId := by
    intro other hin
    obtain ⟨context, hcontext, hfinished⟩ := List.mem_flatMap.mp hin
    obtain ⟨hvalue, hout⟩ := List.mem_filter.mp hcontext
    obtain ⟨-, horigin, -, hsettled⟩ := h.tracked _ context (htracked context hvalue)
    rw [finished, if_neg (by simp [hsettled]), horigin] at hfinished
    rw [List.mem_singleton.mp hfinished]
    exact ⟨hproper context hvalue hout, h.lt_next (htracked context hvalue)⟩
  refine { h with
    fresh := fun other hother => ?_, tracked := fun other context hin => ?_, held := fun other hsome => ?_,
    known := fun other hne hother hin => ?_, settled := fun other hin => ?_, lost := fun other hin => ?_ }
  · obtain ⟨hcallback, htracker, hsettled, hstopped⟩ := h.fresh other hother
    refine ⟨hcallback, ?_, fun hin => ?_, hstopped⟩
    · show (s.tracker.filter _).find? other = none
      rw [OrdMap.find?_filter, htracker]
      rfl
    · obtain hold | hin := List.mem_append.mp hin
      · exact hsettled hold
      · exact absurd hother (Nat.not_le_of_lt (hnew other hin).2)
  · have hin : (s.tracker.filter fun _ context => !s.timedOut context).find? other = some context := hin
    rw [OrdMap.find?_filter] at hin
    exact h.tracked other context (Option.filter_eq_some_iff.mp hin).1
  · obtain ⟨context, hcontext⟩ := Option.isSome_iff_exists.mp (h.held other hsome)
    have hid := (h.tracked other context hcontext).1
    have hin : context ∈ s.tracker.values := List.mem_map.mpr ⟨_, (s.tracker.mem_entries_iff).mpr hcontext, rfl⟩
    have hout : s.timedOut context = false := by
      by_contra hout
      have hreleased := hproper context hin (Bool.not_eq_false _ ▸ hout)
      rw [hid] at hreleased
      exact not_released_of_held hsome hreleased
    show ((s.tracker.filter fun _ context => !s.timedOut context).find? other).isSome = true
    rw [OrdMap.find?_filter, hcontext]
    simp [hout]
  · obtain hsettled | hstopped := h.known other hne hother hin
    · exact Or.inl (List.mem_append_left _ hsettled)
    · exact Or.inr hstopped
  · obtain hold | hin := List.mem_append.mp hin
    · exact h.settled other hold
    · exact (hnew other hin).1
  · obtain hsettled | hstopped := h.lost other hin
    · exact Or.inl (List.mem_append_left _ hsettled)
    · exact Or.inr hstopped

theorem Orderly.handleTransportStatus (h : s.Orderly none) (status id : Nat) (recoverable : Bool) :
    (s.handleTransportStatus status id recoverable).Orderly none := by
  unfold ListeningClient.handleTransportStatus
  split_ifs
  · exact h
  · cases hfind : s.tracker.find? id with
    | none => exact h
    | some context =>
        simp only
        split_ifs
        · refine { h with
            fresh := fun other hother => ?_, tracked := fun other found hin => ?_, held := fun other hsome => ?_ }
          · obtain ⟨hcallback, htracker, hrest⟩ := h.fresh other hother
            have hother : other ≠ id := by
              intro hsame
              rw [hsame, hfind] at htracker
              cases htracker
            exact ⟨hcallback, (OrdMap.find?_insert_of_ne _ hother _).trans htracker, hrest⟩
          · have hin : (s.tracker.insert id { context with sessionRetried := true }).find? other = some found := hin
            rw [OrdMap.find?_insert] at hin
            split_ifs at hin with hsame
            · cases hin
              rw [hsame]
              exact h.tracked id context hfind
            · exact h.tracked other found hin
          · show ((s.tracker.insert id _).find? other).isSome = true
            rw [OrdMap.find?_insert]
            split_ifs
            · rfl
            · exact h.held other hsome
        · exact (h.completeRequestWithError hfind).1

theorem Orderly.handleResponse (h : s.Orderly none) {question sent : Bool}
    (hproper : s.Proper (.response id question sent)) : (s.handleResponse id question sent).Orderly none := by
  unfold ListeningClient.handleResponse
  cases hfind : s.tracker.find? id with
  | none => exact h
  | some context =>
      simp only
      split_ifs with hcompleted hquestion
      · exact h
      · obtain ⟨hasks, hrounds⟩ := Bool.and_eq_true_iff.mp hquestion
        exact absurd (of_decide_eq_true hrounds) (Nat.not_lt_of_le (hproper hasks context hfind))
      · exact (h.completeRequest hfind).1

/-- A task that closes a connection, and the connection with it. -/
theorem Orderly.runClose {rest : List ListenTask} (h : s.Orderly none)
    (hposted : s.posted = .closeSubscription id :: rest) :
    ({ s with posted := rest }.closeSubscription id).Orderly none := by
  have herased : { s with posted := rest, connections := s.connections.erase id }.Orderly none := by
    refine { h with leaves := fun other hother => ?_, known := fun other hne hother hin => ?_ }
    · have hold := h.leaves other hother
      rw [hposted] at hold
      have hold : remains other ((s.connections.find? other).isSome && id != other) rest = false := hold
      show remains other ((s.connections.erase id).find? other).isSome rest = false
      rw [OrdMap.find?_erase]
      by_cases hsame : other = id
      · rw [if_pos hsame]
        simpa [hsame] using hold
      · have hdiff : (id != other) = true := bne_iff_ne.mpr (Ne.symm hsame)
        rw [hdiff, Bool.and_true] at hold
        rw [if_neg hsame]
        exact hold
    · refine h.known other hne hother ?_
      obtain hsome | hlater := hin
      · obtain ⟨c, hc⟩ := Option.isSome_iff_exists.mp hsome
        exact Or.inl (by rw [(OrdMap.find?_erase_eq_some_iff.mp hc).1]; rfl)
      · rw [hposted]
        exact Or.inr (List.mem_cons_of_mem _ hlater)
  unfold ListeningClient.closeSubscription
  cases hfind : s.connections.find? id with
  | none =>
      rw [OrdMap.erase_of_find?_eq_none hfind] at herased
      exact herased
  | some c =>
      simp only
      split_ifs
      · exact (herased.answerSevered (h.ended_of_untracked (by rw [hfind]; rfl))).1
      · exact herased

theorem Orderly.runPosted (h : s.Orderly none) {canOpen : Bool} (hproper : s.Proper (.runPosted canOpen)) :
    (s.runPosted canOpen).Orderly none := by
  unfold ListeningClient.runPosted
  cases hposted : s.posted with
  | nil => exact h
  | cons task rest =>
      cases task with
      | openSubscription id => exact h.openSubscription hposted canOpen
      | closeSubscription id => exact h.runClose hposted
      | cancel origin =>
          have hstarted := h.startTask hposted (by simp) (by simp)
          show (((s.findByOrigin origin).map { s with posted := rest }.abandonRequest).getD
            { s with posted := rest }).Orderly none
          cases hfind : s.findByOrigin origin with
          | none => exact hstarted
          | some context =>
              obtain ⟨⟨id, found⟩, hentry, rfl⟩ := Option.map_eq_some_iff.mp hfind
              have hfound := (s.tracker.mem_entries_iff).mp (List.mem_of_find?_eq_some hentry)
              have hreleased : s.Released found.id := hproper (.cancel origin) (by rw [hposted]; rfl) found hfind
              rw [(h.tracked id found hfound).1] at hreleased
              exact hstarted.abandonRequest hfound hreleased

/-! ### Runs -/

theorem orderly_step (h : s.Orderly none) {op : ListenOp} (hproper : s.Proper op) : (s.step op).Orderly none := by
  cases op with
  | listen callback => exact h.listen callback
  | listenReturns id => exact { h with opening := fun other hin => h.opening other (List.mem_of_mem_erase hin) }
  | listenGivesUp id => exact h.listenGivesUp id
  | stopListening id => exact h.stopListening id
  | stopListeningReturns id => exact h.stopListeningReturns id
  | cancelRequest origin => exact h.cancelRequest origin
  | otherRequest =>
      exact { h with
        fresh := fun other hother => h.fresh other (Nat.le_of_succ_le hother)
        opening := fun other hin => Nat.lt_succ_of_lt (h.opening other hin) }
  | runPosted canOpen => exact h.runPosted hproper
  | onHeaders id status eventStream =>
      show (s.onHeaders id status eventStream).Orderly none
      unfold ListeningClient.onHeaders
      cases hfind : s.connections.find? id with
      | none => exact h
      | some c => exact h.change hfind _
  | onMessageComplete id recoverable =>
      show (s.onMessageComplete id recoverable).Orderly none
      unfold ListeningClient.onMessageComplete
      cases hfind : s.connections.find? id with
      | none => exact h
      | some c =>
          have hended := h.change hfind { c with responseStatus := 0, readingEventStream := false }
          simp only
          split_ifs
          · exact hended
          · exact hended.handleTransportStatus _ id recoverable
  | connectionClosed id => exact h.connectionClosed hproper
  | response id question sent => exact h.handleResponse hproper
  | notification id =>
      show (s.routeToSubscription id).Orderly none
      unfold ListeningClient.routeToSubscription
      split_ifs with hlate
      · simp only [Bool.and_eq_true, List.contains_iff_mem] at hlate
        obtain ⟨⟨hheld, hsettled⟩, -⟩ := hlate
        exact absurd (h.settled id hsettled) (not_released_of_held hheld)
      · exact h
  | mainClosed => exact h.mainClosed hproper
  | closeManager => exact h.closeManager hproper
  | tick elapsed => exact { h with }

/-- **A subscription ends everywhere at once**, in every state of a run in which no subscription that is held is
cancelled, is out for too long when the main connection goes, is answered by a question, or loses a connection on
which no answer stream is being read. -/
theorem endsEverywhere_run (requestTimeout mrtrMaxRounds : Nat) {ops before after : List ListenOp}
    (h : Runs.Guarded step Proper (new requestTimeout mrtrMaxRounds) ops) (hsplit : ops = before ++ after) :
    (Runs.run step (new requestTimeout mrtrMaxRounds) before).EndsEverywhere := by
  rw [hsplit] at h
  obtain ⟨hbefore, -⟩ := (Runs.guarded_append step).mp h
  have horderly : (Runs.run step (new requestTimeout mrtrMaxRounds) before).Orderly none :=
    @Runs.invariant _ _ step Proper (fun s => s.Orderly none) (fun _ _ hproper horderly => orderly_step horderly hproper)
      _ (orderly_new requestTimeout mrtrMaxRounds) _ hbefore
  exact horderly.endsEverywhere

/-- Two subscriptions, one that the server ends and one that is cut off. -/
def twoEndings : List ListenOp :=
  [.listen 7, .listen 8, .runPosted true, .runPosted true, .listenReturns 1, .listenReturns 2, .onHeaders 1 200 true,
    .onHeaders 2 200 true, .notification 1, .response 1 false true, .runPosted true, .connectionClosed 2,
    .runPosted true, .notification 2]

theorem endsEverywhere_run_twoEndings :
    Runs.Guarded step Proper (new 30000 10) twoEndings ∧ (Runs.run step (new 30000 10) twoEndings).EndsEverywhere := by
  have h : Runs.Guarded step Proper (new 30000 10) twoEndings := by
    decide
  exact ⟨h, endsEverywhere_run 30000 10 h (List.append_nil twoEndings).symm⟩

/-- A subscription that is cancelled by its id. -/
def cancelled : List ListenOp :=
  [.listen 7, .runPosted true, .listenReturns 1, .onHeaders 1 200 true, .cancelRequest 1, .runPosted true]

theorem not_always_endsEverywhere : ¬ (Runs.run step (new 30000 10) cancelled).EndsEverywhere := by
  intro h
  have hgone := h.settled (by decide) 1 (by decide)
  exact absurd hgone.1 (by decide)

end ListeningClient

end GopherMcp
