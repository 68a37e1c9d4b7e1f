import GopherMcp.Server.TaskKeys

/-!
# What holds of every task

The invariant has a part for the history and the calls, which knows of no entry, and a part for each
entry against that history. An operation replaces one entry and adds events and calls of that entry's
task only, so every other entry keeps its part, and only the replaced one needs work.
-/

namespace GopherMcp

namespace TaskStore

/-! ### The history and the calls -/

/-- The task an event is about. -/
def Event.born : Event → Nat
  | .asked born _ _ => born
  | .watched born _ => born
  | .cancelled born => born

/-- The task a call to a question or an observer is about. -/
def Call.born : Call → Option Nat
  | .changed _ => none
  | .answered born _ _ => some born
  | .observed born _ => some born

/-- The event asks this key of this task. -/
def Event.Asks (born : Nat) (key : Bytes) : Event → Prop
  | .asked other _ keys => other = born ∧ key ∈ keys
  | _ => False

/-- The call delivers the answer to this key of this task. -/
def Call.Delivers (born : Nat) (key : Bytes) : Call → Prop
  | .answered other _ answers => other = born ∧ key ∈ answers.keys
  | _ => False

/-- The call is one of this observer. -/
def Call.Observes (observer : Nat) : Call → Prop
  | .observed _ other => other = observer
  | _ => False

structure Ledger (history : List Event) (calls : List Call) (next : Nat) : Prop where
  numbered : ∀ event ∈ history, event.born < next ∧
    ∀ born observer, event = .watched born observer → observer < next
  askedOnce : history.Pairwise fun earlier later =>
    ∀ born key, earlier.Asks born key → ¬ later.Asks born key
  delivered : ∀ born question answers, .answered born question answers ∈ calls →
    ∃ keys, .asked born question keys ∈ history ∧ ∀ key ∈ answers.keys, key ∈ keys
  deliveredOnce : calls.Pairwise fun earlier later =>
    ∀ born key, earlier.Delivers born key → ¬ later.Delivers born key
  watchedOnce : ∀ born born' observer, .watched born observer ∈ history →
    .watched born' observer ∈ history → born = born'
  observed : ∀ born observer, .observed born observer ∈ calls →
    .watched born observer ∈ history ∧ .cancelled born ∈ history
  observedOnce : calls.Pairwise fun earlier later =>
    ∀ observer, earlier.Observes observer → ¬ later.Observes observer

theorem ledger_empty (next : Nat) : Ledger [] [] next where
  numbered _ h := by simp at h
  askedOnce := List.Pairwise.nil
  delivered _ _ _ h := by simp at h
  deliveredOnce := List.Pairwise.nil
  watchedOnce _ _ _ h := by simp at h
  observed _ _ h := by simp at h
  observedOnce := List.Pairwise.nil

/-! ### Entries -/

/-- The fields of an entry agree with each other. -/
structure Agrees (entry : Entry) : Prop where
  published : ∀ key, key ∈ entry.task.inputRequests.keys ↔ key ∈ entry.outstanding.keys
  waiting : entry.task.status = .inputRequired ↔ entry.outstanding.keys ≠ []
  used : ∀ key ∈ entry.outstanding.keys, key ∈ entry.usedKeys.keys
  cancelled : entry.cancelRequested = true → entry.task.status = .cancelled

structure EntrySound (history : List Event) (calls : List Call) (next : Nat) (entry : Entry) :
    Prop where
  agrees : Agrees entry
  born : entry.born < next
  asked : ∀ event ∈ history, ∀ key, event.Asks entry.born key → key ∈ entry.usedKeys.keys
  pending : entry.outstanding.keys ≠ [] → ∃ question keys,
    .asked entry.born question keys ∈ history ∧ (∀ key ∈ entry.outstanding.keys, key ∈ keys) ∧
      ∀ waiting ∈ entry.onAnswered, waiting = question
  delivered : ∀ call ∈ calls, ∀ key, call.Delivers entry.born key → key ∉ entry.outstanding.keys
  observers : ∀ observer ∈ entry.onCancelled, .watched entry.born observer ∈ history ∧
    ∀ call ∈ calls, ¬ call.Observes observer
  distinct : entry.onCancelled.Nodup
  requested : entry.cancelRequested = true → .cancelled entry.born ∈ history

structure Sound (s : State) : Prop where
  ledger : Ledger s.history s.calls s.nextNumber
  entries : ∀ id entry, s.entries.find? id = some entry →
    EntrySound s.history s.calls s.nextNumber entry
  apart : ∀ id id' entry entry', s.entries.find? id = some entry →
    s.entries.find? id' = some entry' → entry.born = entry'.born → id = id'

theorem sound_empty (config : Config) : Sound (State.empty config) where
  ledger := ledger_empty 0
  entries _ _ h := by simp [State.empty] at h
  apart _ _ _ _ h := by simp [State.empty] at h

/-- An entry is not touched by what happens to another task. -/
theorem EntrySound.other {history events : List Event} {calls made : List Call} {next next' : Nat}
    {entry : Entry} {born : Nat} (h : EntrySound history calls next entry)
    (hledger : Ledger (history ++ events) (calls ++ made) next') (hnext : next ≤ next')
    (hevents : ∀ event ∈ events, event.born = born)
    (hmade : ∀ call ∈ made, ∀ other ∈ call.born, other = born) (hborn : entry.born ≠ born) :
    EntrySound (history ++ events) (calls ++ made) next' entry where
  agrees := h.agrees
  born := h.born.trans_le hnext
  asked event hevent key hasks := by
    rcases List.mem_append.mp hevent with hold | hnew
    · exact h.asked event hold key hasks
    · have heq := hevents event hnew
      cases event <;> simp_all [Event.Asks, Event.born]
  pending hpending := by
    obtain ⟨question, keys, hasked, hkeys⟩ := h.pending hpending
    exact ⟨question, keys, List.mem_append_left _ hasked, hkeys⟩
  delivered call hcall key hdelivers := by
    rcases List.mem_append.mp hcall with hold | hnew
    · exact h.delivered call hold key hdelivers
    · have heq := hmade call hnew
      cases call <;> simp_all [Call.Delivers, Call.born]
  observers observer hobserver := by
    obtain ⟨hwatched, hnot⟩ := h.observers observer hobserver
    refine ⟨List.mem_append_left _ hwatched, fun call hcall hobserves => ?_⟩
    rcases List.mem_append.mp hcall with hold | hnew
    · exact hnot call hold hobserves
    · cases call with
      | observed other number =>
          obtain rfl : number = observer := hobserves
          have hother := (hledger.observed other number hcall).1
          have hsame := hledger.watchedOnce _ _ _ hother (List.mem_append_left _ hwatched)
          exact hborn (hsame ▸ hmade _ hnew other rfl)
      | changed task => exact hobserves
      | answered other question answers => exact hobserves
  distinct := h.distinct
  requested hrequested := List.mem_append_left _ (h.requested hrequested)

/-- **One entry is replaced**, with events and calls about its task alone. -/
theorem Sound.replace {s : State} (h : Sound s) {id : Bytes} {entry entry' : Entry}
    (hfind : s.entries.find? id = some entry) (hborn : entry'.born = entry.born)
    {events : List Event} {made : List Call} {next : Nat} (hnext : s.nextNumber ≤ next)
    (hevents : ∀ event ∈ events, event.born = entry.born)
    (hmade : ∀ call ∈ made, ∀ other ∈ call.born, other = entry.born)
    (hledger : Ledger (s.history ++ events) (s.calls ++ made) next)
    (hentry : EntrySound (s.history ++ events) (s.calls ++ made) next entry') :
    Sound
      { s with
        entries := s.entries.insert id entry'
        nextNumber := next
        calls := s.calls ++ made
        history := s.history ++ events } where
  ledger := hledger
  entries other found hfound := by
    change (s.entries.insert id entry').find? other = some found at hfound
    rw [OrdMap.find?_insert] at hfound
    split_ifs at hfound with hother
    · cases hfound
      exact hentry
    · refine (h.entries other found hfound).other hledger hnext hevents hmade fun heq => ?_
      exact hother (h.apart other id found entry hfound hfind heq)
  apart left right found found' hleft hright heq := by
    change (s.entries.insert id entry').find? left = some found at hleft
    change (s.entries.insert id entry').find? right = some found' at hright
    rw [OrdMap.find?_insert] at hleft hright
    split_ifs at hleft hright with hl hr hr
    · rw [hl, hr]
    · cases hleft
      exact hl.trans (h.apart id right entry found' hfind hright (hborn ▸ heq))
    · cases hright
      exact (h.apart left id found entry hleft hfind (heq.trans hborn)).trans hr.symm
    · exact h.apart left right found found' hleft hright heq

/-- Events and calls may be added about the task of one entry, if that entry keeps its part. -/
theorem Sound.extend {s : State} (h : Sound s) {id : Bytes} {entry : Entry}
    (hfind : s.entries.find? id = some entry) {events : List Event} {made : List Call} {next : Nat}
    (hnext : s.nextNumber ≤ next) (hevents : ∀ event ∈ events, event.born = entry.born)
    (hmade : ∀ call ∈ made, ∀ other ∈ call.born, other = entry.born)
    (hledger : Ledger (s.history ++ events) (s.calls ++ made) next)
    (hentry : EntrySound (s.history ++ events) (s.calls ++ made) next entry) :
    Sound
      { s with
        nextNumber := next
        calls := s.calls ++ made
        history := s.history ++ events } where
  ledger := hledger
  entries other found hfound := by
    by_cases hborn : found.born = entry.born
    · obtain rfl := h.apart other id found entry hfound hfind hborn
      cases hfound.symm.trans hfind
      exact hentry
    · exact (h.entries other found hfound).other hledger hnext hevents hmade hborn
  apart := h.apart

/-! ### What may be added -/

section Adding

variable {history : List Event} {calls made : List Call} {next : Nat} {entry : Entry}

/-- Calls of no question and no observer may be added. -/
theorem Ledger.addQuiet (h : Ledger history calls next) (hmade : ∀ call ∈ made, call.born = none) :
    Ledger history (calls ++ made) next where
  numbered := h.numbered
  askedOnce := h.askedOnce
  delivered born question answers hmem := by
    refine h.delivered born question answers ((List.mem_append.mp hmem).resolve_right fun hnew => ?_)
    exact absurd (hmade _ hnew) (by simp [Call.born])
  deliveredOnce := by
    refine List.pairwise_append.mpr ⟨h.deliveredOnce, ?_, ?_⟩
    · refine List.pairwise_iff_forall_sublist.mpr fun {_ later} hsub born key _ hdelivers => ?_
      have hlater := hmade later (hsub.subset (by simp))
      cases later <;> simp_all [Call.Delivers, Call.born]
    · intro earlier _ later hlater born key _ hdelivers
      have hnone := hmade later hlater
      cases later <;> simp_all [Call.Delivers, Call.born]
  watchedOnce := h.watchedOnce
  observed born observer hmem := by
    refine h.observed born observer ((List.mem_append.mp hmem).resolve_right fun hnew => ?_)
    exact absurd (hmade _ hnew) (by simp [Call.born])
  observedOnce := by
    refine List.pairwise_append.mpr ⟨h.observedOnce, ?_, ?_⟩
    · refine List.pairwise_iff_forall_sublist.mpr fun {_ later} hsub observer _ hobserves => ?_
      have hlater := hmade later (hsub.subset (by simp))
      cases later <;> simp_all [Call.Observes, Call.born]
    · intro earlier _ later hlater observer _ hobserves
      have hnone := hmade later hlater
      cases later <;> simp_all [Call.Observes, Call.born]

/-- The answers to a question may be delivered, if none of them was. -/
theorem Ledger.addAnswer (h : Ledger history calls next) {born question : Nat} {answers : Answers}
    {keys : List Bytes} (hasked : .asked born question keys ∈ history)
    (hkeys : ∀ key ∈ answers.keys, key ∈ keys)
    (hnew : ∀ call ∈ calls, ∀ key ∈ answers.keys, ¬ call.Delivers born key) :
    Ledger history (calls ++ [.answered born question answers]) next where
  numbered := h.numbered
  askedOnce := h.askedOnce
  delivered other question' answers' hmem := by
    rcases List.mem_append.mp hmem with hold | hlast
    · exact h.delivered other question' answers' hold
    · cases List.mem_singleton.mp hlast
      exact ⟨keys, hasked, hkeys⟩
  deliveredOnce := by
    refine List.pairwise_append.mpr ⟨h.deliveredOnce, List.pairwise_singleton _ _, ?_⟩
    intro earlier hearlier later hlater other key hdelivers hdelivered
    obtain rfl := List.mem_singleton.mp hlater
    obtain ⟨rfl, hkey⟩ := hdelivered
    exact hnew earlier hearlier key hkey hdelivers
  watchedOnce := h.watchedOnce
  observed other observer hmem := by
    rcases List.mem_append.mp hmem with hold | hlast
    · exact h.observed other observer hold
    · cases List.mem_singleton.mp hlast
  observedOnce := by
    refine List.pairwise_append.mpr ⟨h.observedOnce, List.pairwise_singleton _ _, ?_⟩
    intro earlier _ later hlater observer _ hobserves
    obtain rfl := List.mem_singleton.mp hlater
    exact hobserves

/-- An observer that was not called may be, once its task is cancelled. -/
theorem Ledger.addObserved (h : Ledger history calls next) {born observer : Nat}
    (hwatched : .watched born observer ∈ history) (hcancelled : .cancelled born ∈ history)
    (hnew : ∀ call ∈ calls, ¬ call.Observes observer) :
    Ledger history (calls ++ [.observed born observer]) next where
  numbered := h.numbered
  askedOnce := h.askedOnce
  delivered other question answers hmem := by
    rcases List.mem_append.mp hmem with hold | hlast
    · exact h.delivered other question answers hold
    · cases List.mem_singleton.mp hlast
  deliveredOnce := by
    refine List.pairwise_append.mpr ⟨h.deliveredOnce, List.pairwise_singleton _ _, ?_⟩
    intro earlier _ later hlater other key _ hdelivers
    obtain rfl := List.mem_singleton.mp hlater
    exact hdelivers
  watchedOnce := h.watchedOnce
  observed other observer' hmem := by
    rcases List.mem_append.mp hmem with hold | hlast
    · exact h.observed other observer' hold
    · cases List.mem_singleton.mp hlast
      exact ⟨hwatched, hcancelled⟩
  observedOnce := by
    refine List.pairwise_append.mpr ⟨h.observedOnce, List.pairwise_singleton _ _, ?_⟩
    intro earlier hearlier later hlater observer' hearly hobserves
    obtain rfl := List.mem_singleton.mp hlater
    obtain rfl : observer = observer' := hobserves
    exact hnew earlier hearlier hearly

/-- Every observer of a cancelled task may be called. -/
theorem Ledger.addObservers (h : Ledger history calls next) {born : Nat} {observers : List Nat}
    (hnodup : observers.Nodup) (hwatched : ∀ observer ∈ observers, .watched born observer ∈ history)
    (hcancelled : .cancelled born ∈ history)
    (hnew : ∀ observer ∈ observers, ∀ call ∈ calls, ¬ call.Observes observer) :
    Ledger history (calls ++ observers.map fun observer => .observed born observer) next := by
  induction observers generalizing calls with
  | nil => simpa using h
  | cons observer rest ih =>
      obtain ⟨hhead, hrest⟩ := List.nodup_cons.mp hnodup
      have hone := h.addObserved (hwatched observer List.mem_cons_self) hcancelled
        (hnew observer List.mem_cons_self)
      rw [List.map_cons, ← List.singleton_append, ← List.append_assoc]
      refine ih hone hrest (fun other hmem => hwatched other (List.mem_cons_of_mem _ hmem)) ?_
      intro other hmem call hcall hobserves
      rcases List.mem_append.mp hcall with hold | hlast
      · exact hnew other (List.mem_cons_of_mem _ hmem) call hold hobserves
      · obtain rfl := List.mem_singleton.mp hlast
        obtain rfl : observer = other := hobserves
        exact hhead hmem

/-- An event may be added that asks nothing asked before and watches with a new number. -/
theorem Ledger.note (h : Ledger history calls next) (event : Event) {next' : Nat} (hnext : next ≤ next')
    (hborn : event.born < next')
    (hasks : ∀ born key, event.Asks born key → ∀ earlier ∈ history, ¬ earlier.Asks born key)
    (hwatches : ∀ born observer, event = .watched born observer →
      next ≤ observer ∧ observer < next') :
    Ledger (history ++ [event]) calls next' where
  numbered other hmem := by
    rcases List.mem_append.mp hmem with hold | hlast
    · obtain ⟨hother, hobserver⟩ := h.numbered other hold
      exact ⟨hother.trans_le hnext,
        fun born observer heq => (hobserver born observer heq).trans_le hnext⟩
    · obtain rfl := List.mem_singleton.mp hlast
      exact ⟨hborn, fun born observer heq => (hwatches born observer heq).2⟩
  askedOnce := by
    refine List.pairwise_append.mpr ⟨h.askedOnce, List.pairwise_singleton _ _, ?_⟩
    intro earlier hearlier later hlater born key hearly hlate
    obtain rfl := List.mem_singleton.mp hlater
    exact hasks born key hlate earlier hearlier hearly
  delivered born question answers hmem := by
    obtain ⟨keys, hasked, hkeys⟩ := h.delivered born question answers hmem
    exact ⟨keys, List.mem_append_left _ hasked, hkeys⟩
  deliveredOnce := h.deliveredOnce
  watchedOnce born born' observer hfirst hsecond := by
    rcases List.mem_append.mp hfirst with hold | hlast <;>
      rcases List.mem_append.mp hsecond with hold' | hlast'
    · exact h.watchedOnce born born' observer hold hold'
    · have hnew := (hwatches born' observer (List.mem_singleton.mp hlast').symm).1
      have hbefore := (h.numbered _ hold).2 born observer rfl
      omega
    · have hnew := (hwatches born observer (List.mem_singleton.mp hlast).symm).1
      have hbefore := (h.numbered _ hold').2 born' observer rfl
      omega
    · have heq := (List.mem_singleton.mp hlast).trans (List.mem_singleton.mp hlast').symm
      cases heq
      rfl
  observed born observer hmem := by
    obtain ⟨hwatched, hcancelled⟩ := h.observed born observer hmem
    exact ⟨List.mem_append_left _ hwatched, List.mem_append_left _ hcancelled⟩
  observedOnce := h.observedOnce

theorem Ledger.mono (h : Ledger history calls next) {next' : Nat} (hnext : next ≤ next') :
    Ledger history calls next' :=
  { h with
    numbered := fun event hevent =>
      ⟨(h.numbered event hevent).1.trans_le hnext, fun born observer heq =>
        ((h.numbered event hevent).2 born observer heq).trans_le hnext⟩ }

theorem EntrySound.mono (h : EntrySound history calls next entry) {next' : Nat}
    (hnext : next ≤ next') : EntrySound history calls next' entry :=
  { h with born := h.born.trans_le hnext }

/-- Calls may be added that deliver nothing outstanding and call no observer waiting. -/
theorem EntrySound.addCalls (h : EntrySound history calls next entry)
    (hdelivers : ∀ call ∈ made, ∀ key, call.Delivers entry.born key → key ∉ entry.outstanding.keys)
    (hobserves : ∀ observer ∈ entry.onCancelled, ∀ call ∈ made, ¬ call.Observes observer) :
    EntrySound history (calls ++ made) next entry where
  agrees := h.agrees
  born := h.born
  asked := h.asked
  pending := h.pending
  delivered call hcall key hkey := by
    rcases List.mem_append.mp hcall with hold | hnew
    · exact h.delivered call hold key hkey
    · exact hdelivers call hnew key hkey
  observers observer hmem := by
    obtain ⟨hwatched, hnot⟩ := h.observers observer hmem
    refine ⟨hwatched, fun call hcall => ?_⟩
    rcases List.mem_append.mp hcall with hold | hnew
    · exact hnot call hold
    · exact hobserves observer hmem call hnew
  distinct := h.distinct
  requested := h.requested

/-- An event may be added that asks no key of this task but a used one. -/
theorem EntrySound.addEvent (h : EntrySound history calls next entry) (event : Event) {next' : Nat}
    (hnext : next ≤ next') (hasks : ∀ key, event.Asks entry.born key → key ∈ entry.usedKeys.keys) :
    EntrySound (history ++ [event]) calls next' entry where
  agrees := h.agrees
  born := h.born.trans_le hnext
  asked other hmem key hkey := by
    rcases List.mem_append.mp hmem with hold | hlast
    · exact h.asked other hold key hkey
    · obtain rfl := List.mem_singleton.mp hlast
      exact hasks key hkey
  pending hne := by
    obtain ⟨question, keys, hasked, hkeys⟩ := h.pending hne
    exact ⟨question, keys, List.mem_append_left _ hasked, hkeys⟩
  delivered := h.delivered
  observers observer hmem := by
    obtain ⟨hwatched, hnot⟩ := h.observers observer hmem
    exact ⟨List.mem_append_left _ hwatched, hnot⟩
  distinct := h.distinct
  requested hrequested := List.mem_append_left _ (h.requested hrequested)

theorem EntrySound.addQuiet (h : EntrySound history calls next entry)
    (hmade : ∀ call ∈ made, call.born = none) : EntrySound history (calls ++ made) next entry := by
  refine h.addCalls (fun call hcall key hdelivers => ?_) fun observer _ call hcall hobserves => ?_
  · have hnone := hmade call hcall
    cases call <;> simp_all [Call.Delivers, Call.born]
  · have hnone := hmade call hcall
    cases call <;> simp_all [Call.Observes, Call.born]

end Adding

end TaskStore

end GopherMcp
