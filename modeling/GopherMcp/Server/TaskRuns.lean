import GopherMcp.Server.TaskInvariant

/-!
# Runs of a task store

Every operation keeps the invariant and lets no task that has ended change. What a client may do with a
task of someone else is what it may do with one that is not there.
-/

namespace GopherMcp

namespace TaskStore

variable {s : State} {id : Bytes} {entry entry' : Entry}

/-! ### One entry replaced -/

/-- The call of the callback for changes, if there is one. -/
def told (s : State) (task : Task) : List Call := if s.config.changed then [.changed task] else []

theorem born_told (s : State) (task : Task) : ∀ call ∈ told s task, call.born = none := by
  intro call hcall
  unfold told at hcall
  split_ifs at hcall
  · obtain rfl := List.mem_singleton.mp hcall
    rfl
  · simp at hcall

theorem tell_eq (s : State) (task : Task) : s.tell task = s.call (told s task) := by
  unfold State.tell told
  split_ifs
  · rfl
  · simp [State.call]

/-- The entry is replaced by one that tells of it and makes some calls besides. -/
theorem Sound.put_tell (h : Sound s) (hfind : s.entries.find? id = some entry)
    (hborn : entry'.born = entry.born) {made : List Call}
    (hmade : ∀ call ∈ made, ∀ other ∈ call.born, other = entry.born)
    (hledger : Ledger s.history (s.calls ++ told s entry'.task ++ made) s.nextNumber)
    (hentry : EntrySound s.history (s.calls ++ told s entry'.task ++ made) s.nextNumber entry') :
    Sound (((s.put id entry').tell entry'.task).call made) := by
  have heq : ((s.put id entry').tell entry'.task).call made =
      { s with
        entries := s.entries.insert id entry'
        nextNumber := s.nextNumber
        calls := s.calls ++ (told s entry'.task ++ made)
        history := s.history ++ [] } := by
    rw [tell_eq, State.call, State.call, State.put, List.append_nil, ← List.append_assoc]
    rfl
  rw [heq]
  rw [List.append_assoc] at hledger hentry
  refine h.replace hfind hborn le_rfl nofun ?_ (by rwa [List.append_nil]) (by rwa [List.append_nil])
  intro call hcall other hother
  rcases List.mem_append.mp hcall with hnone | hcall
  · rw [born_told _ _ call hnone] at hother
    cases hother
  · exact hmade call hcall other hother

theorem Sound.put_tell_only (h : Sound s) (hfind : s.entries.find? id = some entry)
    (hborn : entry'.born = entry.born)
    (hentry : EntrySound s.history s.calls s.nextNumber entry') :
    Sound ((s.put id entry').tell entry'.task) := by
  have hsound : Sound (((s.put id entry').tell entry'.task).call []) :=
    h.put_tell hfind hborn nofun (by simpa using h.ledger.addQuiet (born_told _ _))
      (by simpa using hentry.addQuiet (born_told _ _))
  simpa [State.call] using hsound

/-! ### The operations -/

/-- Nothing is left to ask of a task that has ended. -/
theorem EntrySound.ended {history : List Event} {calls : List Call} {next : Nat}
    (h : EntrySound history calls next entry) (hborn : entry'.born = entry.born)
    (hrequests : entry'.task.inputRequests = .null) (houtstanding : entry'.outstanding = .empty)
    (hterminal : isTerminal entry'.task.status = true) (hused : entry'.usedKeys = entry.usedKeys)
    (hobservers : entry'.onCancelled.Sublist entry.onCancelled)
    (hcancelled : entry'.cancelRequested = true →
      entry'.task.status = .cancelled ∧ .cancelled entry.born ∈ history) :
    EntrySound history calls next entry' where
  agrees :=
    { published := fun key => by simp [hrequests, houtstanding]
      waiting := by
        rw [houtstanding, OrdMap.keys_empty]
        constructor
        · intro hstatus
          rw [hstatus] at hterminal
          exact absurd hterminal (by decide)
        · exact fun hne => absurd rfl hne
      used := fun key hkey => by simp [houtstanding] at hkey
      cancelled := fun hrequested => (hcancelled hrequested).1 }
  born := hborn ▸ h.born
  asked event hevent key hasks := by
    rw [hused]
    exact h.asked event hevent key (hborn ▸ hasks)
  pending hne := by simp [houtstanding] at hne
  delivered call _ key _ := by simp [houtstanding]
  observers observer hmem := by
    rw [hborn]
    exact h.observers observer (hobservers.subset hmem)
  distinct := h.distinct.sublist hobservers
  requested hrequested := hborn ▸ (hcancelled hrequested).2

theorem Sound.setStatusMessage (h : Sound s) (message : Bytes) (now : Now) :
    Sound (setStatusMessage s id message now) := by
  unfold TaskStore.setStatusMessage
  split
  · exact h
  · rename_i entry hfind
    simp only
    split_ifs
    · exact h
    · have hentry := h.entries id entry hfind
      refine h.put_tell_only hfind rfl ?_
      exact
        { agrees := ⟨hentry.agrees.published, hentry.agrees.waiting, hentry.agrees.used,
            hentry.agrees.cancelled⟩
          born := hentry.born
          asked := hentry.asked
          pending := hentry.pending
          delivered := hentry.delivered
          observers := hentry.observers
          distinct := hentry.distinct
          requested := hentry.requested }

theorem not_cancelRequested (h : Sound s) (hfind : s.entries.find? id = some entry)
    (hrunning : ¬ isTerminal entry.task.status = true) : entry.cancelRequested = false := by
  by_contra hrequested
  have hstatus := (h.entries id entry hfind).agrees.cancelled (by simpa using hrequested)
  exact hrunning (by rw [hstatus]; rfl)

theorem Sound.finish (h : Sound s) {status : Status} (hstatus : isTerminal status = true)
    (result : Option JsonValue) (error : Option Error) (now : Now) :
    Sound (finish s id status result error now) := by
  unfold TaskStore.finish
  split
  · exact h
  · rename_i entry hfind
    simp only
    split_ifs with hterminal
    · exact h
    · have hrequested := not_cancelRequested h hfind hterminal
      refine h.put_tell_only hfind rfl ((h.entries id entry hfind).ended rfl rfl rfl hstatus rfl
        (List.Sublist.refl _) fun hcancelled => ?_)
      exact absurd hcancelled (by simp [touch, hrequested])

theorem find_eq_some {owner : Bytes} {now : Now} (hfound : find s owner id now = some entry) :
    s.entries.find? id = some entry ∧ entry.owner = owner := by
  unfold find at hfound
  split at hfound
  · cases hfound
  · rename_i held hheld
    split_ifs at hfound with hexpired howner
    cases hfound
    exact ⟨hheld, howner⟩

section Answering

variable {history : List Event} {calls made : List Call} {next : Nat} {answers : Answers}

/-- An entry with fewer keys outstanding, and the callback it had or none. -/
theorem EntrySound.answered (h : EntrySound history calls next entry) (hagrees : Agrees entry')
    (hborn : entry'.born = entry.born)
    (houtstanding : ∀ key ∈ entry'.outstanding.keys, key ∈ entry.outstanding.keys)
    (hused : entry'.usedKeys = entry.usedKeys)
    (hwaiting : ∀ waiting ∈ entry'.onAnswered, waiting ∈ entry.onAnswered)
    (hobservers : entry'.onCancelled = entry.onCancelled)
    (hrequested : entry'.cancelRequested = entry.cancelRequested) :
    EntrySound history calls next entry' where
  agrees := hagrees
  born := hborn ▸ h.born
  asked event hevent key hasks := by
    rw [hused]
    exact h.asked event hevent key (hborn ▸ hasks)
  pending hne := by
    have hsome : entry.outstanding.keys ≠ [] := by
      obtain ⟨key, hkey⟩ := List.exists_mem_of_ne_nil _ hne
      exact List.ne_nil_of_mem (houtstanding key hkey)
    obtain ⟨question, keys, hasked, hkeys, hquestion⟩ := h.pending hsome
    rw [hborn]
    exact ⟨question, keys, hasked, fun key hkey => hkeys key (houtstanding key hkey),
      fun waiting hmem => hquestion waiting (hwaiting waiting hmem)⟩
  delivered call hcall key hdelivers hkey := by
    rw [hborn] at hdelivers
    exact h.delivered call hcall key hdelivers (houtstanding key hkey)
  observers observer hmem := by
    rw [hborn]
    exact h.observers observer (hobservers ▸ hmem)
  distinct := hobservers ▸ h.distinct
  requested hcancelled := by
    rw [hborn]
    exact h.requested (hrequested ▸ hcancelled)

theorem mem_answerCall {call : Call} (hcall : call ∈ answerCall entry answers) :
    ∃ question ∈ entry.onAnswered, call = .answered entry.born question answers := by
  obtain ⟨question, hquestion, rfl⟩ := List.mem_map.mp hcall
  exact ⟨question, by simpa using hquestion, rfl⟩

/-- The answers taken go to the callback of the question that asked for them. -/
theorem EntrySound.ledger_answered (h : EntrySound history calls next entry)
    (hledger : Ledger history calls next) (hmade : ∀ call ∈ made, call.born = none)
    (hkeys : ∀ key ∈ answers.keys, key ∈ entry.outstanding.keys) (hne : answers.keys ≠ []) :
    Ledger history (calls ++ made ++ answerCall entry answers) next := by
  have hquiet := hledger.addQuiet hmade
  unfold answerCall
  cases hwaiting : entry.onAnswered with
  | none => simpa using hquiet
  | some waiting =>
      obtain ⟨key, hkey⟩ := List.exists_mem_of_ne_nil _ hne
      obtain ⟨question, keys, hasked, houtstanding, hquestion⟩ :=
        h.pending (List.ne_nil_of_mem (hkeys key hkey))
      obtain rfl := hquestion waiting hwaiting
      refine hquiet.addAnswer hasked (fun key hkey => houtstanding key (hkeys key hkey)) ?_
      intro call hcall key hkey hdelivers
      exact (h.addQuiet hmade).delivered call hcall key hdelivers (hkeys key hkey)

/-- The answers taken are no longer outstanding. -/
theorem EntrySound.addAnswer (h : EntrySound history calls next entry')
    (hmade : ∀ call ∈ made, call.born = none)
    (hkeys : ∀ key ∈ answers.keys, key ∉ entry'.outstanding.keys) :
    EntrySound history (calls ++ made ++ answerCall entry answers) next entry' := by
  refine (h.addQuiet hmade).addCalls (fun call hcall key hdelivers => ?_)
    fun observer _ call hcall hobserves => ?_
  · obtain ⟨question, _, rfl⟩ := mem_answerCall hcall
    exact hkeys key hdelivers.2
  · obtain ⟨question, _, rfl⟩ := mem_answerCall hcall
    exact hobserves

end Answering

theorem Sound.update (h : Sound s) (owner : Bytes) (responses : JsonValue) (now : Now) :
    Sound (update s owner id responses now).1 := by
  unfold TaskStore.update
  split
  · exact h
  · rename_i entry hfound
    obtain ⟨hfind, _⟩ := find_eq_some hfound
    have hentry := h.entries id entry hfind
    have htaken := mem_takeAnswers responses entry.outstanding
    generalize takeAnswers responses entry.outstanding = taken at htaken
    obtain ⟨outstanding, answers⟩ := taken
    simp only at htaken ⊢
    have hleft : ∀ key ∈ outstanding.keys, key ∈ entry.outstanding.keys :=
      fun key hkey => ((htaken key).1.mp hkey).1
    have hgone : ∀ key ∈ answers.keys, key ∉ outstanding.keys :=
      fun key hkey hmem => ((htaken key).1.mp hmem).2 hkey
    have hcalls : ∀ call ∈ answerCall entry answers, ∀ other ∈ call.born, other = entry.born := by
      intro call hcall other hother
      obtain ⟨question, _, rfl⟩ := mem_answerCall hcall
      exact (Option.mem_some.mp hother).symm
    split_ifs with hnone hall hstatus
    · exact h
    · have hempty : outstanding.keys = [] := (OrdMap.keys_eq_nil_iff _).mpr hall
      have hne : answers.keys ≠ [] := fun heq => hnone ((OrdMap.keys_eq_nil_iff _).mp heq)
      refine h.put_tell hfind ?_ hcalls (hentry.ledger_answered h.ledger (born_told _ _)
        (fun key hkey => (htaken key).2 hkey) hne) (EntrySound.addAnswer ?_ (born_told _ _) hgone)
      · rfl
      refine hentry.answered ?_ rfl hleft rfl nofun rfl rfl
      exact
        { published := fun key => by simp [touch, hempty]
          waiting := by simp [touch, hempty]
          used := fun key hkey => by simp [touch, hempty] at hkey
          cancelled := fun hrequested => by
            have hcancelled := hentry.agrees.cancelled hrequested
            rw [hstatus] at hcancelled
            cases hcancelled }
    · have hne : answers.keys ≠ [] := fun heq => hnone ((OrdMap.keys_eq_nil_iff _).mp heq)
      obtain ⟨key, hkey⟩ := List.exists_mem_of_ne_nil _ hne
      exact absurd (hentry.agrees.waiting.mpr (List.ne_nil_of_mem ((htaken key).2 hkey))) hstatus
    · have hsome : outstanding.keys ≠ [] := fun heq => hall ((OrdMap.keys_eq_nil_iff _).mp heq)
      have hne : answers.keys ≠ [] := fun heq => hnone ((OrdMap.keys_eq_nil_iff _).mp heq)
      refine h.put_tell hfind ?_ hcalls (hentry.ledger_answered h.ledger (born_told _ _)
        (fun key hkey => (htaken key).2 hkey) hne) (EntrySound.addAnswer ?_ (born_told _ _) hgone)
      · rfl
      refine hentry.answered ?_ rfl hleft rfl (fun _ hwaiting => hwaiting) rfl rfl
      obtain ⟨key, hkey⟩ := List.exists_mem_of_ne_nil _ hsome
      have hstatus := hentry.agrees.waiting.mpr (List.ne_nil_of_mem (hleft key hkey))
      exact
        { published := fun key => by
            simp only [touch, mem_leftRequests]
            rw [hentry.agrees.published]
            exact ⟨And.left, fun hmem => ⟨hmem, hleft key hmem⟩⟩
          waiting := iff_of_true hstatus hsome
          used := fun key hkey => hentry.agrees.used key (hleft key hkey)
          cancelled := hentry.agrees.cancelled }

theorem Sound.cancel (h : Sound s) (owner : Bytes) (now : Now) :
    Sound (cancel s owner id now).1 := by
  unfold TaskStore.cancel
  split
  · exact h
  · rename_i entry hfound
    obtain ⟨hfind, _⟩ := find_eq_some hfound
    have hentry := h.entries id entry hfind
    simp only
    split_ifs with hdone
    · exact h
    · set ended := touch
        { entry with
          cancelRequested := true
          task := { entry.task with status := .cancelled, inputRequests := .null }
          outstanding := .empty
          onAnswered := none
          onCancelled := [] } now with hended
      have hledger := (h.ledger.note (.cancelled entry.born) le_rfl hentry.born nofun nofun).addQuiet
        (born_told s ended.task)
      have hkept := (hentry.addEvent (.cancelled entry.born) le_rfl nofun).addQuiet
        (born_told s ended.task)
      have hcancelled : Event.cancelled entry.born ∈ s.history ++ [.cancelled entry.born] :=
        List.mem_append_right _ List.mem_cons_self
      have hstate : (((s.put id ended).note (.cancelled entry.born)).tell ended.task).call
            (entry.onCancelled.map fun observer => .observed entry.born observer) =
          { s with
            entries := s.entries.insert id ended
            nextNumber := s.nextNumber
            calls := s.calls ++ (told s ended.task ++
              entry.onCancelled.map fun observer => .observed entry.born observer)
            history := s.history ++ [.cancelled entry.born] } := by
        simp only [tell_eq, State.call, State.note, State.put, List.append_assoc]
        rfl
      rw [hstate]
      refine h.replace hfind ?_ le_rfl ?_ ?_ ?_ ?_
      · rfl
      · intro event hevent
        obtain rfl := List.mem_singleton.mp hevent
        rfl
      · intro call hcall other hother
        rcases List.mem_append.mp hcall with hnone | hobserved
        · rw [born_told _ _ call hnone] at hother
          cases hother
        · obtain ⟨observer, _, rfl⟩ := List.mem_map.mp hobserved
          exact (Option.mem_some.mp hother).symm
      · rw [← List.append_assoc]
        exact hledger.addObservers hentry.distinct (fun observer hmem => (hkept.observers observer hmem).1)
          hcancelled fun observer hmem => (hkept.observers observer hmem).2
      · rw [← List.append_assoc]
        have hgone : EntrySound (s.history ++ [.cancelled entry.born]) (s.calls ++ told s ended.task)
            s.nextNumber ended :=
          hkept.ended rfl rfl rfl rfl rfl (List.nil_sublist _) fun _ => ⟨rfl, hcancelled⟩
        refine hgone.addCalls (fun call hcall key hdelivers => ?_)
          fun observer hmem => absurd hmem List.not_mem_nil
        obtain ⟨observer, _, rfl⟩ := List.mem_map.mp hcall
        exact hdelivers.elim

theorem next_not_watched (h : Sound s) {born : Nat} (hwatched : .watched born s.nextNumber ∈ s.history) :
    False :=
  absurd ((h.ledger.numbered _ hwatched).2 born _ rfl) (lt_irrefl _)

theorem no_call_observes_next (h : Sound s) : ∀ call ∈ s.calls, ¬ call.Observes s.nextNumber := by
  intro call hcall hobserves
  cases call with
  | observed born observer =>
      obtain rfl : observer = s.nextNumber := hobserves
      exact next_not_watched h (h.ledger.observed born _ hcall).1
  | changed task => exact hobserves
  | answered born question answers => exact hobserves

theorem Sound.onCancelled (h : Sound s) : Sound (onCancelled s id) := by
  unfold TaskStore.onCancelled
  split
  · exact h
  · rename_i entry hfind
    have hentry := h.entries id entry hfind
    have hnoted : Ledger (s.history ++ [.watched entry.born s.nextNumber]) s.calls (s.nextNumber + 1) :=
      h.ledger.note _ (Nat.le_succ _) (hentry.born.trans (Nat.lt_succ_self _)) nofun
        fun born observer heq => by cases heq; exact ⟨le_rfl, Nat.lt_succ_self _⟩
    have hkept := hentry.addEvent (.watched entry.born s.nextNumber) (Nat.le_succ _) nofun
    simp only
    split_ifs with hcancelled
    · refine h.extend hfind (Nat.le_succ _) (by simp [Event.born]) (by simp [Call.born])
        (hnoted.addObserved (List.mem_append_right _ List.mem_cons_self)
          (List.mem_append_left _ (hentry.requested hcancelled)) (no_call_observes_next h)) ?_
      refine hkept.addCalls (fun call hcall key hdelivers => ?_) fun observer hmem call hcall hobserves => ?_
      · obtain rfl := List.mem_singleton.mp hcall
        exact hdelivers.elim
      · obtain rfl := List.mem_singleton.mp hcall
        obtain rfl : s.nextNumber = observer := hobserves
        exact next_not_watched h ((hentry.observers _ hmem).1)
    · have hledger : Ledger (s.history ++ [.watched entry.born s.nextNumber]) (s.calls ++ [])
          (s.nextNumber + 1) := by rwa [List.append_nil]
      have hstate : ({ s with nextNumber := s.nextNumber + 1 }.note
            (.watched entry.born s.nextNumber)).put id
              { entry with onCancelled := entry.onCancelled ++ [s.nextNumber] } =
          { s with
            entries := s.entries.insert id
              { entry with onCancelled := entry.onCancelled ++ [s.nextNumber] }
            nextNumber := s.nextNumber + 1
            calls := s.calls ++ []
            history := s.history ++ [.watched entry.born s.nextNumber] } := by
        rw [List.append_nil]
        rfl
      rw [hstate]
      refine h.replace hfind ?_ (Nat.le_succ _) (by simp [Event.born]) (by simp) hledger ?_
      · rfl
      rw [List.append_nil]
      exact
        { agrees := ⟨hkept.agrees.published, hkept.agrees.waiting, hkept.agrees.used,
            hkept.agrees.cancelled⟩
          born := hkept.born
          asked := hkept.asked
          pending := hkept.pending
          delivered := hkept.delivered
          observers := fun observer hmem => by
            rcases List.mem_append.mp hmem with hold | hlast
            · exact hkept.observers observer hold
            · obtain rfl := List.mem_singleton.mp hlast
              exact ⟨List.mem_append_right _ List.mem_cons_self, no_call_observes_next h⟩
          distinct := by
            refine List.nodup_append.mpr ⟨hentry.distinct, List.nodup_singleton _, ?_⟩
            rintro observer hmem _ hlast rfl
            obtain rfl := List.mem_singleton.mp hlast
            exact next_not_watched h (hentry.observers _ hmem).1
          requested := hkept.requested }

/-- A task with nothing outstanding may ask for new keys. -/
theorem EntrySound.ask {history : List Event} {calls : List Call} {next : Nat}
    (h : EntrySound history calls next entry) (hledger : Ledger history calls next)
    {requests : InputRequests} {callback : Bool} {now : Now} (hempty : entry.outstanding.keys = [])
    (hsome : requests.keys ≠ []) (hfresh : ∀ key ∈ requests.keys, key ∉ entry.usedKeys.keys)
    (hrunning : entry.cancelRequested = false) :
    EntrySound (history ++ [.asked entry.born next requests.keys]) calls (next + 1)
      (touch
        { entry with
          task :=
            { entry.task with
              status := .inputRequired
              inputRequests := askRequests requests entry.task.inputRequests }
          usedKeys := askKeys requests entry.usedKeys
          outstanding := askKeys requests entry.outstanding
          onAnswered := if callback then some next else none } now) := by
  have houtstanding : ∀ key, key ∈ (askKeys requests entry.outstanding).keys ↔ key ∈ requests.keys := by
    intro key
    rw [mem_askKeys, hempty]
    simp
  exact
    { agrees :=
        { published := fun key => by
            change key ∈ (askRequests requests entry.task.inputRequests).keys ↔
              key ∈ (askKeys requests entry.outstanding).keys
            rw [mem_askRequests, mem_askKeys, h.agrees.published]
          waiting := by
            obtain ⟨key, hkey⟩ := List.exists_mem_of_ne_nil _ hsome
            exact iff_of_true rfl (List.ne_nil_of_mem ((houtstanding key).mpr hkey))
          used := fun key hkey => (mem_askKeys _ _).mpr (Or.inl ((houtstanding key).mp hkey))
          cancelled := fun hcancelled => by simp [touch, hrunning] at hcancelled }
      born := h.born.trans (Nat.lt_succ_self _)
      asked := fun event hevent key hasks => by
        refine (mem_askKeys _ _).mpr ?_
        rcases List.mem_append.mp hevent with hold | hlast
        · exact Or.inr (h.asked event hold key hasks)
        · obtain rfl := List.mem_singleton.mp hlast
          exact Or.inl hasks.2
      pending := fun _ => ⟨next, requests.keys, List.mem_append_right _ List.mem_cons_self,
        fun key hkey => (houtstanding key).mp hkey, fun waiting hwaiting => by
          cases callback with
          | true => exact (Option.mem_some.mp hwaiting).symm
          | false => cases hwaiting⟩
      delivered := fun call hcall key hdelivers hkey => by
        cases call with
        | answered born question answers =>
            obtain ⟨rfl, hanswered⟩ := hdelivers
            obtain ⟨keys, hasked, hkeys⟩ := hledger.delivered _ question answers hcall
            exact hfresh key ((houtstanding key).mp hkey)
              (h.asked _ hasked key ⟨rfl, hkeys key hanswered⟩)
        | changed task => exact hdelivers
        | observed born observer => exact hdelivers
      observers := fun observer hmem =>
        ⟨List.mem_append_left _ (h.observers observer hmem).1, (h.observers observer hmem).2⟩
      distinct := h.distinct
      requested := fun hcancelled => by simp [touch, hrunning] at hcancelled }

theorem Sound.askForInput (h : Sound s) (requests : InputRequests) (callback : Bool) (now : Now) :
    Sound (askForInput s id requests callback now).1 := by
  unfold TaskStore.askForInput
  by_cases hnone : requests.entries.isEmpty = true
  · rw [if_pos hnone]
    exact h
  · rw [if_neg hnone]
    cases hfind : s.entries.find? id with
    | none => exact h
    | some entry =>
        have hentry := h.entries id entry hfind
        by_cases hterminal : isTerminal entry.task.status = true
        · simpa only [if_pos hterminal] using h
        by_cases hwaiting : (!entry.outstanding.entries.isEmpty) = true
        · simpa only [if_neg hterminal, if_pos hwaiting] using h
        by_cases hused : (requests.keys.any fun key => entry.usedKeys.contains key) = true
        · simpa only [if_neg hterminal, if_neg hwaiting, if_pos hused] using h
        simp only [if_neg hterminal, if_neg hwaiting, if_neg hused]
        have hfresh : ∀ key ∈ requests.keys, key ∉ entry.usedKeys.keys := by
          intro key hkey hmem
          exact hused (List.any_eq_true.mpr ⟨key, hkey, (OrdMap.contains_iff _ _).mpr hmem⟩)
        have hsome : requests.keys ≠ [] := fun heq => hnone ((OrdMap.keys_eq_nil_iff _).mp heq)
        have hempty : entry.outstanding.keys = [] := by
          rw [OrdMap.keys_eq_nil_iff]
          simpa using hwaiting
        have hnot := not_cancelRequested h hfind hterminal
        have hnoted : Ledger (s.history ++ [.asked entry.born s.nextNumber requests.keys]) s.calls
            (s.nextNumber + 1) := by
          refine h.ledger.note _ (Nat.le_succ _) (hentry.born.trans (Nat.lt_succ_self _)) ?_ nofun
          rintro born key ⟨rfl, hkey⟩ earlier hearlier hasked
          exact hfresh key hkey (hentry.asked earlier hearlier key hasked)
        set asking := touch
          { entry with
            task :=
              { entry.task with
                status := .inputRequired
                inputRequests := askRequests requests entry.task.inputRequests }
            usedKeys := askKeys requests entry.usedKeys
            outstanding := askKeys requests entry.outstanding
            onAnswered := if callback then some s.nextNumber else none } now with hasking
        have hasked : EntrySound (s.history ++ [.asked entry.born s.nextNumber requests.keys]) s.calls
            (s.nextNumber + 1) asking :=
          hentry.ask h.ledger hempty hsome hfresh hnot
        have hstate : (({ s with nextNumber := s.nextNumber + 1 }.note
              (.asked entry.born s.nextNumber requests.keys)).put id asking).tell asking.task =
            { s with
              entries := s.entries.insert id asking
              nextNumber := s.nextNumber + 1
              calls := s.calls ++ told s asking.task
              history := s.history ++ [.asked entry.born s.nextNumber requests.keys] } := by
          simp only [tell_eq, State.call, State.note, State.put]
          rfl
        rw [hstate]
        refine h.replace hfind ?_ (Nat.le_succ _) (by simp [Event.born]) ?_
          (hnoted.addQuiet (born_told _ _)) (hasked.addQuiet (born_told _ _))
        · rfl
        · intro call hcall other hother
          rw [born_told _ _ call hcall] at hother
          cases hother

theorem find?_sweep {now : Now} (hfind : (sweep s now).entries.find? id = some entry) :
    s.entries.find? id = some entry := by
  rw [sweep, OrdMap.find?_filter, Option.filter_eq_some_iff] at hfind
  exact hfind.1

theorem Sound.sweep (h : Sound s) (now : Now) : Sound (sweep s now) where
  ledger := h.ledger
  entries id entry hfind := h.entries id entry (find?_sweep hfind)
  apart id id' entry entry' hfind hfind' := h.apart id id' entry entry' (find?_sweep hfind)
    (find?_sweep hfind')

/-- A task that has just been made may be put in. -/
theorem Sound.addEntry (h : Sound s) (hborn : entry.born = s.nextNumber)
    (hstatus : entry.task.status = .working) (hrequests : entry.task.inputRequests = .null)
    (houtstanding : entry.outstanding = .empty) (hobservers : entry.onCancelled = [])
    (hrequested : entry.cancelRequested = false) :
    Sound { s.put id entry with nextNumber := s.nextNumber + 1 } := by
  have hnew : EntrySound s.history s.calls (s.nextNumber + 1) entry :=
    { agrees :=
        { published := fun key => by simp [hrequests, houtstanding]
          waiting := by simp [hstatus, houtstanding]
          used := fun key hkey => by simp [houtstanding] at hkey
          cancelled := fun hcancelled => by simp [hrequested] at hcancelled }
      born := by omega
      asked := fun event hevent key hasks => by
        have hless := (h.ledger.numbered event hevent).1
        have hsame : event.born = entry.born := by
          cases event with
          | asked born question keys => exact hasks.1
          | watched born observer => exact hasks.elim
          | cancelled born => exact hasks.elim
        omega
      pending := fun hne => by simp [houtstanding] at hne
      delivered := fun call _ key _ => by simp [houtstanding]
      observers := fun observer hmem => by simp [hobservers] at hmem
      distinct := by simp [hobservers]
      requested := fun hcancelled => by simp [hrequested] at hcancelled }
  have hcases : ∀ other found, (s.entries.insert id entry).find? other = some found →
      (other = id ∧ found = entry) ∨ s.entries.find? other = some found := by
    intro other found hfound
    rw [OrdMap.find?_insert] at hfound
    split_ifs at hfound with hother
    · exact Or.inl ⟨hother, (Option.some.inj hfound).symm⟩
    · exact Or.inr hfound
  exact
    { ledger := h.ledger.mono (Nat.le_succ _)
      entries := fun other found hfound => by
        rcases hcases other found hfound with ⟨_, rfl⟩ | hold
        · exact hnew
        · exact (h.entries other found hold).mono (Nat.le_succ _)
      apart := fun left right found found' hleft hright heq => by
        rcases hcases left found hleft with ⟨rfl, rfl⟩ | hold <;>
          rcases hcases right found' hright with ⟨rfl, rfl⟩ | hold'
        · rfl
        · have hless := (h.entries right found' hold').born
          omega
        · have hless := (h.entries left found hold).born
          omega
        · exact h.apart left right found found' hold hold' heq }

theorem Sound.create (h : Sound s) (owner : Bytes) (now : Now) :
    Sound (create s owner id now).1 := by
  have hswept := h.sweep now
  unfold TaskStore.create
  by_cases hheld : (TaskStore.sweep s now).entries.values.countP (·.owner = owner) ≥ s.config.maxPerCaller
  · simpa only [if_pos hheld] using hswept
  · simp only [if_neg hheld]
    exact hswept.addEntry rfl rfl rfl rfl rfl rfl

theorem Sound.step (h : Sound s) (operation : Operation × Now) : Sound (step s operation) := by
  obtain ⟨operation, now⟩ := operation
  cases operation with
  | create owner id => exact h.create owner now
  | get owner id => exact h
  | owns owner id => exact h
  | update owner id responses => exact h.update owner responses now
  | cancel owner id => exact h.cancel owner now
  | sweep => exact h.sweep now
  | isCancelled id => exact h
  | onCancelled id => exact h.onCancelled
  | setStatusMessage id message => exact h.setStatusMessage message now
  | complete id result => exact h.finish rfl _ _ now
  | fail id error => exact h.finish rfl _ _ now
  | askForInput id requests callback => exact h.askForInput requests callback now

theorem sound_run (config : Config) (operations : List (Operation × Now)) :
    Sound (run config operations) :=
  Runs.invariant_of_every_step step (fun _ operation h => h.step operation) (sound_empty config)
    operations

/-! ### Tasks that have ended -/

/-- The same task later: if it had ended, its outcome is the same. -/
structure Continues (entry entry' : Entry) : Prop where
  born : entry'.born = entry.born
  outcome : isTerminal entry.task.status = true → entry'.task.status = entry.task.status ∧
    entry'.task.result = entry.task.result ∧ entry'.task.error = entry.task.error

/-- Every task of the later state was made since, or continues one under its id. -/
structure Evolves (s s' : State) : Prop where
  next : s.nextNumber ≤ s'.nextNumber
  entries : ∀ id entry', s'.entries.find? id = some entry' → entry'.born < s.nextNumber →
    ∃ entry, s.entries.find? id = some entry ∧ Continues entry entry'

theorem Continues.refl (entry : Entry) : Continues entry entry := ⟨rfl, fun _ => ⟨rfl, rfl, rfl⟩⟩

theorem Continues.trans {entry'' : Entry} (h : Continues entry entry') (h' : Continues entry' entry'') :
    Continues entry entry'' := by
  refine ⟨h'.born.trans h.born, fun hterminal => ?_⟩
  obtain ⟨hstatus, hresult, herror⟩ := h.outcome hterminal
  obtain ⟨hstatus', hresult', herror'⟩ := h'.outcome (hstatus ▸ hterminal)
  exact ⟨hstatus'.trans hstatus, hresult'.trans hresult, herror'.trans herror⟩

theorem Evolves.trans {s' s'' : State} (h : Evolves s s') (h' : Evolves s' s'') : Evolves s s'' := by
  refine ⟨h.next.trans h'.next, fun id entry'' hfind'' hborn => ?_⟩
  obtain ⟨entry', hfind', hcontinues'⟩ := h'.entries id entry'' hfind'' (hborn.trans_le h.next)
  obtain ⟨entry, hfind, hcontinues⟩ := h.entries id entry' hfind' (hcontinues'.born ▸ hborn)
  exact ⟨entry, hfind, hcontinues.trans hcontinues'⟩

theorem evolves_of_entries {s' : State} (hentries : s'.entries = s.entries)
    (hnext : s.nextNumber ≤ s'.nextNumber) : Evolves s s' :=
  ⟨hnext, fun _ entry hfind _ => ⟨entry, hentries ▸ hfind, Continues.refl entry⟩⟩

@[simp] theorem entries_tell (task : Task) : (s.tell task).entries = s.entries := by
  unfold State.tell
  split_ifs <;> rfl

@[simp] theorem nextNumber_tell (task : Task) : (s.tell task).nextNumber = s.nextNumber := by
  unfold State.tell
  split_ifs <;> rfl

@[simp] theorem config_tell (task : Task) : (s.tell task).config = s.config := by
  unfold State.tell
  split_ifs <;> rfl

@[simp] theorem entries_call (calls : List Call) : (s.call calls).entries = s.entries := rfl

@[simp] theorem nextNumber_call (calls : List Call) : (s.call calls).nextNumber = s.nextNumber := rfl

@[simp] theorem entries_note (event : Event) : (s.note event).entries = s.entries := rfl

@[simp] theorem nextNumber_note (event : Event) : (s.note event).nextNumber = s.nextNumber := rfl

@[simp] theorem entries_put : (s.put id entry).entries = s.entries.insert id entry := rfl

@[simp] theorem nextNumber_put : (s.put id entry).nextNumber = s.nextNumber := rfl

/-- What an operation on the tasks there are keeps: the limits, and the owner and the outcome of every task left. -/
structure Keeps (s s' : State) : Prop where
  config : s'.config = s.config
  next : s.nextNumber ≤ s'.nextNumber
  entries : ∀ id entry', s'.entries.find? id = some entry' →
    ∃ entry, s.entries.find? id = some entry ∧ entry'.owner = entry.owner ∧ Continues entry entry'

theorem keeps_of_entries {s' : State} (hconfig : s'.config = s.config) (hentries : s'.entries = s.entries)
    (hnext : s.nextNumber ≤ s'.nextNumber) : Keeps s s' :=
  ⟨hconfig, hnext, fun _ entry hfind => ⟨entry, hentries ▸ hfind, rfl, Continues.refl entry⟩⟩

theorem keeps_of_insert {s' : State} (hconfig : s'.config = s.config)
    (hentries : s'.entries = s.entries.insert id entry') (hnext : s.nextNumber ≤ s'.nextNumber)
    (hfind : s.entries.find? id = some entry) (howner : entry'.owner = entry.owner)
    (hcontinues : Continues entry entry') : Keeps s s' := by
  refine ⟨hconfig, hnext, fun other found hfound => ?_⟩
  rw [hentries, OrdMap.find?_insert] at hfound
  split_ifs at hfound with hother
  · cases hfound
    exact ⟨entry, hother ▸ hfind, howner, hcontinues⟩
  · exact ⟨found, hfound, rfl, Continues.refl found⟩

theorem Keeps.evolves {s' : State} (h : Keeps s s') : Evolves s s' := by
  refine ⟨h.next, fun id entry' hfind' _ => ?_⟩
  obtain ⟨entry, hfind, -, hcontinues⟩ := h.entries id entry' hfind'
  exact ⟨entry, hfind, hcontinues⟩

/-- A task that has not ended may change as it likes. -/
theorem continues_of_running (hborn : entry'.born = entry.born)
    (hrunning : ¬ isTerminal entry.task.status = true) : Continues entry entry' :=
  ⟨hborn, fun hterminal => absurd hterminal hrunning⟩

theorem keeps_update (owner : Bytes) (responses : JsonValue) (now : Now) :
    Keeps s (update s owner id responses now).1 := by
  unfold update
  split
  · exact keeps_of_entries rfl rfl le_rfl
  · rename_i entry hfound
    have hfind := (find_eq_some hfound).1
    simp only
    split_ifs with hnone hall hstatus
    · exact keeps_of_entries rfl rfl le_rfl
    · refine keeps_of_insert (config_tell _) (entries_tell _) (by simp) hfind rfl (continues_of_running rfl ?_)
      rw [hstatus]
      decide
    · exact keeps_of_insert rfl rfl le_rfl hfind rfl ⟨rfl, fun _ => ⟨rfl, rfl, rfl⟩⟩
    · exact keeps_of_insert (config_tell _) (entries_tell _) (by simp) hfind rfl ⟨rfl, fun _ => ⟨rfl, rfl, rfl⟩⟩

theorem keeps_cancel (owner : Bytes) (now : Now) : Keeps s (cancel s owner id now).1 := by
  unfold cancel
  split
  · exact keeps_of_entries rfl rfl le_rfl
  · rename_i entry hfound
    have hfind := (find_eq_some hfound).1
    simp only
    split_ifs with hdone
    · exact keeps_of_entries rfl rfl le_rfl
    · rw [Bool.or_eq_true, not_or] at hdone
      exact keeps_of_insert (config_tell _) (entries_tell _) (by simp) hfind rfl (continues_of_running rfl hdone.2)

theorem keeps_onCancelled : Keeps s (onCancelled s id) := by
  unfold onCancelled
  split
  · exact keeps_of_entries rfl rfl le_rfl
  · rename_i entry hfind
    simp only
    split_ifs
    · exact keeps_of_entries rfl rfl (Nat.le_succ _)
    · exact keeps_of_insert rfl rfl (Nat.le_succ _) hfind rfl ⟨rfl, fun _ => ⟨rfl, rfl, rfl⟩⟩

theorem keeps_setStatusMessage (message : Bytes) (now : Now) :
    Keeps s (setStatusMessage s id message now) := by
  unfold setStatusMessage
  split
  · exact keeps_of_entries rfl rfl le_rfl
  · rename_i entry hfind
    simp only
    split_ifs with hterminal
    · exact keeps_of_entries rfl rfl le_rfl
    · exact keeps_of_insert (config_tell _) (entries_tell _) (by simp) hfind rfl (continues_of_running rfl hterminal)

theorem keeps_finish (status : Status) (result : Option JsonValue) (error : Option Error)
    (now : Now) : Keeps s (finish s id status result error now) := by
  unfold finish
  split
  · exact keeps_of_entries rfl rfl le_rfl
  · rename_i entry hfind
    simp only
    split_ifs with hterminal
    · exact keeps_of_entries rfl rfl le_rfl
    · exact keeps_of_insert (config_tell _) (entries_tell _) (by simp) hfind rfl (continues_of_running rfl hterminal)

theorem keeps_askForInput (requests : InputRequests) (callback : Bool) (now : Now) :
    Keeps s (askForInput s id requests callback now).1 := by
  unfold askForInput
  by_cases hnone : requests.entries.isEmpty = true
  · rw [if_pos hnone]
    exact keeps_of_entries rfl rfl le_rfl
  · rw [if_neg hnone]
    cases hfind : s.entries.find? id with
    | none => exact keeps_of_entries rfl rfl le_rfl
    | some entry =>
        by_cases hterminal : isTerminal entry.task.status = true
        · simpa only [if_pos hterminal] using keeps_of_entries rfl rfl le_rfl
        simp only [if_neg hterminal]
        by_cases hwaiting : (!entry.outstanding.entries.isEmpty) = true
        · simpa only [if_pos hwaiting] using keeps_of_entries rfl rfl le_rfl
        by_cases hused : (requests.keys.any fun key => entry.usedKeys.contains key) = true
        · simpa only [if_neg hwaiting, if_pos hused] using keeps_of_entries rfl rfl le_rfl
        simp only [if_neg hwaiting, if_neg hused]
        refine keeps_of_insert (config_tell _) (entries_tell _) ?_ hfind rfl (continues_of_running ?_ hterminal)
        · simp
        · rfl

theorem keeps_sweep (now : Now) : Keeps s (sweep s now) :=
  ⟨rfl, le_rfl, fun _ entry hfind => ⟨entry, find?_sweep hfind, rfl, Continues.refl entry⟩⟩

theorem evolves_create (owner : Bytes) (now : Now) : Evolves s (create s owner id now).1 := by
  refine (keeps_sweep now).evolves.trans ?_
  unfold create
  by_cases hheld : (sweep s now).entries.values.countP (·.owner = owner) ≥ s.config.maxPerCaller
  · simpa only [if_pos hheld] using evolves_of_entries rfl le_rfl
  · simp only [if_neg hheld]
    refine ⟨Nat.le_succ _, fun other found hfound hborn => ?_⟩
    rw [entries_put, OrdMap.find?_insert] at hfound
    by_cases hother : other = id
    · rw [if_pos hother] at hfound
      cases hfound
      exact absurd hborn (lt_irrefl _)
    · rw [if_neg hother] at hfound
      exact ⟨found, hfound, Continues.refl found⟩

theorem evolves_step (operation : Operation × Now) : Evolves s (step s operation) := by
  obtain ⟨operation, now⟩ := operation
  cases operation with
  | create owner id => exact evolves_create owner now
  | get owner id => exact evolves_of_entries rfl le_rfl
  | owns owner id => exact evolves_of_entries rfl le_rfl
  | update owner id responses => exact (keeps_update owner responses now).evolves
  | cancel owner id => exact (keeps_cancel owner now).evolves
  | sweep => exact (keeps_sweep now).evolves
  | isCancelled id => exact evolves_of_entries rfl le_rfl
  | onCancelled id => exact keeps_onCancelled.evolves
  | setStatusMessage id message => exact (keeps_setStatusMessage message now).evolves
  | complete id result => exact (keeps_finish _ _ _ now).evolves
  | fail id error => exact (keeps_finish _ _ _ now).evolves
  | askForInput id requests callback => exact (keeps_askForInput requests callback now).evolves

theorem evolves_run (config : Config) (operations later : List (Operation × Now)) :
    Evolves (run config operations) (run config (operations ++ later)) := by
  rw [run, run, Runs.run_append]
  exact Runs.related step (fun s => evolves_of_entries rfl le_rfl) (fun _ _ _ => Evolves.trans)
    (fun _ operation => evolves_step operation) _ later

/-! ### What a client gets -/

/-- A client can do nothing with an id but what it could if there were no such task. -/
structure Strange (s : State) (owner id : Bytes) (now : Now) : Prop where
  get : get s owner id now = none
  owns : owns s owner id now = false
  update : ∀ responses, update s owner id responses now = (s, false)
  cancel : cancel s owner id now = (s, false)

theorem strange_of_find {owner : Bytes} {now : Now} (h : find s owner id now = none) :
    Strange s owner id now where
  get := by rw [TaskStore.get, h, Option.map_none]
  owns := by rw [TaskStore.owns, h, Option.isSome_none]
  update responses := by rw [TaskStore.update, h]
  cancel := by rw [TaskStore.cancel, h]

theorem find_eq_none {owner : Bytes} (hother : ∀ entry, s.entries.find? id = some entry →
    entry.owner ≠ owner) (now : Now) : find s owner id now = none := by
  cases hfound : find s owner id now with
  | none => rfl
  | some entry =>
      obtain ⟨hfind, howner⟩ := find_eq_some hfound
      exact absurd howner (hother entry hfind)

/-- **What holds of every task.** The status says whether something is outstanding, and what is published
is what is outstanding; a key is asked once, and answered once, to the question it was asked by; an
observer is called once, after its task was cancelled; and the task of one caller is no task to another. -/
structure Orderly (s : State) : Prop where
  waiting : ∀ id entry, s.entries.find? id = some entry →
    (entry.task.status = .inputRequired ↔ entry.outstanding.keys ≠ []) ∧
      (∀ key, key ∈ entry.task.inputRequests.keys ↔ key ∈ entry.outstanding.keys) ∧
      ∀ key ∈ entry.outstanding.keys, key ∈ entry.usedKeys.keys
  askedOnce : s.history.Pairwise fun earlier later =>
    ∀ born key, earlier.Asks born key → ¬ later.Asks born key
  answered : ∀ born question answers, .answered born question answers ∈ s.calls →
    ∃ keys, .asked born question keys ∈ s.history ∧ ∀ key ∈ answers.keys, key ∈ keys
  answeredOnce : s.calls.Pairwise fun earlier later =>
    ∀ born key, earlier.Delivers born key → ¬ later.Delivers born key
  observed : ∀ born observer, .observed born observer ∈ s.calls →
    .watched born observer ∈ s.history ∧ .cancelled born ∈ s.history
  observedOnce : s.calls.Pairwise fun earlier later =>
    ∀ observer, earlier.Observes observer → ¬ later.Observes observer
  strangers : ∀ owner id now, (∀ entry, s.entries.find? id = some entry → entry.owner ≠ owner) →
    Strange s owner id now

theorem Sound.orderly (h : Sound s) : Orderly s where
  waiting id entry hfind := by
    have hagrees := (h.entries id entry hfind).agrees
    exact ⟨hagrees.waiting, hagrees.published, hagrees.used⟩
  askedOnce := h.ledger.askedOnce
  answered := h.ledger.delivered
  answeredOnce := h.ledger.deliveredOnce
  observed := h.ledger.observed
  observedOnce := h.ledger.observedOnce
  strangers _ _ now hother := strange_of_find (find_eq_none hother now)

/-- **The store over whole runs.** Every state reached is orderly, and a task that has ended there keeps
its status, result and error whatever is done later. -/
theorem orderly_run (config : Config) (operations later : List (Operation × Now)) :
    Orderly (run config operations) ∧
      ∀ id id' entry entry', (run config operations).entries.find? id = some entry →
        (run config (operations ++ later)).entries.find? id' = some entry' →
        entry'.born = entry.born → isTerminal entry.task.status = true →
        entry'.task.status = entry.task.status ∧ entry'.task.result = entry.task.result ∧
          entry'.task.error = entry.task.error := by
  have hsound := sound_run config operations
  refine ⟨hsound.orderly, fun id id' entry entry' hfind hfind' hborn hterminal => ?_⟩
  have hless := (hsound.entries id entry hfind).born
  obtain ⟨before, hbefore, hcontinues⟩ :=
    (evolves_run config operations later).entries id' entry' hfind' (by omega)
  have hsame := hsound.apart id' id before entry hbefore hfind (hcontinues.born.symm.trans hborn)
  subst hsame
  cases hbefore.symm.trans hfind
  exact hcontinues.outcome hterminal

end TaskStore

end GopherMcp
