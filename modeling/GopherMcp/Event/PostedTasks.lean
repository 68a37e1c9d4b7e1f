import GopherMcp.Event.LibeventDispatcher

/-!
# Posted tasks and their wake-ups

Whoever drains the pipe goes on to swap the queue, so a task in the queue has a byte in the pipe, or a post that
will write one, or a loop about to swap. The byte is written after the lock is given back, though, so the loop can
be about to block with a task queued and its byte still to come.
-/

namespace GopherMcp

/-- Between the first byte drained and the swap, where a task in the queue needs no byte. -/
def LoopControl.sweeps : LoopControl → Bool
  | .draining | .swapping _ => true
  | _ => false

/-- The loop swaps the queue before it can block again. -/
def LoopControl.willSwap : LoopControl → Bool
  | .dispatching wakeup | .inCallback wakeup => wakeup
  | .draining | .swapping _ => true
  | _ => false

/-- Inside `runPostCallbacks`, with the queue swapped out. -/
def LoopControl.runsTasks : LoopControl → Bool
  | .running _ | .inTask _ => true
  | _ => false

namespace LibeventDispatcher

variable {Thread Task : Type} {s : LibeventDispatcher Thread Task}

/-! ### What holds in every state -/

/-- A post that found the queue empty has queued its task and has its write before it. -/
def WakeupComing (s : LibeventDispatcher Thread Task) : Prop := ∃ thread, s.posting thread = some true

structure Inv (s : LibeventDispatcher Thread Task) : Prop where
  inOrder : s.posted = s.ran ++ s.unstarted ++ s.postCallbacks
  noneHeld : s.control.runsTasks = false → s.callbacks = []
  woken : s.postCallbacks ≠ [] → s.wakeupPipe.Readable ∨ s.WakeupComing ∨ s.control.sweeps = true

theorem unstarted_of_noneHeld (h : s.callbacks = []) : s.unstarted = [] := by
  unfold unstarted
  split
  · rw [h, List.tail_nil]
  · exact h

theorem create_inv (capacity : Nat) (hasRoom : 0 < capacity) :
    (create capacity hasRoom : LibeventDispatcher Thread Task).Inv :=
  ⟨rfl, fun _ => rfl, fun h => absurd rfl h⟩

/-! ### Posts -/

section Post

variable [DecidableEq Thread]

/-- A post that is to wake the loop outlasts what other threads do with theirs. -/
theorem WakeupComing.ofOther (h : s.WakeupComing) {thread : Thread} (hthread : s.posting thread ≠ some true)
    (needWakeup : Option Bool) : ∃ other, Function.update s.posting thread needWakeup other = some true := by
  obtain ⟨other, hother⟩ := h
  have hne : other ≠ thread := by
    rintro rfl
    exact hthread hother
  exact ⟨other, by rw [Function.update_of_ne hne, hother]⟩

theorem Inv.post (h : s.Inv) {thread : Thread} (hidle : s.posting thread = none) (callback : Task) :
    (s.post thread callback).Inv where
  inOrder := by
    change s.posted ++ [callback] = s.ran ++ s.unstarted ++ (s.postCallbacks ++ [callback])
    rw [h.inOrder, List.append_assoc _ s.postCallbacks]
  noneHeld := h.noneHeld
  woken := by
    intro _
    by_cases hqueue : s.postCallbacks = []
    · refine Or.inr (Or.inl ⟨thread, ?_⟩)
      simp [LibeventDispatcher.post, hqueue]
    · refine (h.woken hqueue).imp_right (Or.imp_left fun hcoming => ?_)
      exact hcoming.ofOther (by rw [hidle]; simp) _

theorem Inv.wake (h : s.Inv) {thread : Thread} {needWakeup : Bool} (hposting : s.posting thread = some needWakeup) :
    (s.wake thread needWakeup).Inv where
  inOrder := h.inOrder
  noneHeld := h.noneHeld
  woken := by
    intro hqueue
    cases needWakeup with
    | true => exact Or.inl s.wakeupPipe.write_readable
    | false =>
        refine (h.woken hqueue).imp_right (Or.imp_left fun hcoming => ?_)
        exact hcoming.ofOther (by rw [hposting]; decide) none

end Post

/-! ### The loop's steps -/

/-- What a step of the loop can do. Most only go on to another place, with nothing in hand. -/
inductive LoopMove (s : LibeventDispatcher Thread Task) : LibeventDispatcher Thread Task → Prop
  | stay : LoopMove s s
  | swap {caller : PostCallbacksCaller} (hcontrol : s.control = .swapping caller) :
      LoopMove s { s with callbacks := s.postCallbacks, postCallbacks := [], control := .running caller }
  | startTask {caller : PostCallbacksCaller} {callback : Task} {rest : List Task}
      (hcontrol : s.control = .running caller) (hcallbacks : s.callbacks = callback :: rest) :
      LoopMove s { s with ran := s.ran ++ [callback], control := .inTask caller }
  | endTask {caller : PostCallbacksCaller} (hcontrol : s.control = .inTask caller) :
      LoopMove s { s with callbacks := s.callbacks.tail, control := .running caller }
  | read (hcontrol : s.control = .draining) (size : Nat) : LoopMove s { s with wakeupPipe := s.wakeupPipe.read size }
  | goTo {control : LoopControl} (hnone : s.control.runsTasks = true → s.callbacks = [])
      (hsweeps : s.control.sweeps = true → control.sweeps = true)
      (hswaps : s.control.willSwap = true → control.willSwap = true) : LoopMove s { s with control }

/-- Going on from a place outside `runPostCallbacks`. -/
theorem LoopMove.ofControl {control next : LoopControl} (hcontrol : s.control = control)
    (hruns : control.runsTasks = false) (hsweeps : control.sweeps = true → next.sweeps = true)
    (hswaps : control.willSwap = true → next.willSwap = true) : s.LoopMove { s with control := next } := by
  subst hcontrol
  exact .goTo (fun hrunning => absurd hrunning (by rw [hruns]; decide)) hsweeps hswaps

theorem loopStep_move (s : LibeventDispatcher Thread Task) (op : LoopStep) : s.LoopMove (s.loopStep op) := by
  cases op with
  | swap =>
      dsimp only [loopStep]
      split
      · exact .swap ‹_›
      · exact .stay
  | startTask =>
      dsimp only [loopStep]
      split
      · exact .startTask ‹_› ‹_›
      · exact .stay
  | endTask =>
      dsimp only [loopStep]
      split
      · exact .endTask ‹_›
      · exact .stay
  | returnFromCallbacks =>
      dsimp only [loopStep]
      split
      · rename_i hcontrol hcallbacks
        exact .goTo (fun _ => hcallbacks) (by rw [hcontrol]; simp [LoopControl.sweeps])
          (by rw [hcontrol]; simp [LoopControl.willSwap])
      · exact .stay
  | read =>
      dsimp only [loopStep]
      split
      · split
        · exact .read ‹_› 256
        · exact .ofControl ‹_› rfl (fun _ => rfl) (fun _ => rfl)
      · exact .stay
  | returnFromLoop =>
      dsimp only [loopStep]
      split
      · exact .ofControl ‹_› rfl (fun _ => rfl) (fun _ => rfl)
      · exact .ofControl ‹_› rfl (fun _ => rfl) (fun _ => rfl)
      · exact .stay
  | poll | startCallback | endCallback | postWakeupCallback | iterate =>
      dsimp only [loopStep]
      split
      · exact .ofControl ‹_› rfl (by simp [LoopControl.sweeps]) (by simp [LoopControl.willSwap])
      · exact .stay

/-- The loop goes on with nothing in hand, and not from a sweep to a place that is none. -/
theorem Inv.goTo (h : s.Inv) (hnone : s.callbacks = []) {control : LoopControl}
    (hsweeps : s.control.sweeps = true → control.sweeps = true) :
    ({ s with control } : LibeventDispatcher Thread Task).Inv where
  inOrder := by
    have hunstarted : ({ s with control } : LibeventDispatcher Thread Task).unstarted = s.unstarted :=
      (unstarted_of_noneHeld (s := { s with control }) hnone).trans (unstarted_of_noneHeld hnone).symm
    rw [hunstarted]
    exact h.inOrder
  noneHeld _ := hnone
  woken hqueue := (h.woken hqueue).imp_right (Or.imp_right hsweeps)

theorem Inv.callbacks_of_move (h : s.Inv) (hnone : s.control.runsTasks = true → s.callbacks = []) :
    s.callbacks = [] := by
  by_cases hruns : s.control.runsTasks = true
  · exact hnone hruns
  · exact h.noneHeld (Bool.not_eq_true _ ▸ hruns)

theorem unstarted_of_running {caller : PostCallbacksCaller} (hcontrol : s.control = .running caller) :
    s.unstarted = s.callbacks := by
  simp only [unstarted, hcontrol]

theorem unstarted_of_inTask {caller : PostCallbacksCaller} (hcontrol : s.control = .inTask caller) :
    s.unstarted = s.callbacks.tail := by
  simp only [unstarted, hcontrol]

/-- A task that starts goes from the one list to the other. -/
theorem ran_append_unstarted {caller : PostCallbacksCaller} (hcontrol : s.control = .running caller)
    {callback : Task} {rest : List Task} (hcallbacks : s.callbacks = callback :: rest) :
    s.ran ++ s.unstarted = (s.ran ++ [callback]) ++ s.callbacks.tail := by
  rw [unstarted_of_running hcontrol, hcallbacks, List.tail_cons, List.append_assoc, List.singleton_append]

theorem Inv.move (h : s.Inv) {t : LibeventDispatcher Thread Task} (hmove : s.LoopMove t) : t.Inv := by
  cases hmove with
  | stay => exact h
  | swap hcontrol =>
      have hnone : s.callbacks = [] := h.noneHeld (by rw [hcontrol]; rfl)
      refine ⟨?_, fun hrest => Bool.noConfusion hrest, fun hqueue => absurd rfl hqueue⟩
      change s.posted = s.ran ++ s.postCallbacks ++ []
      rw [h.inOrder, unstarted_of_noneHeld hnone, List.append_nil, List.append_nil]
  | startTask hcontrol hcallbacks =>
      refine ⟨?_, fun hrest => Bool.noConfusion hrest, fun hqueue => ?_⟩
      · exact h.inOrder.trans (congrArg (· ++ s.postCallbacks) (ran_append_unstarted hcontrol hcallbacks))
      · exact (h.woken hqueue).imp_right (Or.imp_right (by rw [hcontrol]; exact id))
  | endTask hcontrol =>
      refine ⟨?_, fun hrest => Bool.noConfusion hrest, fun hqueue => ?_⟩
      · exact h.inOrder.trans (congrArg (s.ran ++ · ++ s.postCallbacks) (unstarted_of_inTask hcontrol))
      · exact (h.woken hqueue).imp_right (Or.imp_right (by rw [hcontrol]; exact id))
  | read hcontrol _ => exact ⟨h.inOrder, h.noneHeld, fun _ => Or.inr (Or.inr (by rw [hcontrol]; rfl))⟩
  | goTo hnone hsweeps _ => exact h.goTo (h.callbacks_of_move hnone) hsweeps

/-! ### Every step -/

theorem Inv.run (h : s.Inv) (houtside : s.control = .outside) (thread : Thread) (type : RunType) :
    (s.run thread type).Inv := by
  have hnone : s.callbacks = [] := h.noneHeld (by rw [houtside]; rfl)
  have hmoved : ({ s with control := .swapping .beforeLoop } : LibeventDispatcher Thread Task).Inv :=
    h.goTo hnone fun _ => rfl
  exact ⟨hmoved.inOrder, hmoved.noneHeld, hmoved.woken⟩

variable [DecidableEq Thread]

theorem Inv.step (h : s.Inv) (op : Step Thread Task) : (s.step op).Inv := by
  cases op with
  | post thread callback =>
      dsimp only [LibeventDispatcher.step]
      split_ifs with hcan
      · simp only [canPost, Bool.and_eq_true, Option.isNone_iff_eq_none] at hcan
        exact h.post hcan.1 callback
      · exact h
  | wake thread =>
      dsimp only [LibeventDispatcher.step]
      split
      · exact h.wake ‹_›
      · exact h
  | requestExit => exact { h with }
  | run thread type =>
      dsimp only [LibeventDispatcher.step]
      split_ifs with hcan
      · exact h.run hcan.1 thread type
      · exact h
  | loop op =>
      dsimp only [LibeventDispatcher.step]
      split_ifs
      · exact h.move (s.loopStep_move op)
      · exact h

/-- The loop's thread is in a post only where the loop is in code that may post. -/
def Free (s : LibeventDispatcher Thread Task) : Prop := s.control.mayPost = false → s.loopIsFree = true

theorem Free.post (h : s.Free) {thread : Thread} (hcan : s.canPost thread = true) (callback : Task) :
    (s.post thread callback).Free := by
  intro hcontrol
  have hbusy : s.control.mayPost = false := hcontrol
  have hfree := h hbusy
  simp only [canPost, hbusy, Bool.false_or, Bool.and_eq_true, bne_iff_ne] at hcan
  simp only [loopIsFree, Option.all_eq_true] at hfree ⊢
  intro looper hlooper
  have hne : looper ≠ thread := by
    rintro rfl
    exact hcan.2 hlooper
  simpa [LibeventDispatcher.post, Function.update_of_ne hne] using hfree looper hlooper

theorem Free.wake (h : s.Free) (thread : Thread) (needWakeup : Bool) : (s.wake thread needWakeup).Free := by
  intro hcontrol
  have hfree := h hcontrol
  simp only [loopIsFree, Option.all_eq_true] at hfree ⊢
  intro looper hlooper
  by_cases heq : looper = thread
  · simp [LibeventDispatcher.wake, heq]
  · simpa [LibeventDispatcher.wake, Function.update_of_ne heq] using hfree looper hlooper

omit [DecidableEq Thread] in
theorem LoopMove.loopIsFree_eq {t : LibeventDispatcher Thread Task} (hmove : s.LoopMove t) :
    t.loopIsFree = s.loopIsFree := by
  cases hmove <;> rfl

theorem Free.step (h : s.Free) (op : Step Thread Task) : (s.step op).Free := by
  cases op with
  | post thread callback =>
      dsimp only [LibeventDispatcher.step]
      split_ifs with hcan
      · exact h.post hcan callback
      · exact h
  | wake thread =>
      dsimp only [LibeventDispatcher.step]
      split
      · exact h.wake _ _
      · exact h
  | requestExit => exact h
  | run thread type =>
      dsimp only [LibeventDispatcher.step]
      split_ifs with hcan
      · intro _
        simp [loopIsFree, LibeventDispatcher.run, hcan.2]
      · exact h
  | loop op =>
      dsimp only [LibeventDispatcher.step]
      split_ifs with hfree
      · intro _
        rw [(s.loopStep_move op).loopIsFree_eq, hfree]
      · exact h

/-! ### From a wake-up to the tasks it is for -/

/-- What had entered the queue has been run where the loop can block, and is taken at the latest by the swap that is
due before that. -/
structure Serves (entered : List Task) (s : LibeventDispatcher Thread Task) : Prop where
  queued : entered <+: s.posted
  taken : s.control.willSwap = false → entered <+: s.ran ++ s.unstarted

variable {entered : List Task}

omit [DecidableEq Thread] in
theorem Serves.move (h : s.Serves entered) (hinv : s.Inv) {t : LibeventDispatcher Thread Task}
    (hmove : s.LoopMove t) : t.Serves entered := by
  cases hmove with
  | stay => exact h
  | swap hcontrol =>
      have hnone : s.callbacks = [] := hinv.noneHeld (by rw [hcontrol]; rfl)
      refine ⟨h.queued, fun _ => ?_⟩
      change entered <+: s.ran ++ s.postCallbacks
      have hposted : s.posted = s.ran ++ s.postCallbacks := by
        rw [hinv.inOrder, unstarted_of_noneHeld hnone, List.append_nil]
      exact hposted ▸ h.queued
  | startTask hcontrol hcallbacks =>
      refine ⟨h.queued, fun _ => ?_⟩
      have htaken := h.taken (by rw [hcontrol]; rfl)
      rw [ran_append_unstarted hcontrol hcallbacks] at htaken
      exact htaken
  | endTask hcontrol =>
      refine ⟨h.queued, fun _ => ?_⟩
      have htaken := h.taken (by rw [hcontrol]; rfl)
      rw [unstarted_of_inTask hcontrol] at htaken
      exact htaken
  | read _ _ => exact ⟨h.queued, h.taken⟩
  | goTo hnone _ hswaps =>
      refine ⟨h.queued, fun hnext => ?_⟩
      have hempty := hinv.callbacks_of_move hnone
      have htaken := h.taken (eq_false_of_ne_true fun hswap => absurd (hswaps hswap) (by rw [hnext]; decide))
      rw [unstarted_of_noneHeld hempty, List.append_nil] at htaken
      exact htaken.trans (List.prefix_append _ _)

theorem Serves.step (h : s.Serves entered) (hinv : s.Inv) (op : Step Thread Task) :
    (s.step op).Serves entered := by
  cases op with
  | post thread callback =>
      dsimp only [LibeventDispatcher.step]
      split_ifs
      · exact ⟨h.queued.trans (List.prefix_append _ _), h.taken⟩
      · exact h
  | wake thread =>
      dsimp only [LibeventDispatcher.step]
      split
      · exact ⟨h.queued, h.taken⟩
      · exact h
  | requestExit => exact ⟨h.queued, h.taken⟩
  | run thread type =>
      dsimp only [LibeventDispatcher.step]
      split_ifs
      · exact ⟨h.queued, fun hswap => Bool.noConfusion hswap⟩
      · exact h
  | loop op =>
      dsimp only [LibeventDispatcher.step]
      split_ifs
      · exact h.move hinv (s.loopStep_move op)
      · exact h

/-- A loop that found the pipe readable has run all that was queued then when it can block again. -/
theorem Inv.served (h : s.Inv) (hfree : s.Free) (hblocking : s.control = .blocking)
    (hreadable : s.wakeupPipe.Readable) (ops : List (Step Thread Task)) {t : LibeventDispatcher Thread Task}
    (hrun : Runs.run LibeventDispatcher.step s (.loop .poll :: ops) = t) (hagain : t.control = .blocking) :
    s.posted <+: t.ran := by
  have hwoken : s.step (.loop .poll) = { s with control := .dispatching true } := by
    simp [LibeventDispatcher.step, hfree (by rw [hblocking]; rfl), loopStep, hblocking, hreadable]
  have hserves : (s.step (.loop .poll)).Serves s.posted := by
    rw [hwoken]
    exact ⟨List.prefix_rfl, fun hswap => Bool.noConfusion hswap⟩
  have hend := Runs.invariant_of_every_step LibeventDispatcher.step
    (fun (t : LibeventDispatcher Thread Task) op (ht : t.Inv ∧ t.Serves s.posted) => ⟨ht.1.step op, ht.2.step ht.1 op⟩)
    ⟨h.step (.loop .poll), hserves⟩ ops
  rw [Runs.run_cons] at hrun
  rw [hrun] at hend
  have htaken := hend.2.taken (by rw [hagain]; rfl)
  rwa [unstarted_of_noneHeld (hend.1.noneHeld (by rw [hagain]; rfl)), List.append_nil] at htaken

/-! ### What is promised -/

/-- Where the loop is about to block with a task queued, the library has something to report. -/
def WakeupReadable (s : LibeventDispatcher Thread Task) : Prop :=
  s.control = .blocking → s.postCallbacks ≠ [] → s.wakeupPipe.Readable

/-- Tasks are run once each and in order. A loop about to block has none in hand, and where one is queued the pipe is
readable or will be by a post that is not finished; it does not block again before it has run them. -/
structure DeliversTasks (s : LibeventDispatcher Thread Task) : Prop where
  inOrder : s.posted = s.ran ++ s.unstarted ++ s.postCallbacks
  noneHeld : s.control = .blocking → s.unstarted = []
  woken : s.control = .blocking → s.postCallbacks ≠ [] → s.wakeupPipe.Readable ∨
    ∃ thread, s.posting thread = some true ∧ (s.step (.wake thread)).wakeupPipe.Readable
  served : s.control = .blocking → s.wakeupPipe.Readable → ∀ ops,
    (Runs.run LibeventDispatcher.step s (.loop .poll :: ops)).control = .blocking →
      s.posted <+: (Runs.run LibeventDispatcher.step s (.loop .poll :: ops)).ran

/-- **No task is lost, and no wake-up**, once the post that owes the byte has made its write. -/
theorem delivers_tasks {capacity : Nat} (hasRoom : 0 < capacity) (ops : List (Step Thread Task)) :
    (Runs.run step (create capacity hasRoom : LibeventDispatcher Thread Task) ops).DeliversTasks := by
  obtain ⟨hinv, hfree⟩ := Runs.invariant_of_every_step step
    (fun (t : LibeventDispatcher Thread Task) op (ht : t.Inv ∧ t.Free) => ⟨ht.1.step op, ht.2.step op⟩)
    ⟨create_inv capacity hasRoom, fun _ => rfl⟩ ops
  generalize Runs.run step (create capacity hasRoom : LibeventDispatcher Thread Task) ops = s at hinv hfree
  refine ⟨hinv.inOrder, fun hblocking => ?_, fun hblocking hqueue => ?_, fun hblocking hreadable later hagain => ?_⟩
  · exact unstarted_of_noneHeld (hinv.noneHeld (by rw [hblocking]; rfl))
  · rcases hinv.woken hqueue with hreadable | ⟨thread, hthread⟩ | hsweeps
    · exact Or.inl hreadable
    · refine Or.inr ⟨thread, hthread, ?_⟩
      have hstep : s.step (.wake thread) = s.wake thread true := by
        simp only [LibeventDispatcher.step, hthread]
      rw [hstep]
      exact s.wakeupPipe.write_readable
    · rw [hblocking] at hsweeps
      exact Bool.noConfusion hsweeps
  · exact hinv.served hfree hblocking hreadable later rfl hagain

theorem delivers_tasks_one : (Runs.run step (create 1 Nat.one_pos) [.post 1 7, .wake 1, .run 0 RunType.runUntilExit,
    .loop .swap, .loop .startTask] : LibeventDispatcher Nat Nat).DeliversTasks :=
  delivers_tasks Nat.one_pos _

/-- A post has given the lock back and not written when the loop gets to where it blocks. -/
theorem not_wakeupReadable_unwritten : ¬ WakeupReadable (Runs.run step (create 65536 (by decide))
    [.run 0 RunType.runUntilExit, .loop .swap, .loop .returnFromCallbacks, .post 1 7] :
      LibeventDispatcher Nat Nat) := by
  intro h
  have hreadable := h rfl (List.cons_ne_nil 7 [])
  exact absurd hreadable (Nat.lt_irrefl 0)

end LibeventDispatcher

end GopherMcp
