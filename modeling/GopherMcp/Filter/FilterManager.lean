import GopherMcp.Core.Bytes
import GopherMcp.Lib.Runs

/-!
# The filter manager

What a connection reads goes through its read filters in their order, until one of them stops it or takes all
of it. A filter may hand data of its own to those behind it, and have the reading continued that it stopped.
Both go by the position that the last iteration left behind. While filters are running that is the end of the
chain, and after one has stopped it is that filter.
-/

namespace GopherMcp

inductive FilterStatus
  | continue | stopIteration
  deriving DecidableEq

/-- What a filter is given: what the connection read, or what another filter injected; an injection puts the
position back that it found. -/
inductive Delivery
  | reading
  | injecting (saved : Nat)

/-- An iteration over the filters that is not over: the filter that is first to have the data, where that is
promised; those that had it, and whether it went on from each; and the one that has it. -/
structure FilterFrame where
  delivery : Delivery
  promised : Option Nat
  completed : List (Nat × Bool)
  entry : Nat

/-- An iteration that is over. -/
structure FilterPass where
  promised : Option Nat
  completed : List (Nat × Bool)

/-- The manager of so many read filters; the end of the chain is their number. Iterations are nested, the
innermost first. Beside its position are kept: what was read and not taken; the filter that stopped the
reading; the iterations that are over; and the filters that were ever given data. -/
structure FilterManager where
  count : Nat
  currentReadFilter : Nat
  buffer : Bytes
  frames : List FilterFrame
  stopped : Option Nat
  passes : List FilterPass
  called : List Nat

/-- What happens to a manager: something is read; a filter injects data; a filter has the reading continued;
the filter that has the data returns, with what it left of it. -/
inductive FilterOp
  | read (bytes : Bytes)
  | inject (filter : Nat) (data : Bytes)
  | continueReading
  | return (status : FilterStatus) (rest : Bytes)

namespace FilterManager

def new (count : Nat) : FilterManager where
  count := count
  currentReadFilter := count
  buffer := []
  frames := []
  stopped := none
  passes := []
  called := []

/-- An iteration from a position on. -/
def enter (s : FilterManager) (delivery : Delivery) (promised : Option Nat) (start : Nat) : FilterManager :=
  if start < s.count then
    { s with
      currentReadFilter := s.count
      frames := ⟨delivery, promised, [], start⟩ :: s.frames
      called := s.called ++ [start]
      stopped := match delivery with
        | .reading => none
        | .injecting _ => s.stopped }
  else { s with passes := s.passes ++ [⟨promised, []⟩] }

/-- `onRead`, after something was read. -/
def onRead (s : FilterManager) (bytes : Bytes) : FilterManager :=
  let s := { s with buffer := s.buffer ++ bytes }
  if s.buffer.isEmpty then s else { s with currentReadFilter := 0 }.enter .reading (some 0) 0

/-- What is promised of the filter that stopped: the data goes to those behind it. -/
def continueReading (s : FilterManager) : FilterManager :=
  s.enter .reading (if s.buffer.isEmpty then none else s.stopped.map (· + 1)) s.currentReadFilter

/-- Where an injection starts. -/
def injectStart (s : FilterManager) : Nat :=
  if s.currentReadFilter = s.count then 0 else s.currentReadFilter + 1

/-- What is promised of a filter that injects: the data goes to those behind it. -/
def injectReadDataToFilterChain (s : FilterManager) (filter : Nat) (data : Bytes) : FilterManager :=
  if data.isEmpty then s
  else s.enter (.injecting s.currentReadFilter) (some (filter + 1)) s.injectStart

/-- The innermost iteration is over; a position is left behind. -/
def leave (s : FilterManager) (frame : FilterFrame) (outer : List FilterFrame) (wentOn : Bool)
    (position : Nat) : FilterManager :=
  { s with
    currentReadFilter := match frame.delivery with
      | .reading => position
      | .injecting saved => saved
    frames := outer
    passes := s.passes ++ [⟨frame.promised, frame.completed ++ [(frame.entry, wentOn)]⟩] }

/-- What the filter that has the data leaves of what was read, and whether it stops it. -/
def giveBack (s : FilterManager) (frame : FilterFrame) (status : FilterStatus) (rest : Bytes) :
    FilterManager :=
  match frame.delivery with
  | .reading =>
      { s with
        buffer := rest
        stopped := if status = .stopIteration then some frame.entry else none }
  | .injecting _ => s

/-- The data goes on to the next filter. -/
def goOn (s : FilterManager) (frame : FilterFrame) (outer : List FilterFrame) : FilterManager :=
  { s with
    frames := ⟨frame.delivery, frame.promised, frame.completed ++ [(frame.entry, true)], frame.entry + 1⟩ :: outer
    called := s.called ++ [frame.entry + 1] }

/-- The filter that has the data returns. -/
def onReturn (s : FilterManager) (status : FilterStatus) (rest : Bytes) : FilterManager :=
  match s.frames with
  | [] => s
  | frame :: outer =>
      if status = .stopIteration ∨ rest = [] then
        (s.giveBack frame status rest).leave frame outer false frame.entry
      else if frame.entry + 1 < s.count then (s.giveBack frame status rest).goOn frame outer
      else (s.giveBack frame status rest).leave frame outer true s.count

def step (s : FilterManager) : FilterOp → FilterManager
  | .read bytes => s.onRead bytes
  | .inject filter data => s.injectReadDataToFilterChain filter data
  | .continueReading => s.continueReading
  | .return status rest => s.onReturn status rest

/-! ### What is promised -/

/-- From the first filter on each has the data in turn, up to the one it does not go on from. -/
def Chain (count : Nat) : Nat → List (Nat × Bool) → Option Nat → Prop
  | first, [], active => active = if first < count then some first else none
  | first, (filter, wentOn) :: rest, active =>
      filter = first ∧ first < count ∧ if wentOn then Chain count (first + 1) rest active
        else rest = [] ∧ active = none

/-- The data goes to the filter it is promised to, and on from there. -/
def Keeps (count : Nat) (promised : Option Nat) (completed : List (Nat × Bool)) (active : Option Nat) : Prop :=
  ∀ first, promised = some first → Chain count first completed active

/-- In every iteration, those that are over and those that are not. -/
def InOrder (s : FilterManager) : Prop :=
  (∀ pass ∈ s.passes, Keeps s.count pass.promised pass.completed none) ∧
    ∀ frame ∈ s.frames, Keeps s.count frame.promised frame.completed (some frame.entry)

/-- A filter injects during its own call or after one. -/
def Called (s : FilterManager) : FilterOp → Prop
  | .inject filter _ => filter ∈ s.called
  | _ => True

/-- Data is injected by the filter at the position that was left behind, and reading is continued at the one
behind the filter that stopped it, where there is something to inject or to read. -/
def AtPosition (s : FilterManager) : FilterOp → Prop
  | .inject filter data => data = [] ∨ s.currentReadFilter = filter
  | .continueReading => s.buffer = [] ∨ ∀ filter, s.stopped = some filter → s.currentReadFilter = filter + 1
  | _ => True

/-! ### Iterations -/

theorem chain_concat {count first entry : Nat} {completed : List (Nat × Bool)}
    (h : Chain count first completed (some entry)) :
    Chain count first (completed ++ [(entry, false)]) none ∧
      Chain count first (completed ++ [(entry, true)]) (if entry + 1 < count then some (entry + 1) else none) := by
  induction completed generalizing first with
  | nil =>
      unfold Chain at h
      split_ifs at h with hfirst
      · obtain rfl := Option.some.inj h
        exact ⟨⟨rfl, hfirst, by simp⟩, ⟨rfl, hfirst, by simp [Chain]⟩⟩
  | cons delivered rest ih =>
      obtain ⟨filter, wentOn⟩ := delivered
      obtain ⟨hfilter, hfirst, hrest⟩ := h
      cases wentOn with
      | true =>
          obtain ⟨hstop, hgo⟩ := ih hrest
          exact ⟨⟨hfilter, hfirst, hstop⟩, ⟨hfilter, hfirst, hgo⟩⟩
      | false => exact absurd hrest.2 (by simp)

/-- An iteration that begins keeps its promise exactly if it begins where it is promised. -/
theorem chain_nil_iff {count first start : Nat} (hfirst : first ≤ count) (hstart : start ≤ count) :
    Chain count first [] (if start < count then some start else none) ↔ start = first := by
  unfold Chain
  constructor
  · intro h
    split_ifs at h with hs hf hf
    · exact Option.some.inj h
    · omega
  · rintro rfl
    rfl

/-! ### The invariant -/

structure Sound (s : FilterManager) : Prop where
  current : s.currentReadFilter ≤ s.count
  entries : ∀ frame ∈ s.frames, frame.entry < s.count
  saved : ∀ frame ∈ s.frames, ∀ position, frame.delivery = .injecting position → position ≤ s.count
  stopped : ∀ filter, s.stopped = some filter → filter < s.count
  called : ∀ filter ∈ s.called, filter < s.count
  inOrder : InOrder s

theorem sound_enter {s : FilterManager} (h : Sound s) {delivery : Delivery} {promised : Option Nat}
    {start : Nat} (hstart : start ≤ s.count)
    (hsaved : ∀ position, delivery = .injecting position → position ≤ s.count)
    (hpromise : ∀ first, promised = some first → start = first) : Sound (s.enter delivery promised start) := by
  have hkeeps : Keeps s.count promised [] (if start < s.count then some start else none) := by
    intro first hfirst
    obtain rfl := hpromise first hfirst
    exact (chain_nil_iff hstart hstart).mpr rfl
  unfold enter
  split
  case isTrue hlt =>
    rw [if_pos hlt] at hkeeps
    refine ⟨Nat.le_refl _, ?_, ?_, ?_, ?_, h.inOrder.1, ?_⟩
    · exact List.forall_mem_cons.mpr ⟨hlt, h.entries⟩
    · exact List.forall_mem_cons.mpr ⟨hsaved, h.saved⟩
    · intro filter hfilter
      cases delivery with
      | reading => cases hfilter
      | injecting saved => exact h.stopped filter hfilter
    · intro filter hfilter
      rcases List.mem_append.mp hfilter with hold | hnew
      · exact h.called filter hold
      · exact List.mem_singleton.mp hnew ▸ hlt
    · exact List.forall_mem_cons.mpr ⟨hkeeps, h.inOrder.2⟩
  case isFalse hnot =>
    rw [if_neg hnot] at hkeeps
    refine ⟨h.current, h.entries, h.saved, h.stopped, h.called, fun pass hpass => ?_, h.inOrder.2⟩
    rcases List.mem_append.mp hpass with hold | hnew
    · exact h.inOrder.1 pass hold
    · rw [List.mem_singleton.mp hnew]
      exact hkeeps

/-- An iteration that begins elsewhere is out of order at once. -/
theorem not_inOrder_enter {s : FilterManager} {delivery : Delivery} {first start : Nat}
    (hfirst : first ≤ s.count) (hstart : start ≤ s.count) (hne : start ≠ first) :
    ¬ InOrder (s.enter delivery (some first) start) := by
  have hnot : ¬ Chain s.count first [] (if start < s.count then some start else none) :=
    fun hchain => hne ((chain_nil_iff hfirst hstart).mp hchain)
  unfold enter
  split
  case isTrue hlt =>
    rw [if_pos hlt] at hnot
    exact fun hinOrder => hnot (hinOrder.2 _ List.mem_cons_self first rfl)
  case isFalse hge =>
    rw [if_neg hge] at hnot
    exact fun hinOrder =>
      hnot (hinOrder.1 _ (List.mem_append_right _ (List.mem_singleton_self _)) first rfl)

theorem injectStart_le {s : FilterManager} (h : Sound s) : s.injectStart ≤ s.count := by
  have := h.current
  unfold injectStart
  split <;> omega

/-- An injection begins behind a filter exactly if the position is that filter. -/
theorem injectStart_eq_iff {s : FilterManager} {filter : Nat} (hfilter : filter < s.count) :
    s.injectStart = filter + 1 ↔ s.currentReadFilter = filter := by
  unfold injectStart
  split <;> omega

theorem sound_giveBack {s : FilterManager} (h : Sound s) {frame : FilterFrame} (hframe : frame ∈ s.frames)
    (status : FilterStatus) (rest : Bytes) : Sound (s.giveBack frame status rest) := by
  unfold giveBack
  split
  case h_1 =>
    refine ⟨h.current, h.entries, h.saved, fun filter hfilter => ?_, h.called, h.inOrder⟩
    split at hfilter
    · exact Option.some.inj hfilter ▸ h.entries frame hframe
    · cases hfilter
  case h_2 => exact h

theorem frames_giveBack (s : FilterManager) (frame : FilterFrame) (status : FilterStatus) (rest : Bytes) :
    (s.giveBack frame status rest).frames = s.frames ∧ (s.giveBack frame status rest).count = s.count := by
  unfold giveBack
  split
  case h_1 => exact ⟨rfl, rfl⟩
  case h_2 => exact ⟨rfl, rfl⟩

theorem sound_leave {s : FilterManager} (h : Sound s) {frame : FilterFrame} {outer : List FilterFrame}
    (hframes : s.frames = frame :: outer) {wentOn : Bool} {position : Nat} (hposition : position ≤ s.count)
    (hkeeps : Keeps s.count frame.promised (frame.completed ++ [(frame.entry, wentOn)]) none) :
    Sound (s.leave frame outer wentOn position) := by
  have hframe : frame ∈ s.frames := hframes ▸ List.mem_cons_self
  have houter : ∀ other ∈ outer, other ∈ s.frames := fun other hother => hframes ▸ List.mem_cons_of_mem _ hother
  refine ⟨?_, fun other hother => h.entries other (houter other hother),
    fun other hother => h.saved other (houter other hother), h.stopped, h.called, fun pass hpass => ?_,
    fun other hother => h.inOrder.2 other (houter other hother)⟩
  · show (match frame.delivery with
      | .reading => position
      | .injecting saved => saved) ≤ s.count
    cases hdelivery : frame.delivery with
    | reading => exact hposition
    | injecting saved => exact h.saved frame hframe saved hdelivery
  · rcases List.mem_append.mp hpass with hold | hnew
    · exact h.inOrder.1 pass hold
    · rw [List.mem_singleton.mp hnew]
      exact hkeeps

theorem sound_goOn {s : FilterManager} (h : Sound s) {frame : FilterFrame} {outer : List FilterFrame}
    (hframes : s.frames = frame :: outer) (hnext : frame.entry + 1 < s.count) :
    Sound (s.goOn frame outer) := by
  have hframe : frame ∈ s.frames := hframes ▸ List.mem_cons_self
  have houter : ∀ other ∈ outer, other ∈ s.frames := fun other hother => hframes ▸ List.mem_cons_of_mem _ hother
  refine ⟨h.current, ?_, ?_, h.stopped, fun filter hfilter => ?_, h.inOrder.1, ?_⟩
  · exact List.forall_mem_cons.mpr ⟨hnext, fun other hother => h.entries other (houter other hother)⟩
  · exact List.forall_mem_cons.mpr ⟨h.saved frame hframe, fun other hother => h.saved other (houter other hother)⟩
  · rcases List.mem_append.mp hfilter with hold | hnew
    · exact h.called filter hold
    · exact List.mem_singleton.mp hnew ▸ hnext
  · refine List.forall_mem_cons.mpr ⟨fun first hfirst => ?_,
      fun other hother => h.inOrder.2 other (houter other hother)⟩
    have hgo := (chain_concat (h.inOrder.2 frame hframe first hfirst)).2
    rwa [if_pos hnext] at hgo

theorem sound_onReturn {s : FilterManager} (h : Sound s) (status : FilterStatus) (rest : Bytes) :
    Sound (s.onReturn status rest) := by
  unfold onReturn
  split
  case h_1 => exact h
  case h_2 frame outer hframes =>
    have hframe : frame ∈ s.frames := hframes ▸ List.mem_cons_self
    obtain ⟨hsame, hcount⟩ := s.frames_giveBack frame status rest
    have hback := sound_giveBack h hframe status rest
    have hentry := h.entries frame hframe
    split_ifs with hstop hnext
    · refine sound_leave hback (hsame.trans hframes) (hcount ▸ Nat.le_of_lt hentry) fun first hfirst => ?_
      rw [hcount]
      exact (chain_concat (h.inOrder.2 frame hframe first hfirst)).1
    · exact sound_goOn hback (hsame.trans hframes) (hcount ▸ hnext)
    · refine sound_leave hback (hsame.trans hframes) (hcount ▸ Nat.le_refl _) fun first hfirst => ?_
      rw [hcount]
      have hgo := (chain_concat (h.inOrder.2 frame hframe first hfirst)).2
      rwa [if_neg hnext] at hgo

theorem sound_onRead {s : FilterManager} (h : Sound s) (bytes : Bytes) : Sound (s.onRead bytes) := by
  unfold onRead
  dsimp only
  split
  case isTrue => exact ⟨h.current, h.entries, h.saved, h.stopped, h.called, h.inOrder⟩
  case isFalse =>
    have hstart : Sound { s with buffer := s.buffer ++ bytes, currentReadFilter := 0 } :=
      ⟨Nat.zero_le _, h.entries, h.saved, h.stopped, h.called, h.inOrder⟩
    refine sound_enter hstart (Nat.zero_le _) (fun position hposition => ?_) fun first hfirst => ?_
    · cases hposition
    · exact Option.some.inj hfirst

/-- Every step keeps the order that is taken at the position it should be. -/
theorem sound_step {s : FilterManager} (h : Sound s) {op : FilterOp} (hcalled : Called s op)
    (ok : AtPosition s op) : Sound (s.step op) := by
  cases op with
  | read bytes => exact sound_onRead h bytes
  | «return» status rest => exact sound_onReturn h status rest
  | inject filter data =>
      show Sound (s.injectReadDataToFilterChain filter data)
      unfold injectReadDataToFilterChain
      split
      case isTrue => exact h
      case isFalse hfull =>
        refine sound_enter h (injectStart_le h) (fun position hposition => ?_) fun first hfirst => ?_
        · cases hposition
          exact h.current
        · obtain rfl := Option.some.inj hfirst
          refine (injectStart_eq_iff (h.called filter hcalled)).mpr (ok.resolve_left fun hempty => ?_)
          exact hfull (List.isEmpty_iff.mpr hempty)
  | continueReading =>
      refine sound_enter h h.current (fun position hposition => ?_) fun first hfirst => ?_
      · cases hposition
      · split at hfirst
        case isTrue => cases hfirst
        case isFalse hfull =>
          obtain ⟨filter, hstopped, rfl⟩ := Option.map_eq_some_iff.mp hfirst
          exact ok.resolve_left (fun hempty => hfull (List.isEmpty_iff.mpr hempty)) filter hstopped

/-- Taken elsewhere, it is out of order. -/
theorem not_inOrder_step {s : FilterManager} (h : Sound s) {op : FilterOp} (hcalled : Called s op)
    (hnot : ¬ AtPosition s op) : ¬ InOrder (s.step op) := by
  cases op with
  | read bytes => exact absurd trivial hnot
  | «return» status rest => exact absurd trivial hnot
  | inject filter data =>
      obtain ⟨hfull, hposition⟩ := not_or.mp hnot
      have hfilter := h.called filter hcalled
      show ¬ InOrder (s.injectReadDataToFilterChain filter data)
      unfold injectReadDataToFilterChain
      rw [if_neg (by simpa using hfull)]
      exact not_inOrder_enter hfilter (injectStart_le h) fun heq => hposition ((injectStart_eq_iff hfilter).mp heq)
  | continueReading =>
      obtain ⟨hfull, hposition⟩ := not_or.mp hnot
      obtain ⟨filter, hfilter⟩ := not_forall.mp hposition
      obtain ⟨hstopped, hne⟩ := Classical.not_imp.mp hfilter
      show ¬ InOrder (s.enter .reading (if s.buffer.isEmpty then none else s.stopped.map (· + 1)) _)
      rw [if_neg (by simpa using hfull), hstopped]
      exact not_inOrder_enter (h.stopped filter hstopped) h.current hne

theorem sound_new (count : Nat) : Sound (new count) := by
  refine ⟨Nat.le_refl _, fun _ hin => ?_, fun _ hin => ?_, fun _ hstopped => ?_, fun _ hin => ?_,
    fun _ hin => ?_, fun _ hin => ?_⟩
  · cases hin
  · cases hin
  · cases hstopped
  · cases hin
  · cases hin
  · cases hin

/-- **Injection and resumption.** Along a run in which filters inject during or after their calls, what is
injected and what is continued goes to the filters behind, in order up to the first that stops, exactly if
every injection is made by the filter at the position that was left behind, and every continuation finds that
position behind the filter that stopped; those with nothing to inject or to read aside. -/
theorem inOrder_everywhere_iff (count : Nat) (ops : List FilterOp)
    (hcalled : Runs.Guarded step Called (new count) ops) :
    (∀ before after, ops = before ++ after → InOrder (Runs.run step (new count) before)) ↔
      Runs.Guarded step AtPosition (new count) ops := by
  refine @Runs.everywhere_iff_of_inv _ _ step Called AtPosition Sound InOrder ?_ (fun _ h => h.inOrder) ?_ _
    (sound_new count) ops hcalled
  · exact fun s op hcalled hok h => sound_step h hcalled hok
  · exact fun s op hcalled h hnot => not_inOrder_step h hcalled hnot

/-- Two filters, of which the first stops what was read and injects something then. -/
theorem inOrder_everywhere_iff_stopped :
    Runs.Guarded step Called (new 2) [.read [1], .return .stopIteration [1], .inject 0 [2]] ∧
      ((∀ before after, [.read [1], .return .stopIteration [1], .inject 0 [2]] = before ++ after →
        InOrder (Runs.run step (new 2) before)) ↔
      Runs.Guarded step AtPosition (new 2) [.read [1], .return .stopIteration [1], .inject 0 [2]]) := by
  have hcalled : Runs.Guarded step Called (new 2) [.read [1], .return .stopIteration [1], .inject 0 [2]] :=
    ⟨trivial, trivial, List.mem_cons_self, trivial⟩
  exact ⟨hcalled, inOrder_everywhere_iff 2 _ hcalled⟩

/-- A filter that injects in its own call is given its own data, and one that stopped is given again what it
stopped. -/
theorem not_always_inOrder :
    ¬ InOrder (Runs.run step (new 2) [.read [1], .inject 0 [2]]) ∧
      ¬ InOrder (Runs.run step (new 2) [.read [1], .return .stopIteration [1], .continueReading]) := by
  constructor
  · intro hinOrder
    have hactive : some 0 = some 1 := hinOrder.2 ⟨.injecting 2, some 1, [], 0⟩ List.mem_cons_self 1 rfl
    cases hactive
  · intro hinOrder
    have hactive : some 0 = some 1 := hinOrder.2 ⟨.reading, some 1, [], 0⟩ List.mem_cons_self 1 rfl
    cases hactive

end FilterManager

end GopherMcp
