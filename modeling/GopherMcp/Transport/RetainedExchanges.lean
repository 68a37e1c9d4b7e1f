import GopherMcp.Core.RequestId
import GopherMcp.Lib.Runs

/-!
# Retained exchanges

An exchange whose connection has gone is kept for a client that may come back, and once it has finished only for so
long. One timer serves all of those: it is set to the soonest of their deadlines whenever they change, rounded down to
milliseconds, and at once if that deadline has passed. A firing lets go of what has run out and sets the timer again
for the rest.
-/

namespace GopherMcp

/-- An exchange, told from others by its number, and the request it answers. -/
structure RetainedExchange where
  number : Nat
  requestId : Option RequestId
  deriving DecidableEq

/-- The store; of the timer, when it is due. `awaited` are the exchanges whose completion observer the store has set.
The clock counts nanoseconds, the retention is in milliseconds. Beside it are kept the exchanges that were released. -/
structure RetainedExchangeStore where
  now : Int
  retention : Int
  exchanges : List RetainedExchange
  awaited : List RetainedExchange
  expiring : List (RetainedExchange × Int)
  expiryTimer : Option Int
  released : List RetainedExchange

/-- An exchange is handed over, finished or not; a client comes back; an exchange finishes; time passes; the timer is
given the chance to fire. -/
inductive RetainedExchangeOperation
  | retain (exchange : RetainedExchange) (complete : Bool)
  | find (key : RequestIdKey)
  | complete (exchange : RetainedExchange)
  | elapse (duration : Nat)
  | timerFires
  | setRetention (retention : Int)

namespace RetainedExchangeStore

def new (retention : Int) : RetainedExchangeStore where
  now := 0
  retention
  exchanges := []
  awaited := []
  expiring := []
  expiryTimer := none
  released := []

/-- Nanoseconds in a millisecond. -/
def kMillisecond : Int := 1000000

def answers (key : RequestIdKey) (exchange : RetainedExchange) : Bool :=
  (exchange.requestId.map requestIdKey) == some key

def find (s : RetainedExchangeStore) (key : RequestIdKey) : Option RetainedExchange := s.exchanges.find? (answers key)

/-! ### The timer -/

/-- The soonest deadline. -/
def soonest (first : Int) (expiring : List (RetainedExchange × Int)) : Int :=
  expiring.foldl (fun soonest entry => if entry.2 < soonest then entry.2 else soonest) first

/-- The milliseconds until the soonest deadline, none if it has passed. -/
def wait (now soonest : Int) : Int := if soonest ≤ now then 0 else (soonest - now) / kMillisecond

def armExpiryTimer (s : RetainedExchangeStore) : RetainedExchangeStore :=
  match s.expiring with
  | [] => s
  | front :: _ => { s with expiryTimer := some (s.now + wait s.now (soonest front.2 s.expiring) * kMillisecond) }

def scheduleRelease (s : RetainedExchangeStore) (exchange : RetainedExchange) : RetainedExchangeStore :=
  armExpiryTimer { s with expiring := s.expiring ++ [(exchange, s.now + s.retention * kMillisecond)] }

def release (exchanges : List RetainedExchange) (exchange : RetainedExchange) : List RetainedExchange :=
  exchanges.filter fun other => other ≠ exchange

def releaseExpired (s : RetainedExchangeStore) : RetainedExchangeStore :=
  let expired := (s.expiring.filter fun entry => entry.2 ≤ s.now).map Prod.fst
  armExpiryTimer
    { s with
      expiring := s.expiring.filter fun entry => s.now < entry.2
      exchanges := expired.foldl release s.exchanges
      released := s.released ++ expired }

/-! ### Operations -/

def retain (s : RetainedExchangeStore) (exchange : RetainedExchange) (complete : Bool) : RetainedExchangeStore :=
  let kept := { s with exchanges := s.exchanges ++ [exchange] }
  if complete then kept.scheduleRelease exchange else { kept with awaited := exchange :: kept.awaited }

/-- The observer runs once. -/
def complete (s : RetainedExchangeStore) (exchange : RetainedExchange) : RetainedExchangeStore :=
  if s.awaited.contains exchange then
    scheduleRelease { s with awaited := s.awaited.filter fun other => other ≠ exchange } exchange
  else s

/-- A timer that fires is no longer armed. -/
def timerFires (s : RetainedExchangeStore) : RetainedExchangeStore :=
  if s.expiryTimer.any (· ≤ s.now) then releaseExpired { s with expiryTimer := none } else s

def step (s : RetainedExchangeStore) : RetainedExchangeOperation → RetainedExchangeStore
  | .retain exchange complete => s.retain exchange complete
  | .find _ => s
  | .complete exchange => s.complete exchange
  | .elapse duration => { s with now := s.now + duration }
  | .timerFires => s.timerFires
  | .setRetention retention => { s with retention }

/-! ### What is promised -/

/-- Of an exchange: whether its finish is waited for, how often it finished while it was kept or was handed over
finished, and how often it was handed over. -/
structure Tally where
  awaited : Bool
  finished : Nat
  handedOver : Nat

def tally (exchange : RetainedExchange) (t : Tally) : RetainedExchangeOperation → Tally
  | .retain other complete =>
      if other = exchange then
        if complete then { t with finished := t.finished + 1, handedOver := t.handedOver + 1 }
        else { t with awaited := true, handedOver := t.handedOver + 1 }
      else t
  | .complete other =>
      if other = exchange ∧ t.awaited = true then { t with awaited := false, finished := t.finished + 1 } else t
  | _ => t

def tallied (exchange : RetainedExchange) (operations : List RetainedExchangeOperation) : Tally :=
  Runs.run (tally exchange) ⟨false, 0, 0⟩ operations

/-- The timer is armed if something waits for it, and due no later than any deadline, or already. -/
structure OnTime (s : RetainedExchangeStore) : Prop where
  armed : s.expiryTimer.isSome = true ↔ s.expiring ≠ []
  due : ∀ due, s.expiryTimer = some due → ∀ entry ∈ s.expiring, due ≤ entry.2 ∨ due ≤ s.now

/-- How often an exchange waits to be released. -/
def waiting (s : RetainedExchangeStore) (exchange : RetainedExchange) : Nat := (s.expiring.map Prod.fst).count exchange

/-- What finished was released or waits, and what was released is not held any more. -/
structure Accounted (exchange : RetainedExchange) (s : RetainedExchangeStore) (t : Tally) : Prop where
  awaited : s.awaited.contains exchange = t.awaited
  finished : s.released.count exchange + s.waiting exchange = t.finished
  bounded : t.finished + (if t.awaited then 1 else 0) ≤ t.handedOver
  held : s.exchanges.count exchange + s.released.count exchange ≤ t.handedOver

/-! ### The timer is on time -/

variable {s : RetainedExchangeStore} {exchange : RetainedExchange} {t : Tally}

theorem soonest_le (first : Int) (expiring : List (RetainedExchange × Int)) :
    soonest first expiring ≤ first ∧ ∀ entry ∈ expiring, soonest first expiring ≤ entry.2 := by
  unfold soonest
  induction expiring generalizing first with
  | nil => exact ⟨le_refl first, fun entry hentry => absurd hentry List.not_mem_nil⟩
  | cons front rest ih =>
      rw [List.foldl_cons]
      obtain ⟨hfirst, hrest⟩ := ih (if front.2 < first then front.2 else first)
      have hboth : (if front.2 < first then front.2 else first) ≤ first ∧
          (if front.2 < first then front.2 else first) ≤ front.2 := by
        split_ifs with hless
        · exact ⟨hless.le, le_refl _⟩
        · exact ⟨le_refl _, not_lt.mp hless⟩
      refine ⟨hfirst.trans hboth.1, fun entry hentry => ?_⟩
      obtain rfl | hlater := List.mem_cons.mp hentry
      · exact hfirst.trans hboth.2
      · exact hrest entry hlater

/-- The timer is due at a moment that has not passed, or before the deadline. -/
theorem wait_le (now soonest : Int) :
    now + wait now soonest * kMillisecond ≤ soonest ∨ now + wait now soonest * kMillisecond ≤ now := by
  unfold wait kMillisecond
  split_ifs with hpassed
  · right
    omega
  · left
    have hfloor := Int.ediv_mul_le (soonest - now) (show (1000000 : Int) ≠ 0 by decide)
    omega

theorem armExpiryTimer_eq (s : RetainedExchangeStore) :
    ∃ expiryTimer, armExpiryTimer s = { s with expiryTimer } := by
  unfold armExpiryTimer
  split
  · exact ⟨s.expiryTimer, rfl⟩
  · exact ⟨_, rfl⟩

theorem onTime_armExpiryTimer (hidle : s.expiring = [] → s.expiryTimer = none) : (armExpiryTimer s).OnTime := by
  unfold armExpiryTimer
  split
  · rename_i hnone
    refine ⟨?_, fun due hdue => ?_⟩
    · rw [hidle hnone, hnone]
      simp
    · rw [hidle hnone] at hdue
      cases hdue
  · rename_i front rest hsome
    refine ⟨?_, fun due hdue entry hentry => ?_⟩
    · show (some _).isSome = true ↔ s.expiring ≠ []
      rw [hsome]
      simp
    · obtain rfl := Option.some.inj hdue
      have hsoonest := (soonest_le front.2 s.expiring).2 entry hentry
      exact (wait_le s.now (soonest front.2 s.expiring)).imp_left fun hle => hle.trans hsoonest

theorem onTime_scheduleRelease (s : RetainedExchangeStore) (exchange : RetainedExchange) :
    (s.scheduleRelease exchange).OnTime :=
  onTime_armExpiryTimer fun hnone => absurd hnone (by simp)

theorem OnTime.step (h : s.OnTime) (operation : RetainedExchangeOperation) : (s.step operation).OnTime := by
  cases operation with
  | retain exchange complete =>
      show (s.retain exchange complete).OnTime
      unfold retain
      dsimp only
      split_ifs
      · exact onTime_scheduleRelease _ _
      · exact ⟨h.armed, h.due⟩
  | find key => exact h
  | complete exchange =>
      show (s.complete exchange).OnTime
      unfold complete
      split_ifs
      · exact onTime_scheduleRelease _ _
      · exact h
  | elapse duration =>
      refine ⟨h.armed, fun due hdue entry hentry => ?_⟩
      exact (h.due due hdue entry hentry).imp_right fun hpassed =>
        show due ≤ s.now + duration by omega
  | timerFires =>
      show s.timerFires.OnTime
      unfold timerFires
      split_ifs
      · exact onTime_armExpiryTimer fun _ => rfl
      · exact h
  | setRetention retention => exact ⟨h.armed, h.due⟩

theorem onTime_new (retention : Int) : (new retention).OnTime := ⟨by simp [new], fun _ hdue => nomatch hdue⟩

/-- What a firing leaves. -/
theorem releaseExpired_eq (s : RetainedExchangeStore) :
    ∃ expiryTimer, releaseExpired s =
      { s with
        expiring := s.expiring.filter fun entry => s.now < entry.2
        exchanges := ((s.expiring.filter fun entry => entry.2 ≤ s.now).map Prod.fst).foldl release s.exchanges
        released := s.released ++ (s.expiring.filter fun entry => entry.2 ≤ s.now).map Prod.fst
        expiryTimer } :=
  armExpiryTimer_eq _

/-- Whenever the timer is given the chance to fire, nothing is kept beyond its deadline. -/
theorem OnTime.lt_of_mem_timerFires (h : s.OnTime) {entry : RetainedExchange × Int}
    (hentry : entry ∈ s.timerFires.expiring) : s.now < entry.2 := by
  unfold timerFires at hentry
  split_ifs at hentry with hfires
  · obtain ⟨expiryTimer, hreleased⟩ := releaseExpired_eq { s with expiryTimer := none }
    rw [hreleased] at hentry
    simpa using (List.mem_filter.mp hentry).2
  · have hsome : s.expiring ≠ [] := List.ne_nil_of_mem hentry
    obtain ⟨due, hdue⟩ := Option.isSome_iff_exists.mp (h.armed.mpr hsome)
    rw [hdue] at hfires
    have hlater : s.now < due := by simpa using hfires
    obtain hbefore | hpassed := h.due due hdue entry hentry
    · exact hlater.trans_le hbefore
    · omega

/-! ### What finished is released once -/

theorem count_release (exchanges : List RetainedExchange) (other : RetainedExchange) :
    (release exchanges other).count exchange = if exchange = other then 0 else exchanges.count exchange := by
  unfold release
  split_ifs with hsame
  · rw [List.count_eq_zero, hsame]
    simp
  · rw [List.count_filter]
    simpa using hsame

theorem count_foldl_release (expired exchanges : List RetainedExchange) :
    (expired.foldl release exchanges).count exchange =
      if exchange ∈ expired then 0 else exchanges.count exchange := by
  induction expired generalizing exchanges with
  | nil => rfl
  | cons other rest ih =>
      rw [List.foldl_cons, ih, count_release]
      by_cases hlater : exchange ∈ rest
      · rw [if_pos hlater, if_pos (List.mem_cons_of_mem other hlater)]
      · by_cases hsame : exchange = other
        · rw [if_neg hlater, if_pos hsame, if_pos (hsame ▸ List.mem_cons_self)]
        · rw [if_neg hlater, if_neg hsame, if_neg fun hmem => (List.mem_cons.mp hmem).elim hsame hlater]

/-- What waits has run out or waits on. -/
theorem count_expired_add (expiring : List (RetainedExchange × Int)) (now : Int) :
    ((expiring.filter fun entry => entry.2 ≤ now).map Prod.fst).count exchange +
      ((expiring.filter fun entry => now < entry.2).map Prod.fst).count exchange =
    (expiring.map Prod.fst).count exchange := by
  induction expiring with
  | nil => rfl
  | cons entry rest ih =>
      by_cases hdue : entry.2 ≤ now
      · rw [List.filter_cons_of_pos (by simpa using hdue), List.filter_cons_of_neg (by simpa using hdue), List.map_cons,
          List.map_cons, List.count_cons, List.count_cons]
        omega
      · rw [List.filter_cons_of_neg (by simpa using hdue), List.filter_cons_of_pos (by simpa using hdue), List.map_cons,
          List.map_cons, List.count_cons, List.count_cons]
        omega

theorem waiting_concat (expiring : List (RetainedExchange × Int)) (other : RetainedExchange) (deadline : Int) :
    ((expiring ++ [(other, deadline)]).map Prod.fst).count exchange =
      (expiring.map Prod.fst).count exchange + if other = exchange then 1 else 0 := by
  rw [List.map_append, List.count_append]
  by_cases hsame : other = exchange
  · rw [if_pos hsame, ← hsame]
    simp
  · rw [if_neg hsame]
    simp [List.count_eq_zero, Ne.symm hsame]

theorem Accounted.armExpiryTimer (h : Accounted exchange s t) : Accounted exchange s.armExpiryTimer t := by
  obtain ⟨expiryTimer, harmed⟩ := armExpiryTimer_eq s
  rw [harmed]
  exact ⟨h.awaited, h.finished, h.bounded, h.held⟩

theorem count_concat (exchanges : List RetainedExchange) (other : RetainedExchange) :
    (exchanges ++ [other]).count exchange = exchanges.count exchange + if other = exchange then 1 else 0 := by
  rw [List.count_append, List.count_singleton]
  simp

theorem Accounted.retain (h : Accounted exchange s t) (other : RetainedExchange) (complete : Bool) :
    Accounted exchange (s.retain other complete) (tally exchange t (.retain other complete)) := by
  have hfinished := h.finished
  have hbounded := h.bounded
  have hheld := h.held
  unfold waiting at hfinished
  cases complete with
  | true =>
      refine Accounted.armExpiryTimer ?_
      by_cases hsame : other = exchange
      · rw [tally, if_pos hsame, if_pos rfl]
        refine ⟨h.awaited, ?_, by dsimp only; omega, ?_⟩
        · rw [waiting, waiting_concat, if_pos hsame, ← Nat.add_assoc, hfinished]
        · rw [count_concat, if_pos hsame]
          dsimp only
          omega
      · rw [tally, if_neg hsame]
        refine ⟨h.awaited, ?_, hbounded, ?_⟩
        · rw [waiting, waiting_concat, if_neg hsame, Nat.add_zero, hfinished]
        · rw [count_concat, if_neg hsame, Nat.add_zero]
          exact hheld
  | false =>
      show Accounted exchange { s with exchanges := s.exchanges ++ [other], awaited := other :: s.awaited } _
      by_cases hsame : other = exchange
      · rw [tally, if_pos hsame, if_neg Bool.false_ne_true]
        refine ⟨?_, hfinished, ?_, ?_⟩
        · simp [hsame]
        · dsimp only
          split_ifs at hbounded
          · rw [if_pos rfl]
            omega
          · rw [if_pos rfl]
            omega
        · rw [count_concat, if_pos hsame]
          dsimp only
          omega
      · rw [tally, if_neg hsame]
        refine ⟨?_, hfinished, hbounded, ?_⟩
        · rw [← h.awaited]
          simp [Ne.symm hsame]
        · rw [count_concat, if_neg hsame, Nat.add_zero]
          exact hheld

theorem Accounted.complete (h : Accounted exchange s t) (other : RetainedExchange) :
    Accounted exchange (s.complete other) (tally exchange t (.complete other)) := by
  have hfinished := h.finished
  have hbounded := h.bounded
  unfold waiting at hfinished
  unfold RetainedExchangeStore.complete
  by_cases hawaited : s.awaited.contains other = true
  · rw [if_pos hawaited]
    refine Accounted.armExpiryTimer ?_
    by_cases hsame : other = exchange
    · have hwaits : t.awaited = true := by rw [← h.awaited, ← hsame, hawaited]
      rw [tally, if_pos ⟨hsame, hwaits⟩]
      rw [if_pos hwaits] at hbounded
      refine ⟨?_, ?_, hbounded, h.held⟩
      · simp [hsame]
      · rw [waiting, waiting_concat, if_pos hsame, ← Nat.add_assoc, hfinished]
    · rw [tally, if_neg fun hboth => hsame hboth.1]
      refine ⟨?_, ?_, hbounded, h.held⟩
      · rw [← h.awaited]
        simp [Ne.symm hsame]
      · rw [waiting, waiting_concat, if_neg hsame, Nat.add_zero, hfinished]
  · rw [if_neg hawaited, tally, if_neg]
    · exact h
    · rintro ⟨rfl, hwaits⟩
      exact hawaited (h.awaited.trans hwaits)

theorem Accounted.timerFires (h : Accounted exchange s t) : Accounted exchange s.timerFires t := by
  unfold RetainedExchangeStore.timerFires
  split_ifs
  · obtain ⟨expiryTimer, hreleased⟩ := releaseExpired_eq { s with expiryTimer := none }
    rw [hreleased]
    have hfinished := h.finished
    have hbounded := h.bounded
    have hheld := h.held
    unfold waiting at hfinished
    have hsplit := @count_expired_add exchange s.expiring s.now
    refine ⟨h.awaited, ?_, hbounded, ?_⟩
    · rw [waiting, List.count_append]
      dsimp only
      omega
    · rw [List.count_append, count_foldl_release]
      dsimp only
      split_ifs with hexpired
      · omega
      · rw [List.count_eq_zero.mpr hexpired]
        exact hheld
  · exact h

theorem Accounted.step (h : Accounted exchange s t) (operation : RetainedExchangeOperation) :
    Accounted exchange (s.step operation) (tally exchange t operation) := by
  cases operation with
  | retain other complete => exact h.retain other complete
  | find key => exact h
  | complete other => exact h.complete other
  | elapse duration => exact ⟨h.awaited, h.finished, h.bounded, h.held⟩
  | timerFires => exact h.timerFires
  | setRetention retention => exact ⟨h.awaited, h.finished, h.bounded, h.held⟩

theorem accounted_new (exchange : RetainedExchange) (retention : Int) :
    Accounted exchange (new retention) ⟨false, 0, 0⟩ := ⟨rfl, rfl, le_refl 0, le_refl 0⟩

/-! ### Runs -/

/-- **Retention.** After any operations the timer is armed if something waits for it and only then, due no later than
any deadline or already, and given the chance to fire it leaves nothing that has run out. What finished was released
or waits, each finish once, an exchange finishes no more often than it was handed over, and one that was released as
often is no longer held. -/
theorem run_retained (retention : Int) (operations : List RetainedExchangeOperation) :
    let s := Runs.run step (new retention) operations
    (s.expiryTimer.isSome = true ↔ s.expiring ≠ []) ∧
      (∀ due, s.expiryTimer = some due → ∀ entry ∈ s.expiring, due ≤ entry.2 ∨ due ≤ s.now) ∧
      (∀ entry ∈ (s.step .timerFires).expiring, s.now < entry.2) ∧
      ∀ exchange, s.released.count exchange + s.waiting exchange = (tallied exchange operations).finished ∧
        (tallied exchange operations).finished ≤ (tallied exchange operations).handedOver ∧
        s.exchanges.count exchange + s.released.count exchange ≤ (tallied exchange operations).handedOver := by
  have honTime : (Runs.run step (new retention) operations).OnTime :=
    Runs.invariant_of_every_step step (fun _ operation h => h.step operation) (onTime_new retention) operations
  refine ⟨honTime.armed, honTime.due, fun entry hentry => honTime.lt_of_mem_timerFires hentry, fun exchange => ?_⟩
  have haccounted : Accounted exchange (Runs.run step (new retention) operations) (tallied exchange operations) :=
    Runs.simulates step (fun _ _ operation _ h => h.step operation) (accounted_new exchange retention)
      (Runs.guarded_of_forall step (fun _ _ => trivial) (new retention))
  exact ⟨haccounted.finished, le_trans (Nat.le_add_right _ _) haccounted.bounded, haccounted.held⟩

/-- The dispatcher was late: the first deadline has passed when the second exchange is handed over, and the timer is
set to be due now. -/
theorem not_due_le_deadline :
    ¬ ∀ (retention : Int) (operations : List RetainedExchangeOperation) (due : Int),
      (Runs.run step (new retention) operations).expiryTimer = some due →
      ∀ entry ∈ (Runs.run step (new retention) operations).expiring, due ≤ entry.2 := by
  intro h
  have hdue := h 10 [.retain ⟨0, none⟩ true, .elapse 20000000, .retain ⟨1, none⟩ true] 20000000 (by decide)
    (⟨0, none⟩, 10000000) (by decide)
  exact absurd hdue (by decide)

end RetainedExchangeStore

end GopherMcp
