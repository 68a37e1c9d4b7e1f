import GopherMcp.Network.OpenConnection

/-!
# What a connection waits for

The events a connection waits for are replaced as a whole by whoever has an opinion. A write leaves the
connection waiting to write alone while bytes are left, and to read alone once none are, whether or not
reading is disabled; a write event leaves it waiting to read in any case.
-/

namespace GopherMcp

namespace OpenConnection

/-- The connection waits to read unless reading is disabled, and waits to write if there is something to
write. -/
def Listens (s : OpenConnection) : Prop :=
  s.closing = false →
    (s.fileEventState.read = true ↔ s.readDisabled = false) ∧
      (s.writeBuffer ≠ [] → s.fileEventState.write = true)

/-- The answers take all of so many bytes just if reading is enabled, if they leave the connection open. -/
def TakenIfReading (s : OpenConnection) (length : Nat) (answers : List WriteAnswer) : Prop :=
  ∀ n ∈ left s.transport length answers, n = 0 ↔ s.readDisabled = false

/-- So many bytes are asked to be taken now, or wait. -/
def WriteSuits (s : OpenConnection) (length : Nat) (answers : List WriteAnswer) : Prop :=
  if s.writeReady || s.transport == .stdio then TakenIfReading s length answers else s.readDisabled = true

/-- What the operation replaces the events by suits whoever reads: all there is to write is taken at once by what
is asked to while reading is enabled, and not all of it while reading is disabled; no write event comes while
reading is disabled, but one with nothing to do; and reading is not disabled so often that the count starts
again. -/
def Suits (s : OpenConnection) : Op → Prop
  | .leaveWrite (some data) answers =>
      s.entered ≠ 0 → s.writeBuffer ++ data ≠ [] → WriteSuits s (s.writeBuffer ++ data).length answers
  | .readDisable true => s.readDisableCount + 1 < 2 ^ 32
  | .writeEvent answers =>
      (s.writeBuffer.isEmpty && !s.writeHalfClosed && s.initialWriteDone) = false →
        left s.transport s.writeBuffer.length answers ≠ none → s.readDisabled = false
  | .raiseConnected answers => s.writeBuffer ≠ [] → TakenIfReading s s.writeBuffer.length answers
  | .flushWriteBuffer answers => TakenIfReading s s.writeBuffer.length answers
  | .enterWrite _ | .leaveWrite none _ | .readDisable false | .close => True

variable {s t : OpenConnection}

theorem readDisabled_congr (h : t.readDisableCount = s.readDisableCount) : t.readDisabled = s.readDisabled := by
  unfold readDisabled
  rw [h]

/-- What is waited for depends on this much of the state. -/
theorem listens_congr (hclosing : t.closing = s.closing) (hevents : t.fileEventState = s.fileEventState)
    (hcount : t.readDisableCount = s.readDisableCount) (hbuffer : t.writeBuffer = s.writeBuffer) :
    Listens t ↔ Listens s := by
  unfold Listens
  rw [hclosing, hevents, hbuffer, readDisabled_congr hcount]

/-- Only whether reading is disabled matters, not how often it was. -/
theorem listens_of_count {count : Nat} (hsame : 0 < count ↔ 0 < s.readDisableCount) (h : Listens s) :
    Listens { s with readDisableCount := count } := by
  have hdisabled : ({ s with readDisableCount := count } : OpenConnection).readDisabled = s.readDisabled := by
    unfold readDisabled
    exact decide_eq_decide.mpr hsame
  unfold Listens
  rw [hdisabled]
  exact h

/-- **After the socket was asked**, the connection waits for what it should just if all was taken while reading is
enabled, and not all while it is disabled. -/
theorem listens_iff_of_settles {left : Option Nat} (h : Settles s t left) :
    Listens t ↔ ∀ n ∈ left, n = 0 ↔ s.readDisabled = false := by
  have hdisabled := readDisabled_congr h.same.readDisableCount
  unfold Listens
  rw [h.closing, hdisabled]
  cases hleft : left with
  | none =>
      refine ⟨fun _ n hn => absurd hn (Option.not_mem_none n), fun _ hclosing => ?_⟩
      rw [Option.isNone_none] at hclosing
      exact absurd hclosing (by decide)
  | some n =>
      have hmem : n ∈ left := hleft
      have hbuffer : t.writeBuffer = [] ↔ n = 0 := by
        rw [← h.length n hmem, List.length_eq_zero_iff]
      have hall : (∀ m ∈ some n, (m = 0 ↔ s.readDisabled = false)) ↔ (n = 0 ↔ s.readDisabled = false) := by
        simp
      rw [hall, ne_eq, hbuffer]
      by_cases hzero : n = 0
      · have hreads : t.fileEventState = ⟨true, false⟩ := h.reads (hzero ▸ hmem)
        rw [hreads]
        simp [hzero]
      · rw [h.waits n hmem hzero]
        simp [hzero]

/-! ### One operation -/

theorem listens_writeData_iff (hopen : s.closing = false) (h : Listens s) (data : Bytes)
    (answers : List WriteAnswer) :
    Listens (s.writeData data answers) ↔
      (s.writeBuffer ++ data ≠ [] → WriteSuits s (s.writeBuffer ++ data).length answers) := by
  obtain ⟨hbuffer, hclosing, hevents, -, hsame⟩ := put_eq s data
  have hdisabled := readDisabled_congr hsame.readDisableCount
  unfold writeData
  dsimp only
  by_cases hempty : (s.put data).writeBuffer.isEmpty = true
  · have hnil : s.writeBuffer ++ data = [] := hbuffer.symm.trans (List.isEmpty_iff.mp hempty)
    rw [if_pos hempty]
    refine iff_of_true ((listens_congr hclosing hevents hsame.readDisableCount ?_).mpr h)
      fun hsome => absurd hnil hsome
    rw [hbuffer, hnil, (List.append_eq_nil_iff.mp hnil).1]
  · have hsome : s.writeBuffer ++ data ≠ [] := fun hnil =>
      hempty (List.isEmpty_iff.mpr (hbuffer.trans hnil))
    rw [if_neg hempty, asks_put, forall_prop_of_true hsome]
    unfold WriteSuits
    by_cases hnow : (s.writeReady || s.transport == .stdio) = true
    · have hsettles := @settles_doWrite ((s.put data).enableFileEvents ⟨false, true⟩)
        (hclosing.trans hopen) answers
      rw [if_pos hnow, if_pos hnow, listens_iff_of_settles hsettles]
      show (∀ n ∈ left (s.put data).transport (s.put data).writeBuffer.length answers,
        n = 0 ↔ (s.put data).readDisabled = false) ↔ _
      rw [hsame.transport, hbuffer, hdisabled]
      exact Iff.rfl
    · have hwaits : Listens ((s.put data).enableFileEvents ⟨false, true⟩) ↔
          ((s.put data).closing = false →
            (false = true ↔ (s.put data).readDisabled = false) ∧
              ((s.put data).writeBuffer ≠ [] → true = true)) := Iff.rfl
      rw [if_neg hnow, if_neg hnow, hwaits, hclosing, hopen, hdisabled]
      simp

theorem listens_leaveWrite_iff (hopen : s.closing = false) (h : Listens s) (data : Option Bytes)
    (answers : List WriteAnswer) :
    Listens (s.leaveWrite data answers) ↔ Suits s (.leaveWrite data answers) := by
  unfold leaveWrite
  by_cases hentered : s.entered = 0
  · rw [if_pos hentered]
    refine iff_of_true h ?_
    cases data with
    | none => trivial
    | some data => exact fun hnot => absurd hentered hnot
  · have hleft : Listens { s with entered := s.entered - 1 } := (listens_congr rfl rfl rfl rfl).mpr h
    rw [if_neg hentered]
    cases data with
    | none => exact iff_of_true hleft trivial
    | some data =>
        show Listens ({ s with entered := s.entered - 1 }.writeData data answers) ↔
          (s.entered ≠ 0 → s.writeBuffer ++ data ≠ [] →
            WriteSuits s (s.writeBuffer ++ data).length answers)
        rw [@listens_writeData_iff { s with entered := s.entered - 1 } hopen hleft data answers,
          forall_prop_of_true hentered]
        exact Iff.rfl

theorem listens_readDisable_iff (hopen : s.closing = false) (hcount : s.readDisableCount < 2 ^ 32)
    (h : Listens s) (disable : Bool) : Listens (s.readDisable disable) ↔ Suits s (.readDisable disable) := by
  unfold readDisable
  cases disable with
  | true =>
      rw [if_pos rfl]
      dsimp only
      by_cases hmore : 1 < (s.readDisableCount + 1) % 2 ^ 32
      · -- disabled already, and nothing is replaced
        rw [if_pos hmore]
        refine iff_of_true (listens_of_count ?_ h) ?_
        · omega
        · show s.readDisableCount + 1 < 2 ^ 32
          omega
      · rw [if_neg hmore]
        show (s.closing = false →
          (false = true ↔ decide (0 < (s.readDisableCount + 1) % 2 ^ 32) = false) ∧
            (s.writeBuffer ≠ [] → true = true)) ↔ s.readDisableCount + 1 < 2 ^ 32
        rw [forall_prop_of_true hopen, decide_eq_false_iff_not]
        simp only [Bool.false_eq_true, false_iff, not_not, implies_true, and_true]
        omega
  | false =>
      rw [if_neg Bool.false_ne_true]
      refine iff_of_true ?_ trivial
      by_cases hzero : s.readDisableCount = 0
      · rw [if_pos hzero]
        exact h
      · rw [if_neg hzero]
        dsimp only
        by_cases hlast : s.readDisableCount - 1 = 0
        · rw [if_pos hlast]
          intro _
          refine ⟨iff_of_true rfl ?_, fun hsome => ?_⟩
          · show decide (0 < s.readDisableCount - 1) = false
            rw [hlast]
            rfl
          · show (!s.writeBuffer.isEmpty) = true
            rw [Bool.not_eq_true', List.isEmpty_eq_false_iff]
            exact hsome
        · rw [if_neg hlast]
          apply listens_of_count _ h
          omega

theorem listens_writeEvent_iff (hopen : s.closing = false) (h : Listens s) (answers : List WriteAnswer) :
    Listens (s.onWriteReady answers) ↔ Suits s (.writeEvent answers) := by
  unfold onWriteReady Suits
  dsimp only
  by_cases hidle : (s.writeBuffer.isEmpty && !s.writeHalfClosed && s.initialWriteDone) = true
  · rw [if_pos hidle]
    refine iff_of_true ((listens_congr rfl rfl rfl rfl).mpr h) fun hbusy => ?_
    rw [hidle] at hbusy
    exact absurd hbusy (by decide)
  · have hbusy : (s.writeBuffer.isEmpty && !s.writeHalfClosed && s.initialWriteDone) = false :=
      Bool.not_eq_true _ ▸ hidle
    have hsettles := @settles_doWrite { s with writeReady := true } hopen answers
    have hdisabled : ({ s with writeReady := true }.doWrite answers).readDisabled = s.readDisabled :=
      readDisabled_congr hsettles.same.readDisableCount
    have hclosing : ({ s with writeReady := true }.doWrite answers).closing =
        (left s.transport s.writeBuffer.length answers).isNone := hsettles.closing
    rw [if_neg hidle, forall_prop_of_true hbusy]
    cases hleft : left s.transport s.writeBuffer.length answers with
    | none =>
        rw [hleft, Option.isNone_none] at hclosing
        rw [if_pos hclosing]
        refine iff_of_true (fun hnot => ?_) fun hnone => absurd rfl hnone
        exact Bool.noConfusion (hclosing.symm.trans hnot)
    | some n =>
        rw [hleft, Option.isNone_some] at hclosing
        have hstays : ¬ ({ s with writeReady := true }.doWrite answers).closing = true := by
          rw [hclosing]
          exact Bool.false_ne_true
        rw [if_neg hstays]
        show (({ s with writeReady := true }.doWrite answers).closing = false →
          (true = true ↔ ({ s with writeReady := true }.doWrite answers).readDisabled = false) ∧
            (({ s with writeReady := true }.doWrite answers).writeBuffer ≠ [] →
              (!({ s with writeReady := true }.doWrite answers).writeBuffer.isEmpty) = true)) ↔ _
        rw [hclosing, hdisabled]
        simp

theorem listens_raiseConnected_iff (hopen : s.closing = false) (h : Listens s) (answers : List WriteAnswer) :
    Listens (s.raiseConnected answers) ↔ Suits s (.raiseConnected answers) := by
  unfold raiseConnected Suits
  dsimp only
  by_cases hempty : s.writeBuffer.isEmpty = true
  · rw [if_pos hempty]
    refine iff_of_true ((listens_congr rfl rfl rfl rfl).mpr h) fun hsome => absurd ?_ hsome
    exact List.isEmpty_iff.mp hempty
  · have hsome : s.writeBuffer ≠ [] := fun hnil => hempty (List.isEmpty_iff.mpr hnil)
    rw [if_neg hempty, listens_iff_of_settles (@settles_doWrite { s with writeReady := true } hopen answers)]
    exact ⟨fun htaken _ => htaken, fun htaken => htaken hsome⟩

/-! ### Whole runs -/

/-- The operation suits, if it does anything. -/
def Suited (s : OpenConnection) (op : Op) : Prop := s.closing = false → Suits s op

/-- **One operation** leaves the connection waiting for what it should just if it suits. -/
theorem listens_step_iff (hcount : s.readDisableCount < 2 ^ 32) (h : Listens s) (op : Op) :
    Listens (step s op) ↔ Suited s op := by
  unfold step Suited
  cases hclosing : s.closing with
  | true => exact iff_of_true h fun hopen => Bool.noConfusion hopen
  | false =>
      rw [if_neg Bool.false_ne_true, forall_prop_of_true rfl]
      cases op with
      | enterWrite endStream =>
          refine iff_of_true ?_ trivial
          show Listens (s.enterWrite endStream)
          unfold enterWrite
          split_ifs
          · exact h
          · exact (listens_congr rfl rfl rfl rfl).mpr h
      | leaveWrite data answers => exact listens_leaveWrite_iff hclosing h data answers
      | readDisable disable => exact listens_readDisable_iff hclosing hcount h disable
      | writeEvent answers => exact listens_writeEvent_iff hclosing h answers
      | raiseConnected answers => exact listens_raiseConnected_iff hclosing h answers
      | flushWriteBuffer answers => exact listens_iff_of_settles (settles_doWrite hclosing answers)
      | close => exact iff_of_true (fun hopen => Bool.noConfusion hopen) trivial

theorem readDisableCount_step (hcount : s.readDisableCount < 2 ^ 32) (op : Op) :
    (step s op).readDisableCount < 2 ^ 32 := by
  by_cases hop : ∃ disable, op = .readDisable disable
  · obtain ⟨disable, rfl⟩ := hop
    unfold step
    split_ifs
    · exact hcount
    · show (s.readDisable disable).readDisableCount < 2 ^ 32
      unfold readDisable enableFileEvents
      dsimp only
      split_ifs
      · exact Nat.mod_lt _ (by decide)
      · exact Nat.mod_lt _ (by decide)
      · exact hcount
      · exact lt_of_le_of_lt (Nat.sub_le _ 1) hcount
      · exact lt_of_le_of_lt (Nat.sub_le _ 1) hcount
  · rw [(@same_step s op fun disable hsame => hop ⟨disable, hsame⟩).readDisableCount]
    exact hcount

/-- **What a connection waits for.** Along a run, whatever the transport, the connection waits to read just if
reading is enabled, and to write whenever there is something to write, in every state in which no close is
under way, exactly if every operation suits. -/
theorem listens_everywhere_iff (transport : TransportKind) (limit : UInt32) (callbacks : Nat) (ready : Bool)
    (ops : List Op) :
    (∀ before after, ops = before ++ after →
        Listens (Runs.run step (new transport limit callbacks ready) before)) ↔
      Runs.Guarded step Suited (new transport limit callbacks ready) ops := by
  let inv (s : OpenConnection) : Prop := s.readDisableCount < 2 ^ 32 ∧ Listens s
  refine @Runs.everywhere_iff_of_inv _ _ step (fun _ _ => True) Suited inv Listens ?_ (fun _ h => h.2) ?_ _ ?_
    ops (Runs.guarded_of_forall step (fun _ _ => trivial) _)
  · exact fun s op _ hok h => ⟨readDisableCount_step h.1 op, (listens_step_iff h.1 h.2 op).mpr hok⟩
  · exact fun s op _ h hnot hlistens => hnot ((listens_step_iff h.1 h.2 op).mp hlistens)
  · exact ⟨Nat.two_pow_pos 32, fun _ => ⟨iff_of_true rfl rfl, fun hsome => absurd rfl hsome⟩⟩

/-- A first write, before the socket was seen to be ready, and the connection no longer waits to read. -/
theorem not_listens_first_write :
    ¬ Listens (Runs.run step (new .raw 1024 0 false) [.enterWrite false, .leaveWrite (some [65]) []]) := by
  intro h
  exact absurd ((h rfl).1.mpr rfl) (by decide)

end OpenConnection

end GopherMcp
