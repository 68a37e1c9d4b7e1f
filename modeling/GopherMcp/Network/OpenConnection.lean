import GopherMcp.Core.Bytes
import GopherMcp.Lib.Runs

/-!
# An open connection

What a connection that is open and connected does with the bytes it is to write, and with the events it waits
for. The socket, or the transport in front of it, is asked to take bytes again and again, and its answers are
part of each operation. The transport is asked once before the loop that looks after the watermarks; a raw one
is not. A write runs through the write filters, which may use the connection before they return, so it is
entered and left. Once a close is under way nothing is said of the connection any more.
-/

namespace GopherMcp

/-- The transport of a connection: the one it makes itself, one over pipes that never block, or another. -/
inductive TransportKind
  | raw | stdio | other
  deriving DecidableEq

/-- The events a connection waits for. -/
structure FileInterest where
  read : Bool
  write : Bool
  deriving DecidableEq

/-- What a watermark callback is told. -/
inductive WatermarkNote
  | aboveHigh | belowLow
  deriving DecidableEq

/-- What comes of asking for bytes to be taken: some are, or none for now, or the connection is to be closed. What
is taken is what is reported. -/
inductive WriteAnswer
  | takes (bytes : Nat)
  | fails
  deriving DecidableEq

/-- `entered` counts the writes whose filters have not returned, and `heard` has what each of the watermark
callbacks was told. -/
structure OpenConnection where
  transport : TransportKind
  highWatermark : UInt32
  lowWatermark : UInt32
  closing : Bool
  writeHalfClosed : Bool
  entered : Nat
  writeBuffer : Bytes
  aboveHighWatermark : Bool
  heard : List (List WatermarkNote)
  writeReady : Bool
  initialWriteDone : Bool
  readDisableCount : Nat
  fileEventState : FileInterest

namespace OpenConnection

/-- A connected connection with its buffer limit set, and a number of watermark callbacks. -/
def new (transport : TransportKind) (limit : UInt32) (callbacks : Nat) (writeReady : Bool) : OpenConnection where
  transport := transport
  highWatermark := limit
  lowWatermark := limit / 2
  closing := false
  writeHalfClosed := false
  entered := 0
  writeBuffer := []
  aboveHighWatermark := false
  heard := List.replicate callbacks []
  writeReady := writeReady
  initialWriteDone := false
  readDisableCount := 0
  fileEventState := ⟨true, false⟩

/-- The events are replaced, not added. -/
def enableFileEvents (s : OpenConnection) (events : FileInterest) : OpenConnection :=
  { s with fileEventState := events }

def readDisabled (s : OpenConnection) : Bool := 0 < s.readDisableCount

/-! ### Writing -/

/-- Every callback is told. -/
def tell (s : OpenConnection) (above : Bool) (note : WatermarkNote) : OpenConnection :=
  { s with aboveHighWatermark := above, heard := s.heard.map (· ++ [note]) }

def checkHigh (s : OpenConnection) : OpenConnection :=
  if s.highWatermark.toNat < s.writeBuffer.length && !s.aboveHighWatermark then s.tell true .aboveHigh else s

def checkLow (s : OpenConnection) : OpenConnection :=
  if s.aboveHighWatermark && s.writeBuffer.length < s.lowWatermark.toNat then s.tell false .belowLow else s

def drain (s : OpenConnection) (bytes : Nat) : OpenConnection :=
  { s with writeBuffer := s.writeBuffer.drop bytes }

/-- The loop, which is entered with bytes to write. Without a further answer it would block. -/
def writeLoop (s : OpenConnection) : List WriteAnswer → OpenConnection
  | [] => s.enableFileEvents ⟨false, true⟩
  | .fails :: _ => { s with closing := true }
  | .takes bytes :: rest =>
      if bytes = 0 then s.enableFileEvents ⟨false, true⟩
      else
        let s := (s.drain bytes).checkLow
        if s.writeBuffer.isEmpty then s else s.writeLoop rest

/-- What `doWrite` does once the transport was asked: nothing is left, or the loop runs. -/
def writeRest (s : OpenConnection) (answers : List WriteAnswer) : OpenConnection :=
  if s.writeBuffer.isEmpty then s.enableFileEvents ⟨true, false⟩
  else
    let s := s.writeLoop answers
    if s.writeBuffer.isEmpty && !s.closing then s.enableFileEvents ⟨true, false⟩ else s

/-- A transport that is not raw is asked first. -/
def askFirst (s : OpenConnection) : List WriteAnswer → OpenConnection
  | [] => s.writeRest []
  | .fails :: _ => { s with closing := true }
  | .takes bytes :: rest => (s.drain bytes).writeRest rest

def doWrite (s : OpenConnection) (answers : List WriteAnswer) : OpenConnection :=
  match s.transport with
  | .raw => s.writeRest answers
  | .stdio | .other => s.askFirst answers

/-- `write` up to its filters. -/
def enterWrite (s : OpenConnection) (endStream : Bool) : OpenConnection :=
  if s.writeHalfClosed then s else { s with writeHalfClosed := endStream, entered := s.entered + 1 }

/-- The bytes the filters left are put in the buffer. -/
def put (s : OpenConnection) (data : Bytes) : OpenConnection :=
  { s with writeBuffer := s.writeBuffer ++ data }.checkHigh

/-- The bytes wait for a write event, or are asked to be taken now if there was one. -/
def writeData (s : OpenConnection) (data : Bytes) (answers : List WriteAnswer) : OpenConnection :=
  let s := s.put data
  if s.writeBuffer.isEmpty then s
  else
    let s := s.enableFileEvents ⟨false, true⟩
    if s.writeReady || s.transport == .stdio then s.doWrite answers else s

/-- `write` after its filters, which may have stopped it. -/
def leaveWrite (s : OpenConnection) (data : Option Bytes) (answers : List WriteAnswer) : OpenConnection :=
  if s.entered = 0 then s
  else
    let s := { s with entered := s.entered - 1 }
    match data with
    | none => s
    | some data => s.writeData data answers

/-! ### Events -/

def onWriteReady (s : OpenConnection) (answers : List WriteAnswer) : OpenConnection :=
  let s := { s with writeReady := true }
  if s.writeBuffer.isEmpty && !s.writeHalfClosed && s.initialWriteDone then s
  else
    let s := { s.doWrite answers with initialWriteDone := true }
    if s.closing then s else s.enableFileEvents ⟨true, !s.writeBuffer.isEmpty⟩

/-- `raiseEvent`, by which a transport says that it is connected. -/
def raiseConnected (s : OpenConnection) (answers : List WriteAnswer) : OpenConnection :=
  let s := { s with writeReady := true }
  if s.writeBuffer.isEmpty then s else s.doWrite answers

/-- The count is a `uint32_t`. -/
def readDisable (s : OpenConnection) (disable : Bool) : OpenConnection :=
  if disable then
    let s := { s with readDisableCount := (s.readDisableCount + 1) % 2 ^ 32 }
    if 1 < s.readDisableCount then s else s.enableFileEvents ⟨false, true⟩
  else if s.readDisableCount = 0 then s
  else
    let s := { s with readDisableCount := s.readDisableCount - 1 }
    if s.readDisableCount = 0 then s.enableFileEvents ⟨true, !s.writeBuffer.isEmpty⟩ else s

/-- What is done with the connection, by tasks, filters, callbacks and the transport, and the write events; a read
event does nothing but what the filters do in it. -/
inductive Op
  | enterWrite (endStream : Bool)
  | leaveWrite (data : Option Bytes) (answers : List WriteAnswer)
  | readDisable (disable : Bool)
  | writeEvent (answers : List WriteAnswer)
  | raiseConnected (answers : List WriteAnswer)
  | flushWriteBuffer (answers : List WriteAnswer)
  | close

def step (s : OpenConnection) (op : Op) : OpenConnection :=
  if s.closing then s
  else
    match op with
    | .enterWrite endStream => s.enterWrite endStream
    | .leaveWrite data answers => s.leaveWrite data answers
    | .readDisable disable => s.readDisable disable
    | .writeEvent answers => s.onWriteReady answers
    | .raiseConnected answers => s.raiseConnected answers
    | .flushWriteBuffer answers => s.doWrite answers
    | .close => { s with closing := true }

/-! ### What is left of the bytes -/

/-- What the loop leaves of a number of bytes, or nothing if the connection is closed in it. -/
def loopLeft (length : Nat) : List WriteAnswer → Option Nat
  | [] => some length
  | .fails :: _ => none
  | .takes bytes :: rest =>
      if bytes = 0 then some length
      else if length ≤ bytes then some 0 else loopLeft (length - bytes) rest

/-- What is left of a number of bytes after the transport was asked. -/
def restLeft (length : Nat) (answers : List WriteAnswer) : Option Nat :=
  if length = 0 then some 0 else loopLeft length answers

def firstLeft (length : Nat) : List WriteAnswer → Option Nat
  | [] => restLeft length []
  | .fails :: _ => none
  | .takes bytes :: rest => restLeft (length - bytes) rest

/-- What the answers leave of a number of bytes. -/
def left (transport : TransportKind) (length : Nat) (answers : List WriteAnswer) : Option Nat :=
  match transport with
  | .raw => restLeft length answers
  | .stdio | .other => firstLeft length answers

/-! ### What asking for bytes to be taken does -/

variable {s t : OpenConnection} {answers : List WriteAnswer}

@[simp] theorem length_drain (bytes : Nat) : (s.drain bytes).writeBuffer.length = s.writeBuffer.length - bytes :=
  List.length_drop

@[simp] theorem writeBuffer_checkLow : s.checkLow.writeBuffer = s.writeBuffer := by
  unfold checkLow
  split_ifs <;> rfl

/-- What no write changes. -/
structure Same (s t : OpenConnection) : Prop where
  transport : t.transport = s.transport
  highWatermark : t.highWatermark = s.highWatermark
  lowWatermark : t.lowWatermark = s.lowWatermark
  readDisableCount : t.readDisableCount = s.readDisableCount

theorem Same.refl (s : OpenConnection) : Same s s := ⟨rfl, rfl, rfl, rfl⟩

theorem Same.trans {u : OpenConnection} (h : Same s t) (h' : Same t u) : Same s u :=
  ⟨h'.transport.trans h.transport, h'.highWatermark.trans h.highWatermark,
    h'.lowWatermark.trans h.lowWatermark, h'.readDisableCount.trans h.readDisableCount⟩

theorem same_enableFileEvents (s : OpenConnection) (events : FileInterest) : Same s (s.enableFileEvents events) :=
  ⟨rfl, rfl, rfl, rfl⟩

theorem same_drain (s : OpenConnection) (bytes : Nat) : Same s (s.drain bytes) := ⟨rfl, rfl, rfl, rfl⟩

theorem same_checkLow (s : OpenConnection) : Same s s.checkLow := by
  unfold checkLow
  split_ifs
  · exact ⟨rfl, rfl, rfl, rfl⟩
  · exact Same.refl s

/-- The connection is closed, or open with so many bytes left; if it waits for the socket to take them, it waits
for nothing else. -/
structure Leaves (s t : OpenConnection) (left : Option Nat) : Prop where
  same : Same s t
  closing : t.closing = left.isNone
  length : ∀ n ∈ left, t.writeBuffer.length = n
  waits : ∀ n ∈ left, n ≠ 0 → t.fileEventState = ⟨false, true⟩

theorem Leaves.of_same {u : OpenConnection} {left : Option Nat} (hsame : Same s t) (h : Leaves t u left) :
    Leaves s u left := ⟨hsame.trans h.same, h.closing, h.length, h.waits⟩

/-- The loop leaves what its answers leave; the induction is on the answers. -/
theorem leaves_writeLoop (hopen : s.closing = false) :
    Leaves s (s.writeLoop answers) (loopLeft s.writeBuffer.length answers) := by
  induction answers generalizing s with
  | nil => exact ⟨same_enableFileEvents s _, hopen, fun _ h => Option.some.inj h, fun _ _ _ => rfl⟩
  | cons answer rest ih =>
      cases answer with
      | fails =>
          exact ⟨⟨rfl, rfl, rfl, rfl⟩, rfl, fun n h => absurd h (Option.not_mem_none n),
            fun n h => absurd h (Option.not_mem_none n)⟩
      | takes bytes =>
          unfold writeLoop loopLeft
          by_cases hzero : bytes = 0
          · rw [if_pos hzero, if_pos hzero]
            exact ⟨same_enableFileEvents s _, hopen, fun _ h => Option.some.inj h, fun _ _ _ => rfl⟩
          · rw [if_neg hzero, if_neg hzero]
            dsimp only
            have hsame : Same s (s.drain bytes).checkLow :=
              (same_drain s bytes).trans (same_checkLow (s.drain bytes))
            have hclosing : (s.drain bytes).checkLow.closing = false := by
              unfold checkLow
              split_ifs <;> exact hopen
            have hlength : (s.drain bytes).checkLow.writeBuffer.length = s.writeBuffer.length - bytes := by
              rw [writeBuffer_checkLow, length_drain]
            by_cases hall : s.writeBuffer.length ≤ bytes
            · have hempty : (s.drain bytes).checkLow.writeBuffer.isEmpty = true := by
                rw [List.isEmpty_iff_length_eq_zero, hlength]
                omega
              rw [if_pos hall, if_pos hempty]
              refine ⟨hsame, hclosing, fun n hn => ?_, fun n hn hne => absurd (Option.some.inj hn).symm hne⟩
              rw [hlength, ← Option.some.inj hn]
              omega
            · have hmore : ¬ (s.drain bytes).checkLow.writeBuffer.isEmpty = true := by
                rw [List.isEmpty_iff_length_eq_zero, hlength]
                omega
              rw [if_neg hall, if_neg hmore, ← hlength]
              exact (ih hclosing).of_same hsame

/-- With nothing left, the connection waits to read, and for nothing else. -/
structure Settles (s t : OpenConnection) (left : Option Nat) : Prop extends Leaves s t left where
  reads : 0 ∈ left → t.fileEventState = ⟨true, false⟩

theorem settles_writeRest (hopen : s.closing = false) :
    Settles s (s.writeRest answers) (restLeft s.writeBuffer.length answers) := by
  unfold writeRest restLeft
  by_cases hempty : s.writeBuffer.isEmpty = true
  · have hzero : s.writeBuffer.length = 0 := List.isEmpty_iff_length_eq_zero.mp hempty
    rw [if_pos hempty, if_pos hzero]
    refine ⟨⟨same_enableFileEvents s _, hopen, fun n hn => ?_, fun n hn hne => ?_⟩, fun _ => rfl⟩
    · exact hzero.trans (Option.some.inj hn)
    · exact absurd (Option.some.inj hn).symm hne
  · have hsome : s.writeBuffer.length ≠ 0 := fun h => hempty (List.isEmpty_iff_length_eq_zero.mpr h)
    rw [if_neg hempty, if_neg hsome]
    have hloop := @leaves_writeLoop s answers hopen
    dsimp only
    by_cases hdone : ((s.writeLoop answers).writeBuffer.isEmpty && !(s.writeLoop answers).closing) = true
    · rw [if_pos hdone]
      rw [Bool.and_eq_true] at hdone
      have hzero : (s.writeLoop answers).writeBuffer.length = 0 :=
        List.isEmpty_iff_length_eq_zero.mp hdone.1
      refine ⟨⟨hloop.same.trans (same_enableFileEvents _ _), hloop.closing, hloop.length,
        fun n hn hne => ?_⟩, fun _ => rfl⟩
      exact absurd ((hloop.length n hn).symm.trans hzero) hne
    · rw [if_neg hdone]
      refine ⟨hloop, fun hn => absurd ?_ hdone⟩
      have hzero := hloop.length 0 hn
      rw [hloop.closing, Option.mem_def.mp hn, List.isEmpty_iff_length_eq_zero.mpr hzero]
      rfl

theorem Settles.of_same {u : OpenConnection} {left : Option Nat} (hsame : Same s t) (h : Settles t u left) :
    Settles s u left := ⟨h.toLeaves.of_same hsame, h.reads⟩

theorem settles_askFirst (hopen : s.closing = false) :
    Settles s (s.askFirst answers) (firstLeft s.writeBuffer.length answers) := by
  cases answers with
  | nil => exact settles_writeRest hopen
  | cons answer rest =>
      cases answer with
      | fails =>
          exact ⟨⟨⟨rfl, rfl, rfl, rfl⟩, rfl, fun n h => absurd h (Option.not_mem_none n),
            fun n h => absurd h (Option.not_mem_none n)⟩, fun h => absurd h (Option.not_mem_none 0)⟩
      | takes bytes =>
          have hrest := @settles_writeRest (s.drain bytes) rest hopen
          rw [length_drain] at hrest
          exact hrest.of_same (same_drain s bytes)

/-- **The transport and the socket** leave what they answer. -/
theorem settles_doWrite (hopen : s.closing = false) (answers : List WriteAnswer) :
    Settles s (s.doWrite answers) (left s.transport s.writeBuffer.length answers) := by
  unfold doWrite left
  cases s.transport with
  | raw => exact settles_writeRest hopen
  | stdio => exact settles_askFirst hopen
  | other => exact settles_askFirst hopen

/-- What is put in the buffer is there, whoever is told of it. -/
theorem put_eq (s : OpenConnection) (data : Bytes) :
    (s.put data).writeBuffer = s.writeBuffer ++ data ∧ (s.put data).closing = s.closing ∧
      (s.put data).fileEventState = s.fileEventState ∧ (s.put data).writeReady = s.writeReady ∧
      Same s (s.put data) := by
  unfold put checkHigh
  split_ifs
  · exact ⟨rfl, rfl, rfl, rfl, rfl, rfl, rfl, rfl⟩
  · exact ⟨rfl, rfl, rfl, rfl, rfl, rfl, rfl, rfl⟩

/-- Whether bytes are asked to be taken at once does not depend on them. -/
theorem asks_put (s : OpenConnection) (data : Bytes) (events : FileInterest) :
    (((s.put data).enableFileEvents events).writeReady ||
        ((s.put data).enableFileEvents events).transport == .stdio) = (s.writeReady || s.transport == .stdio) := by
  obtain ⟨-, -, -, hready, hsame⟩ := put_eq s data
  show ((s.put data).writeReady || (s.put data).transport == .stdio) = _
  rw [hready, hsame.transport]

theorem same_writeData (hopen : s.closing = false) (data : Bytes) (answers : List WriteAnswer) :
    Same s (s.writeData data answers) := by
  obtain ⟨_, hclosing, _, _, hsame⟩ := put_eq s data
  have hwaits : Same s ((s.put data).enableFileEvents ⟨false, true⟩) :=
    hsame.trans (same_enableFileEvents _ _)
  unfold writeData
  dsimp only
  split_ifs
  · exact hsame
  · exact hwaits.trans (@settles_doWrite ((s.put data).enableFileEvents ⟨false, true⟩)
      (hclosing.trans hopen) answers).same
  · exact hwaits

theorem same_leaveWrite (hopen : s.closing = false) (data : Option Bytes) (answers : List WriteAnswer) :
    Same s (s.leaveWrite data answers) := by
  have hleft : Same s { s with entered := s.entered - 1 } := ⟨rfl, rfl, rfl, rfl⟩
  unfold leaveWrite
  split_ifs
  · exact Same.refl s
  · cases data with
    | none => exact hleft
    | some data => exact hleft.trans (@same_writeData { s with entered := s.entered - 1 } hopen data answers)

theorem same_onWriteReady (hopen : s.closing = false) (answers : List WriteAnswer) :
    Same s (s.onWriteReady answers) := by
  have hready : Same s { s with writeReady := true } := ⟨rfl, rfl, rfl, rfl⟩
  have hasked := hready.trans (@settles_doWrite { s with writeReady := true } hopen answers).same
  have hdone : Same s { { s with writeReady := true }.doWrite answers with initialWriteDone := true } :=
    ⟨hasked.transport, hasked.highWatermark, hasked.lowWatermark, hasked.readDisableCount⟩
  unfold onWriteReady
  dsimp only
  split_ifs
  · exact hready
  · exact hdone
  · exact hdone.trans (same_enableFileEvents _ _)

/-- Nothing but disabling the reading changes the setup. -/
theorem same_step (op : Op) (hop : ∀ disable, op ≠ .readDisable disable) : Same s (step s op) := by
  unfold step
  cases hclosing : s.closing with
  | true => exact Same.refl s
  | false =>
      rw [if_neg Bool.false_ne_true]
      cases op with
      | enterWrite endStream =>
          show Same s (s.enterWrite endStream)
          unfold enterWrite
          split_ifs
          · exact Same.refl s
          · exact ⟨rfl, rfl, rfl, rfl⟩
      | leaveWrite data answers => exact same_leaveWrite hclosing data answers
      | readDisable disable => exact absurd rfl (hop disable)
      | writeEvent answers => exact same_onWriteReady hclosing answers
      | raiseConnected answers =>
          have hready : Same s { s with writeReady := true } := ⟨rfl, rfl, rfl, rfl⟩
          show Same s (s.raiseConnected answers)
          unfold raiseConnected
          dsimp only
          split_ifs
          · exact hready
          · exact hready.trans (@settles_doWrite { s with writeReady := true } hclosing answers).same
      | flushWriteBuffer answers => exact (settles_doWrite hclosing answers).same
      | close => exact ⟨rfl, rfl, rfl, rfl⟩

end OpenConnection

end GopherMcp
