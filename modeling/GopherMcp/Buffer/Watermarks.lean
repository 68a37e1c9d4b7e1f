import GopherMcp.Buffer.Sizes

/-!
# Watermarks

A watermark buffer compares its length before and after an operation with two marks. The comparison is
made by the operations the class overrides; what is put in by the others it does not see. It is also
made where the flag is up already, and twice where a buffer is added to another.
-/

namespace GopherMcp

/-- The callbacks, by name. -/
inductive WatermarkEvent
  | aboveOverflow | aboveHigh | belowLow
  deriving DecidableEq

/-- `called` keeps the callbacks that were made, the oldest first. -/
structure WatermarkBuffer where
  buffer : SliceDeque
  highWatermark : Nat
  lowWatermark : Nat
  overflowWatermark : Nat
  aboveHighWatermark : Bool
  aboveOverflowWatermark : Bool
  called : List WatermarkEvent

namespace WatermarkBuffer

/-- A buffer that nothing was put in yet. -/
def fresh (high low overflow : Nat) : WatermarkBuffer where
  buffer := SliceDeque.empty
  highWatermark := high
  lowWatermark := low
  overflowWatermark := overflow
  aboveHighWatermark := false
  aboveOverflowWatermark := false
  called := []

/-- A new buffer after `setWatermarks`, whose arguments and marks are `uint32_t`. -/
def new (highWatermark overflowMultiplier : Nat) : WatermarkBuffer :=
  fresh highWatermark (highWatermark / 2) (highWatermark * overflowMultiplier % 2 ^ 32)

def length (w : WatermarkBuffer) : Nat := w.buffer.length

def checkOverflow (w : WatermarkBuffer) (oldSize : Nat) : WatermarkBuffer :=
  if oldSize ≤ w.overflowWatermark ∧ w.overflowWatermark < w.length then
    { w with aboveOverflowWatermark := true, called := w.called ++ [.aboveOverflow] }
  else w

def checkHigh (w : WatermarkBuffer) (oldSize : Nat) : WatermarkBuffer :=
  if oldSize ≤ w.highWatermark ∧ w.highWatermark < w.length then
    { w with aboveHighWatermark := true, called := w.called ++ [.aboveHigh] }
  else w

def checkLow (w : WatermarkBuffer) (oldSize : Nat) : WatermarkBuffer :=
  if w.lowWatermark ≤ oldSize ∧ w.length < w.lowWatermark ∧ w.aboveHighWatermark then
    { w with aboveHighWatermark := false, called := w.called ++ [.belowLow] }
  else w

def checkWatermarks (w : WatermarkBuffer) (oldSize : Nat) : WatermarkBuffer :=
  ((w.checkOverflow oldSize).checkHigh oldSize).checkLow oldSize

/-! ### The operations -/

/-- What an operation of the base class leaves behind. -/
def put (w : WatermarkBuffer) (buffer : SliceDeque) : WatermarkBuffer := { w with buffer }

def add (grow : Nat → Nat) (w : WatermarkBuffer) (bytes : Bytes) : WatermarkBuffer :=
  (w.put (w.buffer.add grow bytes)).checkWatermarks w.length

/-- `OwnedBuffer::add` of another buffer: up to sixteen pieces, each by the virtual `add`. -/
def addPieces (grow : Nat → Nat) (w : WatermarkBuffer) (data : SliceDeque) : WatermarkBuffer :=
  if data.length = 0 then w else (data.getRawSlices 16).foldl (add grow) w

def addBuffer (grow : Nat → Nat) (w : WatermarkBuffer) (data : SliceDeque) : WatermarkBuffer :=
  (w.addPieces grow data).checkWatermarks w.length

def addBufferFragment (grow : Nat → Nat) (w : WatermarkBuffer) (fragment : Bytes) :
    WatermarkBuffer :=
  w.put (w.buffer.addBufferFragment grow fragment)

def prepend (grow : Nat → Nat) (w : WatermarkBuffer) (bytes : Bytes) : WatermarkBuffer :=
  w.put (w.buffer.prepend grow bytes)

def drain (w : WatermarkBuffer) (size : Nat) : WatermarkBuffer :=
  (w.put (w.buffer.drain size)).checkWatermarks w.length

/-- `move` to another buffer. -/
def moveOut (grow : Nat → Nat) (w : WatermarkBuffer) (destination : SliceDeque) (length : Nat) :
    WatermarkBuffer :=
  (w.put (w.buffer.move grow destination length).1).checkWatermarks w.length

def pushSlice (grow : Nat → Nat) (w : WatermarkBuffer) (slice : Slice) : WatermarkBuffer :=
  w.put (w.buffer.pushBack grow slice)

/-- `move` of another buffer to this one. -/
def moveIn (grow : Nat → Nat) (w : WatermarkBuffer) (source : SliceDeque) (length : Nat) :
    WatermarkBuffer :=
  (source.moveTo (pushSlice grow) (add grow) w length).2

/-- A commit that throws changes nothing. -/
def putCommitted (w : WatermarkBuffer) (committed : Option SliceDeque) : WatermarkBuffer :=
  match committed with
  | some buffer => w.put buffer
  | none => w

end WatermarkBuffer

inductive WatermarkOp
  | add (bytes : Bytes)
  | addBuffer (data : SliceDeque)
  | addBufferFragment (fragment : Bytes)
  | prepend (bytes : Bytes)
  | drain (size : Nat)
  | moveOut (destination : SliceDeque) (length : Nat)
  | moveIn (source : SliceDeque) (length : Nat)
  | reserveForRead
  | reserveSingleSlice (length : Nat)
  | commit (raw : RawSlice) (size : Nat)
  | commitReservation (raw : RawSlice) (size : Nat)

namespace WatermarkBuffer

def step (grow : Nat → Nat) (w : WatermarkBuffer) : WatermarkOp → WatermarkBuffer
  | .add bytes => w.add grow bytes
  | .addBuffer data => w.addBuffer grow data
  | .addBufferFragment fragment => w.addBufferFragment grow fragment
  | .prepend bytes => w.prepend grow bytes
  | .drain size => w.drain size
  | .moveOut destination length => w.moveOut grow destination length
  | .moveIn source length => w.moveIn grow source length
  | .reserveForRead => w.put (w.buffer.reserveForRead grow).1
  | .reserveSingleSlice length => w.put (w.buffer.reserveSingleSlice grow length).1
  | .commit raw size => w.putCommitted (w.buffer.commit raw size)
  | .commitReservation raw size => w.putCommitted (w.buffer.commitReservation raw size)

/-! ### What the marks promise -/

/-- The flag after a callback; none where the callback is out of turn. -/
def follow : Bool → WatermarkEvent → Option Bool
  | above, .aboveOverflow => some above
  | false, .aboveHigh => some true
  | true, .belowLow => some false
  | _, _ => none

/-- The flag is up above the high mark and down below the low one, so it is down in an empty buffer; and
the callbacks for the two marks alternate, the flag being up after the one and down after the other. -/
structure Steady (w : WatermarkBuffer) : Prop where
  high : w.highWatermark < w.length → w.aboveHighWatermark = true
  low : w.length < w.lowWatermark → w.aboveHighWatermark = false
  empty : w.length = 0 → w.aboveHighWatermark = false
  alternate : w.called.foldlM follow false = some w.aboveHighWatermark

/-- The sizes of the slices that go as a whole when some bytes of a buffer are moved. -/
def wholeSlices : List Slice → Nat → Nat
  | [], _ => 0
  | front :: rest, remaining =>
      if remaining = 0 then 0
      else if front.reservable ≤ remaining then
        front.reservable + wholeSlices rest (remaining - front.reservable)
      else 0

/-- How many bytes are added with a buffer. -/
def piecesSize (data : SliceDeque) : Nat :=
  if data.length = 0 then 0 else ((data.getRawSlices 16).map List.length).sum

/-- Bytes that no check is made for do not take the length above the high mark while the flag is down. -/
def SeenEnough (w : WatermarkBuffer) (unseen : Nat) : Prop :=
  w.aboveHighWatermark = false → w.length + unseen ≤ w.highWatermark

/-- Bytes a check is made for do not take the length above the high mark again while the flag is up. -/
def NotAgain (w : WatermarkBuffer) (unseen seen : Nat) : Prop :=
  w.aboveHighWatermark = true → w.length + unseen ≤ w.highWatermark →
    w.length + unseen + seen ≤ w.highWatermark

/-- The operation does not take the length above the high mark without a check, nor to there while the
flag is up, nor with two checks. -/
def Watched (w : WatermarkBuffer) : WatermarkOp → Prop
  | .add bytes => w.NotAgain 0 bytes.length
  | .addBuffer data =>
      w.length ≤ w.highWatermark → w.length + piecesSize data ≤ w.highWatermark
  | .addBufferFragment fragment => w.SeenEnough fragment.length
  | .prepend bytes => w.SeenEnough bytes.length
  | .moveIn source length =>
      let moved := min length source.length
      let whole := wholeSlices source.slices moved
      w.SeenEnough whole ∧ w.NotAgain whole (moved - whole)
  | .commit raw size => (w.buffer.commit raw size).isSome → w.SeenEnough size
  | .commitReservation raw size => (w.buffer.commitReservation raw size).isSome → w.SeenEnough size
  | .drain _ | .moveOut _ _ | .reserveForRead | .reserveSingleSlice _ => True

/-! ### One check -/

variable {w : WatermarkBuffer} {grow : Nat → Nat} {oldSize : Nat}

@[simp] theorem length_put (w : WatermarkBuffer) (buffer : SliceDeque) :
    (w.put buffer).length = buffer.length := rfl

/-- The settings are sensible, the length is counted right and the marks keep their promise. -/
structure Sound (w : WatermarkBuffer) : Prop where
  lowPositive : 0 < w.lowWatermark
  lowLeHigh : w.lowWatermark ≤ w.highWatermark
  counted : w.buffer.Counted
  steady : w.Steady

/-- Two buffers that differ in the overflow flag and its callbacks at most. -/
structure SameFlag (w w' : WatermarkBuffer) : Prop where
  buffer : w'.buffer = w.buffer
  high : w'.highWatermark = w.highWatermark
  low : w'.lowWatermark = w.lowWatermark
  flag : w'.aboveHighWatermark = w.aboveHighWatermark
  alternate : w.called.foldlM follow false = some w.aboveHighWatermark →
    w'.called.foldlM follow false = some w'.aboveHighWatermark

theorem sameFlag_checkOverflow (w : WatermarkBuffer) (oldSize : Nat) :
    SameFlag w (w.checkOverflow oldSize) := by
  rw [checkOverflow]
  split_ifs
  · refine ⟨rfl, rfl, rfl, rfl, fun h => ?_⟩
    rw [List.foldlM_append, h]
    cases w.aboveHighWatermark <;> rfl
  · exact ⟨rfl, rfl, rfl, rfl, id⟩

@[simp] theorem length_checkWatermarks (w : WatermarkBuffer) (oldSize : Nat) :
    (w.checkWatermarks oldSize).length = w.length := by
  rw [checkWatermarks, checkLow, checkHigh, checkOverflow]
  split_ifs <;> rfl

theorem marks_checkWatermarks (w : WatermarkBuffer) (oldSize : Nat) :
    (w.checkWatermarks oldSize).buffer = w.buffer ∧
      (w.checkWatermarks oldSize).highWatermark = w.highWatermark ∧
      (w.checkWatermarks oldSize).lowWatermark = w.lowWatermark := by
  rw [checkWatermarks, checkLow, checkHigh, checkOverflow]
  split_ifs <;> exact ⟨rfl, rfl, rfl⟩

/-- The comparison with the two marks: the flag was right for the old length, and the length is not found
above the high mark again. -/
theorem steady_checkMarks (hpositive : 0 < w.lowWatermark) (hmarks : w.lowWatermark ≤ w.highWatermark)
    (halternate : w.called.foldlM follow false = some w.aboveHighWatermark)
    (hover : w.highWatermark < oldSize → w.aboveHighWatermark = true)
    (hunder : oldSize < w.lowWatermark → w.aboveHighWatermark = false)
    (hagain : w.aboveHighWatermark = true → oldSize ≤ w.highWatermark →
      w.length ≤ w.highWatermark) :
    ((w.checkHigh oldSize).checkLow oldSize).Steady := by
  by_cases hcross : oldSize ≤ w.highWatermark ∧ w.highWatermark < w.length
  · -- the flag was down, and the length is above both marks
    have hdown : w.aboveHighWatermark = false := by
      by_contra hup
      have hle := hagain (Bool.eq_true_of_not_eq_false hup) hcross.1
      omega
    have hhigher : ¬ w.length < w.lowWatermark := by omega
    rw [checkHigh, if_pos hcross, checkLow, if_neg (fun h => hhigher h.2.1)]
    refine ⟨fun _ => rfl, fun h => absurd h hhigher, fun h => ?_, ?_⟩
    · have hzero : w.length = 0 := h
      omega
    · rw [List.foldlM_append, halternate, hdown]
      rfl
  · rw [checkHigh, if_neg hcross, checkLow]
    split_ifs with hfell
    · refine ⟨fun h => ?_, fun _ => rfl, fun _ => rfl, ?_⟩
      · have hlonger : w.highWatermark < w.length := h
        omega
      · rw [List.foldlM_append, halternate, hfell.2.2]
        rfl
    · have hlow : w.length < w.lowWatermark → w.aboveHighWatermark = false := by
        intro hshort
        by_contra hup
        have hstayed : oldSize < w.lowWatermark := by
          by_contra hold
          exact hfell ⟨by omega, hshort, Bool.eq_true_of_not_eq_false hup⟩
        exact hup (hunder hstayed)
      refine ⟨fun h => hover ?_, hlow, fun h => hlow (by omega), halternate⟩
      by_contra hold
      exact hcross ⟨by omega, h⟩

/-- One check keeps the promise, unless it finds the length above the high mark again. -/
theorem Sound.checked (h : w.Sound) {buffer : SliceDeque} (hcounted : buffer.Counted)
    (hagain : w.aboveHighWatermark = true → w.length ≤ w.highWatermark →
      buffer.length ≤ w.highWatermark) :
    ((w.put buffer).checkWatermarks w.length).Sound := by
  obtain ⟨hbuffer, hhigh, hlow⟩ := marks_checkWatermarks (w.put buffer) w.length
  refine ⟨by rw [hlow]; exact h.lowPositive, by rw [hlow, hhigh]; exact h.lowLeHigh,
    by rw [hbuffer]; exact hcounted, ?_⟩
  have hsame := sameFlag_checkOverflow (w.put buffer) w.length
  rw [checkWatermarks]
  apply steady_checkMarks
  · rw [hsame.low]
    exact h.lowPositive
  · rw [hsame.low, hsame.high]
    exact h.lowLeHigh
  · exact hsame.alternate h.steady.alternate
  · rw [hsame.high, hsame.flag]
    exact h.steady.high
  · rw [hsame.low, hsame.flag]
    exact h.steady.low
  · have hlength : ((w.put buffer).checkOverflow w.length).length = buffer.length :=
      congrArg SliceDeque.length hsame.buffer
    rw [hsame.high, hsame.flag, hlength]
    exact hagain

/-- An operation that makes no check keeps the promise, unless it takes the length above the high mark
unseen. -/
theorem Sound.unchecked (h : w.Sound) {buffer : SliceDeque} {unseen : Nat}
    (hcounted : buffer.Counted) (hlength : buffer.length = w.length + unseen)
    (hseen : w.SeenEnough unseen) : (w.put buffer).Sound where
  lowPositive := h.lowPositive
  lowLeHigh := h.lowLeHigh
  counted := hcounted
  steady := by
    refine ⟨fun hover => ?_, fun hunder => ?_, fun hempty => ?_, h.steady.alternate⟩
    · by_contra hdown
      have hle := hseen (Bool.eq_false_of_not_eq_true hdown)
      have hlonger : w.highWatermark < buffer.length := hover
      omega
    · have hshort : buffer.length < w.lowWatermark := hunder
      exact h.steady.low (by omega)
    · have hzero : buffer.length = 0 := hempty
      exact h.steady.empty (by omega)

/-- A second check that finds the buffer no shorter and on the same side of the high mark does nothing
to the flag. -/
theorem Sound.checkedTwice (h : w.Sound) (hlonger : oldSize ≤ w.length)
    (hside : ¬ (oldSize ≤ w.highWatermark ∧ w.highWatermark < w.length)) :
    (w.checkWatermarks oldSize).Sound := by
  have hsame := sameFlag_checkOverflow w oldSize
  obtain ⟨w', hw'⟩ : ∃ w', w' = w.checkOverflow oldSize := ⟨_, rfl⟩
  rw [checkWatermarks, ← hw']
  rw [← hw'] at hsame
  have hlength : w'.length = w.length := congrArg SliceDeque.length hsame.buffer
  rw [checkHigh, if_neg (by rw [hsame.high, hlength]; exact hside), checkLow,
    if_neg (by rw [hsame.low, hlength]; omega)]
  refine ⟨by rw [hsame.low]; exact h.lowPositive, by rw [hsame.low, hsame.high]; exact h.lowLeHigh,
    by rw [hsame.buffer]; exact h.counted, ?_, ?_, ?_, hsame.alternate h.steady.alternate⟩
  · rw [hsame.high, hsame.flag, hlength]
    exact h.steady.high
  · rw [hsame.low, hsame.flag, hlength]
    exact h.steady.low
  · rw [hsame.flag, hlength]
    exact h.steady.empty

/-! ### The operations keep the promise -/

theorem Sound.add (h : w.Sound) {bytes : Bytes} (hagain : w.NotAgain 0 bytes.length) :
    (w.add grow bytes).Sound := by
  refine h.checked (h.counted.add bytes) fun hup hle => ?_
  rw [SliceDeque.length_add]
  exact hagain hup hle

theorem length_add (w : WatermarkBuffer) (bytes : Bytes) :
    (w.add grow bytes).length = w.length + bytes.length := by
  rw [add, length_checkWatermarks, length_put, SliceDeque.length_add, length]

theorem highWatermark_add (w : WatermarkBuffer) (bytes : Bytes) :
    (w.add grow bytes).highWatermark = w.highWatermark :=
  (marks_checkWatermarks _ _).2.1

/-- A number of additions, none of which crosses the high mark. -/
theorem Sound.addAll (h : w.Sound) (pieces : List Bytes)
    (hside : w.length ≤ w.highWatermark →
      w.length + (pieces.map List.length).sum ≤ w.highWatermark) :
    (pieces.foldl (WatermarkBuffer.add grow) w).Sound ∧
      (pieces.foldl (WatermarkBuffer.add grow) w).length =
        w.length + (pieces.map List.length).sum ∧
      (pieces.foldl (WatermarkBuffer.add grow) w).highWatermark = w.highWatermark := by
  induction pieces generalizing w with
  | nil => exact ⟨h, rfl, rfl⟩
  | cons piece pieces ih =>
      rw [List.map_cons, List.sum_cons] at hside ⊢
      have hadded : (w.add grow piece).Sound := h.add fun _ hle => by
        have hall := hside hle
        omega
      have hlength := @length_add grow w piece
      have hhigh := @highWatermark_add grow w piece
      obtain ⟨hsound, hlonger, hmark⟩ := ih hadded (by rw [hlength, hhigh]; omega)
      exact ⟨hsound, by rw [List.foldl_cons, hlonger, hlength]; omega,
        by rw [List.foldl_cons, hmark, hhigh]⟩

theorem Sound.addBuffer (h : w.Sound) {data : SliceDeque}
    (hside : w.length ≤ w.highWatermark → w.length + piecesSize data ≤ w.highWatermark) :
    (w.addBuffer grow data).Sound := by
  rw [WatermarkBuffer.addBuffer, addPieces]
  rw [piecesSize] at hside
  by_cases hempty : data.length = 0
  · rw [if_pos hempty]
    exact h.checkedTwice (Nat.le_refl _) (by omega)
  · rw [if_neg hempty] at hside ⊢
    obtain ⟨hsound, hlonger, hmark⟩ := @Sound.addAll w grow h (data.getRawSlices 16) hside
    exact hsound.checkedTwice (by omega) (by rw [hmark, hlonger]; omega)

theorem wholeSlices_map_moved (slices : List Slice) (remaining : Nat) :
    wholeSlices (slices.map Slice.moved) remaining = wholeSlices slices remaining := by
  induction slices generalizing remaining with
  | nil => rfl
  | cons slice rest ih => simp only [List.map_cons, wholeSlices, Slice.reservable_moved, ih]

theorem Sound.moveTurns (turns : Nat) (source : SliceDeque) (h : w.Sound) (remaining : Nat)
    (hseen : w.SeenEnough (wholeSlices source.slices remaining))
    (hagain : w.NotAgain (wholeSlices source.slices remaining)
      (remaining - wholeSlices source.slices remaining)) :
    (SliceDeque.moveTurns (pushSlice grow) (WatermarkBuffer.add grow) turns source w
      remaining).2.Sound := by
  induction turns generalizing source w remaining with
  | zero => exact h
  | succ turns ih =>
      rw [SliceDeque.moveTurns]
      by_cases hdone : remaining = 0
      · rw [if_pos hdone]
        exact h
      rw [if_neg hdone]
      cases hslices : source.slices with
      | nil => exact h
      | cons front rest =>
          rw [hslices, wholeSlices, if_neg hdone] at hseen hagain
          simp only
          split_ifs with hwhole
          · rw [if_pos hwhole] at hseen hagain
            have hpushed : (w.pushSlice grow front).Sound :=
              h.unchecked (h.counted.pushBack front) rfl fun hdown => by
                have hle := hseen hdown
                omega
            have hrest : wholeSlices source.eraseFront.updateByteSize.slices
                (remaining - front.reservable) = wholeSlices rest (remaining - front.reservable) := by
              simp only [SliceDeque.updateByteSize, SliceDeque.eraseFront, hslices, List.tail_cons,
                wholeSlices_map_moved]
            refine ih _ hpushed _ (fun hdown => ?_) fun hup hle => ?_
            · have hle := hseen hdown
              rw [hrest]
              show w.length + front.reservable + _ ≤ w.highWatermark
              omega
            · rw [hrest] at hle ⊢
              have hbefore : w.length + front.reservable +
                wholeSlices rest (remaining - front.reservable) ≤ w.highWatermark := hle
              have hafter := hagain hup (by omega)
              show w.length + front.reservable + _ + _ ≤ w.highWatermark
              omega
          · rw [if_neg hwhole] at hagain
            refine h.add fun hup hle => ?_
            have hafter := hagain hup hle
            have hread := front.length_read_le remaining
            omega

theorem Sound.putCommitted (h : w.Sound) {committed : Option SliceDeque} {size : Nat}
    (hcommit : ∀ buffer, committed = some buffer →
      buffer.Counted ∧ buffer.length = w.length + size)
    (hseen : committed.isSome → w.SeenEnough size) : (w.putCommitted committed).Sound := by
  cases committed with
  | none => exact h
  | some buffer =>
      obtain ⟨hcounted, hlength⟩ := hcommit buffer rfl
      exact h.unchecked hcounted hlength (hseen rfl)

/-- A new slice with nothing in it. -/
theorem Sound.pushEmpty (h : w.Sound) (size : Nat) :
    (w.put (w.buffer.pushBack grow (Slice.ofSize size))).Sound := by
  refine @Sound.unchecked w h _ 0 (h.counted.pushBack _) rfl fun hdown => ?_
  by_contra hover
  have hup := h.steady.high (by omega)
  rw [hdown] at hup
  exact Bool.false_ne_true hup

theorem Sound.reserveForRead (h : w.Sound) : (w.put (w.buffer.reserveForRead grow).1).Sound := by
  rw [SliceDeque.reserveForRead]
  split
  · exact h
  · exact h.pushEmpty _

theorem Sound.step (h : w.Sound) (op : WatermarkOp) (hok : w.Watched op) :
    (w.step grow op).Sound := by
  cases op with
  | add bytes => exact h.add hok
  | addBuffer data => exact h.addBuffer hok
  | addBufferFragment fragment => exact h.unchecked (h.counted.pushBack _) rfl hok
  | prepend bytes =>
      exact h.unchecked (h.counted.prepend bytes) (SliceDeque.length_prepend _ bytes) hok
  | drain size =>
      obtain ⟨hcounted, hless⟩ := h.counted.drain size
      exact h.checked hcounted fun _ hle => hless.trans hle
  | moveOut destination length =>
      obtain ⟨hcounted, hless⟩ := h.counted.moveTo destination length
      exact h.checked hcounted fun _ hle => hless.trans hle
  | moveIn source length =>
      obtain ⟨hseen, hagain⟩ := hok
      exact h.moveTurns _ source _ hseen hagain
  | reserveForRead => exact h.reserveForRead
  | reserveSingleSlice length => exact h.pushEmpty length
  | commit raw size => exact h.putCommitted (fun _ hcommit => h.counted.commit hcommit) hok
  | commitReservation raw size =>
      exact h.putCommitted (fun _ hcommit => h.counted.commitReservation hcommit) hok

theorem sound_fresh {high low : Nat} (hpositive : 0 < low) (hmarks : low ≤ high) (overflow : Nat) :
    (fresh high low overflow).Sound where
  lowPositive := hpositive
  lowLeHigh := hmarks
  counted := rfl
  steady := ⟨fun hover => absurd hover (Nat.not_lt_zero _), fun _ => rfl, fun _ => rfl, rfl⟩

/-- **Hysteresis over whole runs** whose operations are all watched. -/
theorem steady_run (grow : Nat → Nat) {high low : Nat} (hpositive : 0 < low) (hmarks : low ≤ high)
    (overflow : Nat) (ops : List WatermarkOp)
    (h : Runs.Guarded (step grow) Watched (fresh high low overflow) ops) :
    (Runs.run (step grow) (fresh high low overflow) ops).Steady := by
  have hkeeps : ∀ w op, Watched w op → w.Sound → (w.step grow op).Sound :=
    fun _ op hok hsound => hsound.step op hok
  exact (Runs.invariant _ hkeeps (sound_fresh hpositive hmarks overflow) h).steady

/-- Eleven bytes put in front of an empty buffer whose high mark is at ten. -/
theorem not_steady_prepend :
    ¬ (Runs.run (step (2 * ·)) (new 10 5) [.prepend (List.replicate 11 0)]).Steady := by
  intro h
  have hup := h.high (by decide)
  exact absurd hup (by decide)

theorem steady_run_add :
    (Runs.run (step (2 * ·)) (new 10 5)
      [.add (List.replicate 11 0), .prepend [1], .drain 8, .drain 4]).Steady := by
  apply steady_run (2 * ·) (by decide) (by decide)
  exact ⟨fun hup => absurd hup (by decide), fun hdown => absurd hdown (by decide), trivial, trivial,
    trivial⟩

end WatermarkBuffer

end GopherMcp
