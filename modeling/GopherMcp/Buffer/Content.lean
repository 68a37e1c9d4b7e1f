import GopherMcp.Buffer.Sizes

/-!
# What a buffer holds

As long as every slice that is moved begins where its inline array begins, or does not lie in it, the
slices own the memory they point into and a buffer is the byte string that the operations make of byte
strings. A slice of the inline array that was drained in part and is moved after that is lost.
-/

namespace GopherMcp

namespace SliceDeque

/-- No slice was left behind by a move. -/
def Careful (d : SliceDeque) : Prop := ∀ slice ∈ d.relocated, slice.Rooted

/-- Every slice points into storage it owns, and the sizes add up. -/
structure Sound (d : SliceDeque) : Prop where
  owned : ∀ slice ∈ d.slices, slice.Owned
  counted : d.Counted

/-- One buffer becomes another whose text is made of the text of the first, unless a slice is left
behind on the way. -/
structure Acts (d d' : SliceDeque) (edit : Bytes → Bytes) : Prop where
  history : d.relocated ⊆ d'.relocated
  sound : d'.Careful → d.Sound → d'.Sound
  text : d'.Careful → d.Sound → d'.toString = edit d.toString

variable {d d' d'' : SliceDeque} {edit edit' : Bytes → Bytes} {grow : Nat → Nat} {bytes : Bytes}

theorem sound_empty : empty.Sound where
  owned _ hslice := absurd hslice List.not_mem_nil
  counted := rfl

theorem Acts.refl (d : SliceDeque) : Acts d d id where
  history := List.Subset.refl _
  sound _ h := h
  text _ _ := rfl

theorem Acts.trans (h : Acts d d' edit) (h' : Acts d' d'' edit') :
    Acts d d'' fun text => edit' (edit text) where
  history := List.Subset.trans h.history h'.history
  sound hcareful hsound :=
    h'.sound hcareful (h.sound (fun slice hslice => hcareful slice (h'.history hslice)) hsound)
  text hcareful hsound := by
    have hcareful' : d'.Careful := fun slice hslice => hcareful slice (h'.history hslice)
    rw [h'.text hcareful (h.sound hcareful' hsound), h.text hcareful' hsound]

theorem Acts.congr (h : Acts d d' edit) (hedit : d.Sound → edit d.toString = edit' d.toString) :
    Acts d d' edit' where
  history := h.history
  sound := h.sound
  text hcareful hsound := (h.text hcareful hsound).trans (hedit hsound)

theorem Sound.length_eq (h : d.Sound) : d.length = d.toString.length := by
  rw [length, h.counted, toString, List.length_flatMap]
  refine congrArg List.sum (List.map_congr_left fun slice hslice => ?_)
  exact (h.owned slice hslice).length_data.symm

/-! ### Relocation -/

theorem flatMap_moved {slices : List Slice} (h : ∀ slice ∈ slices, slice.Rooted) :
    (slices.map Slice.moved).flatMap Slice.data = slices.flatMap Slice.data := by
  rw [List.flatMap_map]
  exact List.flatMap_congr fun slice hslice => Slice.data_moved (h slice hslice)

theorem owned_map_moved {slices : List Slice} (hrooted : ∀ slice ∈ slices, slice.Rooted)
    (h : ∀ slice ∈ slices, slice.Owned) : ∀ slice ∈ slices.map Slice.moved, slice.Owned := by
  intro slice hslice
  obtain ⟨old, hold, heq⟩ := List.mem_map.mp hslice
  rw [← heq]
  exact (h old hold).moved (hrooted old hold)

theorem history_pushBack (d : SliceDeque) (slice : Slice) :
    d.relocated ⊆ (d.pushBack grow slice).relocated := by
  rw [pushBack, List.append_assoc]
  exact List.subset_append_left _ _

theorem acts_pushBack (d : SliceDeque) {slice : Slice} (howned : slice.Owned) :
    Acts d (d.pushBack grow slice) (· ++ slice.data) where
  history := history_pushBack d slice
  sound hcareful hsound := by
    have hslice : slice.Rooted := hcareful slice (by simp [pushBack])
    refine ⟨?_, hsound.counted.pushBack slice⟩
    simp only [pushBack, List.forall_mem_append, List.forall_mem_singleton]
    refine ⟨?_, howned.moved hslice⟩
    split_ifs with hfull
    · exact owned_map_moved (fun old hmem => hcareful old (by simp [pushBack, hfull, hmem]))
        hsound.owned
    · exact hsound.owned
  text hcareful hsound := by
    have hslice : slice.Rooted := hcareful slice (by simp [pushBack])
    rw [toString, pushBack, List.flatMap_append, List.flatMap_singleton, Slice.data_moved hslice]
    apply congrArg (· ++ slice.data)
    split_ifs with hfull
    · exact flatMap_moved fun old hmem => hcareful old (by simp [pushBack, hfull, hmem])
    · rfl

theorem acts_pushFront (d : SliceDeque) {slice : Slice} (howned : slice.Owned) :
    Acts d (d.pushFront grow slice) (slice.data ++ ·) where
  history := by
    rw [pushFront, List.append_assoc]
    exact List.subset_append_left _ _
  sound hcareful hsound := by
    have hslice : slice.Rooted := hcareful slice (by simp [pushFront])
    have hold : ∀ old ∈ d.slices, old.Rooted :=
      fun old hmem => hcareful old (by simp [pushFront, hmem])
    refine ⟨?_, hsound.counted.pushFront slice⟩
    simp only [pushFront, List.forall_mem_cons]
    exact ⟨howned.moved hslice, owned_map_moved hold hsound.owned⟩
  text hcareful hsound := by
    have hslice : slice.Rooted := hcareful slice (by simp [pushFront])
    rw [toString, pushFront, List.flatMap_cons, Slice.data_moved hslice,
      flatMap_moved fun old hmem => hcareful old (by simp [pushFront, hmem])]
    rfl

/-! ### Adding -/

theorem acts_appendBack (d : SliceDeque) (bytes : Bytes) :
    ∃ copied, Acts d (d.appendBack bytes).1 (· ++ bytes.take copied) ∧
      (d.appendBack bytes).2 = bytes.drop copied := by
  obtain hsame | ⟨slices, back, hslices, happended⟩ := d.appendBack_cases bytes
  · rw [hsame]
    exact ⟨0, (Acts.refl d).congr fun _ => by simp, List.drop_zero.symm⟩
  · have hback : d.Sound → back.Owned := fun hsound => hsound.owned back (by simp [hslices])
    refine ⟨(back.append bytes).2, ⟨?_, fun _ hsound => ⟨?_, hsound.counted.appendBack bytes⟩,
      fun _ hsound => ?_⟩, ?_⟩
    · rw [happended]
      exact List.Subset.refl _
    · have howned := hsound.owned
      rw [hslices, List.forall_mem_append] at howned
      rw [happended, List.forall_mem_append, List.forall_mem_singleton]
      exact ⟨howned.1, ((hback hsound).append bytes).1⟩
    · simp only [happended, toString, hslices, List.flatMap_append, List.flatMap_singleton,
        ((hback hsound).append bytes).2, List.append_assoc]
    · rw [happended]

/-- When nothing is left, all was appended. -/
theorem acts_appendBack_all (d : SliceDeque) (h : (d.appendBack bytes).2 = []) :
    Acts d (d.appendBack bytes).1 (· ++ bytes) := by
  obtain ⟨copied, hacts, hleft⟩ := d.acts_appendBack bytes
  rwa [List.take_of_length_le (List.drop_eq_nil_iff.mp (hleft.symm.trans h))] at hacts

theorem acts_add (d : SliceDeque) (bytes : Bytes) : Acts d (d.add grow bytes) (· ++ bytes) := by
  obtain ⟨hnone, hadd⟩ | ⟨hdone, hadd⟩ | ⟨size, hsize, hadd⟩ := @add_cases grow d bytes
  · rw [hadd, hnone]
    exact (Acts.refl d).congr fun _ => (List.append_nil _).symm
  · rw [hadd]
    exact d.acts_appendBack_all hdone
  · obtain ⟨copied, hfirst, hleft⟩ := d.acts_appendBack bytes
    have hpushed := @acts_pushBack grow (d.appendBack bytes).1 _ (Slice.owned_ofSize size)
    rw [hadd]
    refine ((hfirst.trans hpushed).trans (acts_appendBack_all _
      (appendBack_pushBack _ hsize))).congr fun _ => ?_
    rw [Slice.data_ofSize, List.append_nil, List.append_assoc, hleft, List.take_append_drop]

theorem acts_addBufferFragment (d : SliceDeque) (fragment : Bytes) :
    Acts d (d.addBufferFragment grow fragment) (· ++ fragment) := by
  have hpushed := @acts_pushBack grow d _ (Slice.owned_ofFragment fragment)
  rwa [Slice.data_ofFragment] at hpushed

/-- A new slice with some bytes in it is put at the front. -/
theorem acts_pushFront_new (d : SliceDeque) (bytes : Bytes) :
    Acts d (d.pushFront grow ((Slice.ofSize bytes.length).append bytes).1) (bytes ++ ·) := by
  obtain ⟨howned, hdata⟩ := (Slice.owned_ofSize bytes.length).append bytes
  rw [Slice.data_ofSize, Slice.append_ofSize (Nat.le_refl _), List.take_length,
    List.nil_append] at hdata
  have hpushed := @acts_pushFront grow d _ howned
  rwa [hdata] at hpushed

theorem acts_prepend (d : SliceDeque) (bytes : Bytes) :
    Acts d (d.prepend grow bytes) (bytes ++ ·) := by
  obtain ⟨hnone, hsame⟩ | ⟨front, rest, hslices, hall, hfront⟩ | hpushed := @prepend_cases grow d bytes
  · rw [hsame, hnone]
    exact Acts.refl d
  · have howned : d.Sound → front.Owned := fun hsound => hsound.owned front (by simp [hslices])
    refine ⟨?_, fun _ hsound => ⟨?_, hsound.counted.prepend bytes⟩, fun _ hsound => ?_⟩
    · rw [hfront]
      exact List.Subset.refl _
    · have hrest := hsound.owned
      rw [hslices, List.forall_mem_cons] at hrest
      rw [hfront, List.forall_mem_cons]
      exact ⟨((howned hsound).prepend bytes).1, hrest.2⟩
    · rw [hfront, toString, toString, hslices, List.flatMap_cons, List.flatMap_cons,
        ((howned hsound).prepend bytes).2, hall, List.take_length, List.append_assoc]
  · rw [hpushed]
    exact d.acts_pushFront_new bytes

/-! ### Taking away -/

/-- The first slice is drained in part. -/
theorem acts_drainFront (d : SliceDeque) {front : Slice} {rest : List Slice}
    (hslices : d.slices = front :: rest) {size : Nat} (hsize : size ≤ front.reservable) :
    Acts d { d.modifyFront (fun front => front.drain size) with byteSize := d.byteSize - size }
      (List.drop size) where
  history := List.Subset.refl _
  sound _ hsound := by
    have howned := hsound.owned
    rw [hslices, List.forall_mem_cons] at howned
    refine ⟨?_, hsound.counted.drainFront hslices hsize⟩
    simp only [modifyFront, hslices, List.modifyHead_cons, List.forall_mem_cons]
    exact ⟨(howned.1.drain hsize).1, howned.2⟩
  text _ hsound := by
    have howned : front.Owned := hsound.owned front (by simp [hslices])
    simp only [toString, modifyFront, hslices, List.modifyHead_cons, List.flatMap_cons,
      (howned.drain hsize).2]
    rw [List.drop_append_of_le_length (by rw [howned.length_data]; exact hsize)]

/-- The first slice is taken off the vector, and the others move up. -/
theorem acts_eraseFront (d : SliceDeque) {front : Slice} {rest : List Slice}
    (hslices : d.slices = front :: rest) {size : Nat}
    (hsize : d.Counted → Counted { d.eraseFront with byteSize := size }) :
    Acts d { d.eraseFront with byteSize := size } (List.drop front.reservable) where
  history := List.subset_append_left _ _
  sound hcareful hsound := by
    have hrooted : ∀ slice ∈ rest, slice.Rooted :=
      fun slice hslice => hcareful slice (by simp [eraseFront, hslices, hslice])
    refine ⟨?_, hsize hsound.counted⟩
    simp only [eraseFront, hslices, List.tail_cons]
    exact owned_map_moved hrooted fun slice hslice => hsound.owned slice (by simp [hslices, hslice])
  text hcareful hsound := by
    have howned : front.Owned := hsound.owned front (by simp [hslices])
    have hrooted : ∀ slice ∈ rest, slice.Rooted :=
      fun slice hslice => hcareful slice (by simp [eraseFront, hslices, hslice])
    simp only [toString, eraseFront, hslices, List.tail_cons, flatMap_moved hrooted,
      List.flatMap_cons]
    rw [← howned.length_data, List.drop_left]

theorem acts_drainTurns (turns : Nat) (d : SliceDeque) (size : Nat) (hturns : d.slices.length < turns) :
    Acts d (drainTurns turns d size) (List.drop size) := by
  induction turns generalizing d size with
  | zero => exact absurd hturns (Nat.not_lt_zero _)
  | succ turns ih =>
      rw [drainTurns]
      by_cases hdone : size = 0
      · rw [if_pos hdone, hdone]
        exact Acts.refl d
      rw [if_neg hdone]
      cases hslices : d.slices with
      | nil =>
          refine (Acts.refl d).congr fun _ => ?_
          rw [toString, hslices]
          exact List.drop_nil.symm
      | cons front rest =>
          simp only
          split_ifs with hwhole
          · rw [hslices, List.length_cons] at hturns
            have herased := d.acts_eraseFront hslices fun hcounted => hcounted.eraseFront hslices
            rw [eraseFront_modifyFront]
            have hshorter : d.eraseFront.slices.length < turns := by
              simp only [eraseFront, hslices, List.tail_cons, List.length_map]
              omega
            refine (herased.trans (ih _ _ hshorter)).congr fun _ => ?_
            rw [List.drop_drop, Nat.add_sub_cancel' hwhole]
          · exact d.acts_drainFront hslices (by omega)

theorem acts_drain (d : SliceDeque) (size : Nat) :
    Acts d (d.drain size) fun text => if text.length < size then text else text.drop size := by
  rw [drain]
  split_ifs with hover
  · refine (Acts.refl d).congr fun hsound => ?_
    rw [if_pos (by rw [← hsound.length_eq]; exact hover)]
    rfl
  · refine (d.acts_drainTurns _ size (Nat.lt_succ_self _)).congr fun hsound => ?_
    rw [if_neg (by rw [← hsound.length_eq]; exact hover)]

/-! ### Moving to another buffer -/

/-- The first `length` bytes of one buffer go to the end of another. -/
structure HandsOver (d dest : SliceDeque) (length : Nat) (after : SliceDeque × SliceDeque) :
    Prop where
  history : d.relocated ⊆ after.1.relocated ∧ dest.relocated ⊆ after.2.relocated
  sound : after.1.Careful → after.2.Careful → d.Sound → dest.Sound → after.1.Sound ∧ after.2.Sound
  text : after.1.Careful → after.2.Careful → d.Sound → dest.Sound →
    after.1.toString = d.toString.drop length ∧
      after.2.toString = dest.toString ++ d.toString.take length

variable {dest : SliceDeque}

/-- A piece is handed over first, and then the rest of it. -/
theorem HandsOver.after {taken length : Nat} {dest' : SliceDeque}
    {later : SliceDeque × SliceDeque} (h : HandsOver d' dest' length later)
    (hsource : Acts d d' (List.drop taken)) (hhistory : dest.relocated ⊆ dest'.relocated)
    (hdest : d.Sound → Acts dest dest' (· ++ d.toString.take taken)) :
    HandsOver d dest (taken + length) later := by
  have hstart : later.1.Careful → later.2.Careful → d'.Careful ∧ dest'.Careful :=
    fun hsourceCareful hdestCareful =>
      ⟨fun slice hslice => hsourceCareful slice (h.history.1 hslice),
        fun slice hslice => hdestCareful slice (h.history.2 hslice)⟩
  refine ⟨⟨List.Subset.trans hsource.history h.history.1, List.Subset.trans hhistory h.history.2⟩,
    fun hsourceCareful hdestCareful hsound hdestSound => ?_,
    fun hsourceCareful hdestCareful hsound hdestSound => ?_⟩
  · obtain ⟨hcareful, hcareful'⟩ := hstart hsourceCareful hdestCareful
    exact h.sound hsourceCareful hdestCareful (hsource.sound hcareful hsound)
      ((hdest hsound).sound hcareful' hdestSound)
  · obtain ⟨hcareful, hcareful'⟩ := hstart hsourceCareful hdestCareful
    obtain ⟨hleft, htaken⟩ := h.text hsourceCareful hdestCareful (hsource.sound hcareful hsound)
      ((hdest hsound).sound hcareful' hdestSound)
    rw [hsource.text hcareful hsound] at hleft htaken
    rw [hleft, htaken, (hdest hsound).text hcareful' hdestSound, List.drop_drop, List.append_assoc,
      List.take_add]
    exact ⟨rfl, rfl⟩

theorem handsOver_nothing (d dest : SliceDeque) : HandsOver d dest 0 (d, dest) where
  history := ⟨List.Subset.refl _, List.Subset.refl _⟩
  sound _ _ hsound hdestSound := ⟨hsound, hdestSound⟩
  text _ _ _ _ := ⟨rfl, (List.append_nil _).symm⟩

theorem handsOver_moveTurns (turns : Nat) (d dest : SliceDeque) (remaining : Nat)
    (hturns : d.slices.length < turns) :
    HandsOver d dest remaining
      (moveTurns (pushBack grow) (add grow) turns d dest remaining) := by
  induction turns generalizing d dest remaining with
  | zero => exact absurd hturns (Nat.not_lt_zero _)
  | succ turns ih =>
      rw [moveTurns]
      by_cases hdone : remaining = 0
      · rw [if_pos hdone, hdone]
        exact handsOver_nothing d dest
      rw [if_neg hdone]
      cases hslices : d.slices with
      | nil =>
          have hempty : d.toString = [] := by rw [toString, hslices, List.flatMap_nil]
          exact ⟨(handsOver_nothing d dest).history, (handsOver_nothing d dest).sound,
            fun _ _ _ _ => by simp [hempty]⟩
      | cons front rest =>
          have hfront : d.Sound → front.Owned ∧ d.toString.take front.reservable = front.data := by
            intro hsound
            have howned : front.Owned := hsound.owned front (by simp [hslices])
            rw [toString, hslices, List.flatMap_cons, ← howned.length_data, List.take_left]
            exact ⟨howned, rfl⟩
          simp only
          split_ifs with hwhole
          · have hshorter : d.eraseFront.updateByteSize.slices.length < turns := by
              simp only [updateByteSize, eraseFront, hslices, List.tail_cons, List.length_map]
              rw [hslices, List.length_cons] at hturns
              omega
            have herased := d.acts_eraseFront hslices fun _ => d.eraseFront.counted_updateByteSize
            have hrest := (ih d.eraseFront.updateByteSize (dest.pushBack grow front)
              (remaining - front.reservable) hshorter).after herased (history_pushBack dest front)
              fun hsound => by
                rw [(hfront hsound).2]
                exact dest.acts_pushBack (hfront hsound).1
            rwa [Nat.add_sub_cancel' hwhole] at hrest
          · refine (handsOver_nothing _ _).after (d.acts_drainFront hslices (by omega))
              (dest.acts_add (front.read remaining)).history fun hsound => ?_
            obtain ⟨howned, hdata⟩ := hfront hsound
            have hpart : d.toString.take remaining = front.read remaining := by
              rw [howned.read_eq_take (by omega), ← hdata, List.take_take,
                Nat.min_eq_left (by omega)]
            rw [hpart]
            exact dest.acts_add _

theorem handsOver_move (d dest : SliceDeque) (length : Nat) :
    HandsOver d dest length (d.move grow dest length) := by
  have hmoved := @handsOver_moveTurns grow _ d dest (min length d.length) (Nat.lt_succ_self _)
  refine ⟨hmoved.history, hmoved.sound, fun hsource hdest hsound hdestSound => ?_⟩
  have htext := hmoved.text hsource hdest hsound hdestSound
  rw [hsound.length_eq] at htext
  rw [move, moveTo, hsound.length_eq]
  refine ⟨htext.1.trans ?_, htext.2.trans ?_⟩
  · rcases Nat.le_total length d.toString.length with hle | hle
    · rw [Nat.min_eq_left hle]
    · rw [Nat.min_eq_right hle, List.drop_length, List.drop_of_length_le hle]
  · rw [← List.take_eq_take_min]

/-! ### One piece -/

theorem gather_eq {slices : List Slice} (howned : ∀ slice ∈ slices, slice.Owned) (size : Nat) :
    gather slices size = (slices.flatMap Slice.data).take size := by
  induction slices generalizing size with
  | nil => rw [gather, List.flatMap_nil, List.take_nil]
  | cons slice rest ih =>
      rw [List.forall_mem_cons] at howned
      have hlength := howned.1.length_data
      rw [gather]
      split_ifs with hdone
      · rw [hdone, List.take_zero]
      · simp only
        rw [howned.1.read_eq_take (Nat.min_le_right _ _), ih howned.2, List.flatMap_cons,
          List.take_append, hlength]
        rcases Nat.le_total size slice.reservable with hle | hle
        · rw [Nat.min_eq_left hle, Nat.sub_self, Nat.sub_eq_zero_of_le hle]
        · have hall : slice.data.take size = slice.data := List.take_of_length_le (by omega)
          rw [Nat.min_eq_right hle, ← hlength, List.take_length, hall]

theorem length_gather_le (slices : List Slice) (size : Nat) :
    (gather slices size).length ≤ size := by
  induction slices generalizing size with
  | nil => exact Nat.zero_le _
  | cons slice rest ih =>
      rw [gather]
      split_ifs with hdone
      · exact Nat.zero_le _
      · have hrest := ih (size - min size slice.reservable)
        have hread := slice.length_read_le (min size slice.reservable)
        rw [List.length_append]
        omega

theorem acts_linearize (d : SliceDeque) (size : Nat) : Acts d (d.linearize grow size) id := by
  rw [linearize]
  obtain ⟨n, hn⟩ : ∃ n, n = min size d.length := ⟨_, rfl⟩
  simp only [← hn]
  split_ifs with hnothing hfront
  · exact Acts.refl d
  · exact Acts.refl d
  obtain ⟨howned, hdata⟩ := Slice.owned_written (length_gather_le d.slices n)
  refine ((d.acts_drain n).trans (acts_pushFront (d.drain n) howned)).congr fun hsound => ?_
  have hle : n ≤ d.toString.length := by
    rw [← hsound.length_eq]
    omega
  have hgathered := gather_eq hsound.owned n
  have hcount : (gather d.slices n).length = n := by
    rw [hgathered, List.length_take]
    exact Nat.min_eq_left hle
  rw [hdata hcount, if_neg (Nat.not_lt.mpr hle), hgathered]
  exact List.take_append_drop n d.toString

end SliceDeque

/-! ### Runs -/

/-- The operations on a number of buffers. Moving to itself is not among them. -/
inductive BufferOp
  | add (buffer : Nat) (bytes : Bytes)
  | addBufferFragment (buffer : Nat) (fragment : Bytes)
  | prepend (buffer : Nat) (bytes : Bytes)
  | drain (buffer size : Nat)
  | move (source destination : Nat) (distinct : source ≠ destination) (length : Nat)
  | linearize (buffer size : Nat)

/-- The buffers, by number. -/
abbrev Buffers := Nat → SliceDeque

namespace Buffers

open SliceDeque

def new : Buffers := fun _ => SliceDeque.empty

def step (grow : Nat → Nat) (s : Buffers) : BufferOp → Buffers
  | .add i bytes => Function.update s i ((s i).add grow bytes)
  | .addBufferFragment i fragment => Function.update s i ((s i).addBufferFragment grow fragment)
  | .prepend i bytes => Function.update s i ((s i).prepend grow bytes)
  | .drain i size => Function.update s i ((s i).drain size)
  | .move i j _ length =>
      let (source, destination) := (s i).move grow (s j) length
      Function.update (Function.update s i source) j destination
  | .linearize i size => Function.update s i ((s i).linearize grow size)

/-- The same operations on byte strings. Draining more than there is changes nothing. -/
def stepText (texts : Nat → Bytes) : BufferOp → Nat → Bytes
  | .add i bytes => Function.update texts i (texts i ++ bytes)
  | .addBufferFragment i fragment => Function.update texts i (texts i ++ fragment)
  | .prepend i bytes => Function.update texts i (bytes ++ texts i)
  | .drain i size =>
      Function.update texts i
        (if (texts i).length < size then texts i else (texts i).drop size)
  | .move i j _ length =>
      Function.update (Function.update texts i ((texts i).drop length)) j
        (texts j ++ (texts i).take length)
  | .linearize _ _ => texts

/-- The buffers hold these byte strings, in slices that point into storage they own. -/
def Holds (s : Buffers) (texts : Nat → Bytes) : Prop :=
  ∀ i, (∀ slice ∈ (s i).slices, slice.Owned) ∧ (s i).toString = texts i ∧
    (s i).length = (texts i).length

/-- The step relocates no slice whose data lies in its inline array behind the start of the array. -/
def KeepsRooted (grow : Nat → Nat) (s : Buffers) (op : BufferOp) : Prop :=
  ∀ i, (s.step grow op i).Careful

/-- Sound buffers and what they hold. -/
def Tracks (s : Buffers) (texts : Nat → Bytes) : Prop :=
  ∀ i, (s i).Sound ∧ (s i).toString = texts i

variable {s : Buffers} {texts : Nat → Bytes} {grow : Nat → Nat}

theorem Tracks.update (h : Tracks s texts) {i : Nat} {d : SliceDeque} {edit : Bytes → Bytes}
    (hacts : Acts (s i) d edit) (hcareful : d.Careful) :
    Tracks (Function.update s i d) (Function.update texts i (edit (texts i))) := by
  intro k
  by_cases hk : k = i
  · subst hk
    rw [Function.update_self, Function.update_self, ← (h k).2]
    exact ⟨hacts.sound hcareful (h k).1, hacts.text hcareful (h k).1⟩
  · rw [Function.update_of_ne hk, Function.update_of_ne hk]
    exact h k

theorem Tracks.updateTwo (h : Tracks s texts) {i j : Nat} (hdistinct : i ≠ j)
    {after : SliceDeque × SliceDeque} {length : Nat}
    (hmoved : HandsOver (s i) (s j) length after) (hsource : after.1.Careful)
    (hdest : after.2.Careful) :
    Tracks (Function.update (Function.update s i after.1) j after.2)
      (Function.update (Function.update texts i ((texts i).drop length)) j
        (texts j ++ (texts i).take length)) := by
  have hsound := hmoved.sound hsource hdest (h i).1 (h j).1
  have htext := hmoved.text hsource hdest (h i).1 (h j).1
  rw [(h i).2, (h j).2] at htext
  intro k
  by_cases hj : k = j
  · subst hj
    rw [Function.update_self, Function.update_self]
    exact ⟨hsound.2, htext.2⟩
  rw [Function.update_of_ne hj, Function.update_of_ne hj]
  by_cases hi : k = i
  · subst hi
    rw [Function.update_self, Function.update_self]
    exact ⟨hsound.1, htext.1⟩
  · rw [Function.update_of_ne hi, Function.update_of_ne hi]
    exact h k

theorem Tracks.step (h : Tracks s texts) (op : BufferOp) (hok : KeepsRooted grow s op) :
    Tracks (s.step grow op) (stepText texts op) := by
  cases op with
  | add i bytes =>
      refine h.update ((s i).acts_add bytes) ?_
      simpa only [Buffers.step, Function.update_self] using hok i
  | addBufferFragment i fragment =>
      refine h.update ((s i).acts_addBufferFragment fragment) ?_
      simpa only [Buffers.step, Function.update_self] using hok i
  | prepend i bytes =>
      refine h.update ((s i).acts_prepend bytes) ?_
      simpa only [Buffers.step, Function.update_self] using hok i
  | drain i size =>
      refine h.update ((s i).acts_drain size) ?_
      simpa only [Buffers.step, Function.update_self] using hok i
  | move i j hdistinct length =>
      have hmoved := @handsOver_move grow (s i) (s j) length
      have hsource := hok i
      have hdest := hok j
      simp only [Buffers.step, Function.update_of_ne hdistinct, Function.update_self] at hsource hdest
      exact h.updateTwo hdistinct hmoved hsource hdest
  | linearize i size =>
      have hcareful := hok i
      simp only [Buffers.step, Function.update_self] at hcareful
      have hsame := h.update ((s i).acts_linearize size) hcareful
      rwa [id, Function.update_eq_self] at hsame

theorem Tracks.holds (h : Tracks s texts) : Holds s texts := by
  intro i
  obtain ⟨hsound, htext⟩ := h i
  refine ⟨hsound.owned, htext, ?_⟩
  rw [hsound.length_eq, htext]

/-- **Buffers refine byte strings** in every run that relocates no partly drained slice of an inline
array. -/
theorem holds_run (grow : Nat → Nat) (ops : List BufferOp)
    (h : Runs.Guarded (step grow) (KeepsRooted grow) new ops) :
    Holds (Runs.run (step grow) new ops) (Runs.run stepText (fun _ => []) ops) := by
  have hstart : Tracks new fun _ => [] := fun i => ⟨sound_empty, rfl⟩
  have hkeeps : ∀ s texts op, KeepsRooted grow s op → Tracks s texts →
      Tracks (s.step grow op) (stepText texts op) :=
    fun _ _ op hok htracks => htracks.step op hok
  exact (Runs.simulates _ hkeeps hstart h).holds

/-- Two bytes, one of them drained, and a fragment for which the vector grows. -/
def growthAfterDrain : List BufferOp :=
  [.prepend 0 (ascii "ab"), .drain 0 1, .addBufferFragment 0 (ascii "c")]

theorem not_holds_growthAfterDrain :
    ¬ Holds (Runs.run (step (2 * ·)) new growthAfterDrain)
        (Runs.run stepText (fun _ => []) growthAfterDrain) := by
  intro h
  have hfirst : (Runs.run (step (2 * ·)) new growthAfterDrain 0).slices.head?.map Slice.base =
      some .elsewhere := by
    decide
  obtain ⟨slice, hslice, hbase⟩ := Option.map_eq_some_iff.mp hfirst
  exact ((h 0).1 slice (List.mem_of_head? hslice)).not_elsewhere hbase

/-- The same operations with the fragment added before the byte is drained. -/
def growthBeforeDrain : List BufferOp :=
  [.prepend 0 (ascii "ab"), .addBufferFragment 0 (ascii "c"), .drain 0 1]

theorem holds_run_growthBeforeDrain :
    Holds (Runs.run (step (2 * ·)) new growthBeforeDrain)
      (Runs.run stepText (fun _ => []) growthBeforeDrain) := by
  apply holds_run
  have hkeeps : ∀ ops : List BufferOp, ops ∈ [growthBeforeDrain.take 1, growthBeforeDrain.take 2,
      growthBeforeDrain] → ∀ i, (Runs.run (step (2 * ·)) new ops i).Careful := by
    intro ops hops i
    cases i with
    | zero =>
        revert ops
        rw [List.forall_mem_cons, List.forall_mem_cons, List.forall_mem_singleton]
        refine ⟨?_, ?_, ?_⟩ <;> simp only [Careful] <;> decide
    | succ i =>
        revert ops
        rw [List.forall_mem_cons, List.forall_mem_cons, List.forall_mem_singleton]
        exact ⟨nofun, nofun, nofun⟩
  exact ⟨hkeeps (growthBeforeDrain.take 1) (by simp), hkeeps (growthBeforeDrain.take 2) (by simp),
    hkeeps growthBeforeDrain (by simp), trivial⟩

end Buffers

end GopherMcp
