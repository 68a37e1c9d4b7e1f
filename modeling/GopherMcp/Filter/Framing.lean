import GopherMcp.Core.Bytes
import GopherMcp.Lib.Bits
import GopherMcp.Lib.Draining

/-!
# Framing of JSON-RPC messages

A filter writes each message behind a four byte big-endian length, or before a line feed, and reads what
it receives by the same rule out of `partial_message_`. The reader adds the size of the prefix to the
length in 32 bits, so a prefix from `0xFFFFFFFC` on states a frame that looks shorter than its own
prefix: the reader takes it at once, whole or not.
-/

namespace GopherMcp

namespace JsonRpcProtocolFilter

/-! ### Reading -/

/-- The length prefix, assembled byte by byte in a `uint32_t`. -/
def readLength (b0 b1 b2 b3 : UInt8) : UInt32 :=
  (b0.toUInt32 <<< 24) ||| (b1.toUInt32 <<< 16) ||| (b2.toUInt32 <<< 8) ||| b3.toUInt32

/-- A turn of the framed loop. The sum `4 + msg_len` is a `uint32_t`. -/
def framedTurn (partialMessage : Bytes) : Option (List Bytes × Bytes) :=
  match partialMessage with
  | b0 :: b1 :: b2 :: b3 :: _ =>
      let msgLen := readLength b0 b1 b2 b3
      if partialMessage.length < (4 + msgLen).toNat then none
      else
        some ([(partialMessage.drop 4).take msgLen.toNat], partialMessage.drop (4 + msgLen).toNat)
  | _ => none

/-- A turn of the loop over lines. An empty line is not a message. -/
def lineTurn (partialMessage : Bytes) : Option (List Bytes × Bytes) :=
  if kLF ∈ partialMessage then
    let line := partialMessage.takeWhile (· ≠ kLF)
    some (if line.isEmpty then [] else [line], partialMessage.drop (line.length + 1))
  else none

def turn (useFraming : Bool) : Bytes → Option (List Bytes × Bytes) :=
  if useFraming then framedTurn else lineTurn

/-- The loop of `parseMessages`, run for at most `fuel` turns: the messages handed on and what becomes of
`partial_message_`. -/
def parseMessages (useFraming : Bool) (fuel : Nat) (partialMessage buffer : Bytes) :
    Option (List Bytes × Bytes) :=
  Draining.drain (turn useFraming) fuel (partialMessage ++ buffer)

/-- One call of `parseMessages` for each read. -/
def readAll (useFraming : Bool) (fuel : Nat) (partialMessage : Bytes) (reads : List Bytes) :
    Option (List Bytes × Bytes) :=
  Draining.readChunks (turn useFraming) fuel partialMessage reads

/-! ### Writing -/

/-- `frameMessage`: the low 32 bits of the length, then the message. Nothing is done to an empty
buffer. -/
def frameMessage (message : Bytes) : Bytes :=
  if message.length = 0 then message
  else
    [UInt8.ofNat (message.length >>> 24), UInt8.ofNat (message.length >>> 16),
      UInt8.ofNat (message.length >>> 8), UInt8.ofNat message.length] ++ message

/-- What the encoder sends for a message. With framing its write passes `onWrite`, which frames it. -/
def encode (useFraming : Bool) (message : Bytes) : Bytes :=
  if useFraming then frameMessage message else message ++ [kLF]

/-! ### The length of a frame -/

/-- The length a prefix states, as a number. -/
def statedLength : Bytes → Nat
  | b0 :: b1 :: b2 :: b3 :: _ =>
      b0.toNat * 2 ^ 24 + b1.toNat * 2 ^ 16 + b2.toNat * 2 ^ 8 + b3.toNat
  | _ => 0

theorem toNat_readLength (b0 b1 b2 b3 : UInt8) (rest : Bytes) :
    (readLength b0 b1 b2 b3).toNat = statedLength (b0 :: b1 :: b2 :: b3 :: rest) := by
  have h0 := b0.toNat_lt
  have h1 := b1.toNat_lt
  have h2 := b2.toNat_lt
  have h3 := b3.toNat_lt
  have hshift0 : b0.toNat <<< 24 % 2 ^ 32 = b0.toNat <<< 24 := by
    rw [Nat.shiftLeft_eq]
    omega
  have hshift1 : b1.toNat <<< 16 % 2 ^ 32 = b1.toNat <<< 16 := by
    rw [Nat.shiftLeft_eq]
    omega
  have hshift2 : b2.toNat <<< 8 % 2 ^ 32 = b2.toNat <<< 8 := by
    rw [Nat.shiftLeft_eq]
    omega
  simp only [readLength, statedLength, UInt32.toNat_or, UInt32.toNat_shiftLeft,
    UInt8.toNat_toUInt32, Nat.or_assoc, UInt32.reduceToNat, Nat.reduceMod, hshift0, hshift1, hshift2]
  have hlow : b2.toNat <<< 8 ||| b3.toNat = b2.toNat * 2 ^ 8 + b3.toNat := Bits.shiftLeft_or (by omega)
  have hmid : b1.toNat <<< 16 ||| (b2.toNat * 2 ^ 8 + b3.toNat) =
      b1.toNat * 2 ^ 16 + (b2.toNat * 2 ^ 8 + b3.toNat) := Bits.shiftLeft_or (by omega)
  rw [hlow, hmid, Bits.shiftLeft_or (by omega)]
  omega

theorem statedLength_lt (partialMessage : Bytes) : statedLength partialMessage < 2 ^ 32 := by
  unfold statedLength
  split
  · rename_i b0 b1 b2 b3 _
    have h0 := b0.toNat_lt
    have h1 := b1.toNat_lt
    have h2 := b2.toNat_lt
    have h3 := b3.toNat_lt
    omega
  · omega

/-- A turn, with the sum taken modulo `2 ^ 32`. -/
theorem framedTurn_eq (partialMessage : Bytes) :
    framedTurn partialMessage =
      let frame := (4 + statedLength partialMessage) % 2 ^ 32
      if partialMessage.length < 4 ∨ partialMessage.length < frame then none
      else
        some ([(partialMessage.drop 4).take (statedLength partialMessage)],
          partialMessage.drop frame) := by
  unfold framedTurn
  split
  · rename_i b0 b1 b2 b3 rest
    simp only [UInt32.toNat_add, toNat_readLength b0 b1 b2 b3 rest, UInt32.reduceToNat,
      List.length_cons]
    have hshort : ¬ rest.length + 1 + 1 + 1 + 1 < 4 := by omega
    simp only [hshort, false_or]
  · rename_i hshort
    have hlength : partialMessage.length < 4 := by
      by_contra hlong
      match partialMessage, hlong with
      | b0 :: b1 :: b2 :: b3 :: rest, _ => exact hshort b0 b1 b2 b3 rest rfl
      | [], h | [_], h | [_, _], h | [_, _, _], h => simp at h
    simp [hlength]

theorem framedTurn_none {held : Bytes} :
    framedTurn held = none ↔
      held.length < 4 ∨ held.length < (4 + statedLength held) % 2 ^ 32 := by
  simp only [framedTurn_eq, ite_eq_left_iff, reduceCtorEq, imp_false, not_not]

theorem framedTurn_some {held rest : Bytes} {handedOn : List Bytes} :
    framedTurn held = some (handedOn, rest) ↔
      4 ≤ held.length ∧ (4 + statedLength held) % 2 ^ 32 ≤ held.length ∧
        handedOn = [(held.drop 4).take (statedLength held)] ∧
        rest = held.drop ((4 + statedLength held) % 2 ^ 32) := by
  simp only [framedTurn_eq]
  split_ifs with hwait
  · simp only [false_iff]
    omega
  · simp only [Option.some.injEq, Prod.mk.injEq]
    constructor
    · rintro ⟨rfl, rfl⟩
      exact ⟨by omega, by omega, rfl, rfl⟩
    · rintro ⟨_, _, rfl, rfl⟩
      exact ⟨rfl, rfl⟩

/-! ### Reading every input -/

/-- What reading frames is for: the loop ends, every turn it takes removes something, and it hands on
the stated number of bytes behind the prefix. -/
structure ReadsFrames (partialMessage buffer : Bytes) : Prop where
  ends : ∃ fuel result, parseMessages true fuel partialMessage buffer = some result
  consumes : ∀ held handedOn rest, Draining.Reaches (turn true) (partialMessage ++ buffer) held →
    turn true held = some (handedOn, rest) → rest.length < held.length
  exact : ∀ held handedOn rest, Draining.Reaches (turn true) (partialMessage ++ buffer) held →
    turn true held = some (handedOn, rest) →
    ∃ message, handedOn = [message] ∧ message.length = statedLength held ∧ message <+: held.drop 4

/-- The bytes, cut at the lengths they state, state none that does not fit. A prefix of
`0xFFFFFFFD` or more is harmless only where the whole frame is there, and then the reader
still stays inside it. -/
inductive LengthsFit : Bytes → Prop
  | short {held : Bytes} : held.length < 4 → LengthsFit held
  | waiting {held : Bytes} : 4 + statedLength held < 2 ^ 32 →
      held.length < 4 + statedLength held → LengthsFit held
  | frame {held : Bytes} : 4 + statedLength held < 2 ^ 32 → 4 + statedLength held ≤ held.length →
      LengthsFit (held.drop (4 + statedLength held)) → LengthsFit held
  | wrapped {held : Bytes} : 2 ^ 32 < 4 + statedLength held → 4 + statedLength held ≤ held.length →
      LengthsFit (held.drop (4 + statedLength held - 2 ^ 32)) → LengthsFit held

theorem length_message {held : Bytes} (hlength : 4 + statedLength held ≤ held.length) :
    ((held.drop 4).take (statedLength held)).length = statedLength held := by
  rw [List.length_take, List.length_drop]
  omega

/-- The turn of a buffer that fits takes the stated frame, and what it leaves fits. -/
theorem LengthsFit.turn {held rest : Bytes} {handedOn : List Bytes} (hfit : LengthsFit held)
    (hturn : framedTurn held = some (handedOn, rest)) :
    4 + statedLength held ≤ held.length ∧ rest.length < held.length ∧ LengthsFit rest := by
  have hbound := statedLength_lt held
  obtain ⟨hfour, hwhole, _, rfl⟩ := framedTurn_some.mp hturn
  cases hfit with
  | short hshort => omega
  | waiting hfits hshort => omega
  | frame hfits hlength hrest =>
      rw [Nat.mod_eq_of_lt hfits]
      exact ⟨hlength, by rw [List.length_drop]; omega, hrest⟩
  | wrapped hwrap hlength hrest =>
      have hmod : (4 + statedLength held) % 2 ^ 32 = 4 + statedLength held - 2 ^ 32 := by omega
      rw [hmod]
      exact ⟨hlength, by rw [List.length_drop]; omega, hrest⟩

theorem LengthsFit.reaches {start held : Bytes} (hfit : LengthsFit start)
    (hreach : Draining.Reaches framedTurn start held) : LengthsFit held := by
  induction hreach with
  | refl => exact hfit
  | tail _ hturn ih =>
      obtain ⟨handedOn, hturn⟩ := hturn
      exact (ih.turn hturn).2.2

/-- A loop that ends, shrinks and hands on what is stated has read lengths that fit. -/
theorem lengthsFit_of_drain {fuel : Nat} {held : Bytes} {result : List Bytes × Bytes}
    (hends : Draining.drain framedTurn fuel held = some result)
    (hconsumes : ∀ s handedOn rest, Draining.Reaches framedTurn held s →
      framedTurn s = some (handedOn, rest) →
        rest.length < s.length ∧ 4 + statedLength s ≤ s.length) :
    LengthsFit held := by
  induction fuel generalizing held result with
  | zero => exact absurd hends (Option.some_ne_none _).symm
  | succ fuel ih =>
      have hbound := statedLength_lt held
      cases hturn : framedTurn held with
      | none =>
          rcases framedTurn_none.mp hturn with hshort | hshort
          · exact .short hshort
          · by_cases hfour : held.length < 4
            · exact .short hfour
            · have hfits : 4 + statedLength held < 2 ^ 32 := by omega
              exact .waiting hfits (by rwa [Nat.mod_eq_of_lt hfits] at hshort)
      | some next =>
          obtain ⟨handedOn, rest⟩ := next
          obtain ⟨hless, hlength⟩ :=
            hconsumes held handedOn rest Relation.ReflTransGen.refl hturn
          have hrest : LengthsFit rest := by
            rw [Draining.drain_of_turn hturn, Option.map_eq_some_iff] at hends
            obtain ⟨later, hlater, _⟩ := hends
            exact ih hlater fun s m r hreach => hconsumes s m r (hreach.head hturn)
          obtain ⟨_, _, _, rfl⟩ := framedTurn_some.mp hturn
          rw [List.length_drop] at hless
          by_cases hfits : 4 + statedLength held < 2 ^ 32
          · exact .frame hfits hlength (by rwa [Nat.mod_eq_of_lt hfits] at hrest)
          · have hmod : (4 + statedLength held) % 2 ^ 32 = 4 + statedLength held - 2 ^ 32 := by
              omega
            rw [hmod] at hrest hless
            exact .wrapped (by omega) hlength hrest

/-- **When framed reading works.** It ends, shrinks and hands on what is stated exactly when the lengths
stated by the bytes fit. -/
theorem readsFrames_iff (partialMessage buffer : Bytes) :
    ReadsFrames partialMessage buffer ↔ LengthsFit (partialMessage ++ buffer) := by
  constructor
  · rintro ⟨⟨fuel, result, hends⟩, hconsumes, hexact⟩
    refine lengthsFit_of_drain hends fun s handedOn rest hreach hturn => ?_
    refine ⟨hconsumes s handedOn rest hreach hturn, ?_⟩
    obtain ⟨message, hmessage, hlength, hstarts⟩ := hexact s handedOn rest hreach hturn
    have hfour := (framedTurn_some.mp hturn).1
    have hle := hstarts.length_le
    rw [List.length_drop] at hle
    omega
  · intro hfit
    have hconsumes : ∀ held handedOn rest,
        Draining.Reaches framedTurn (partialMessage ++ buffer) held →
        framedTurn held = some (handedOn, rest) → rest.length < held.length :=
      fun held handedOn rest hreach hturn => ((hfit.reaches hreach).turn hturn).2.1
    refine ⟨?_, hconsumes, fun held handedOn rest hreach hturn => ?_⟩
    · obtain ⟨result, hresult⟩ := Draining.drain_ends hconsumes
      exact ⟨_, result, hresult⟩
    · obtain ⟨_, _, rfl, _⟩ := framedTurn_some.mp hturn
      exact ⟨_, rfl, length_message ((hfit.reaches hreach).turn hturn).1, List.take_prefix _ _⟩

/-- The prefix `0xFFFFFFFC` is handed on as a message, and stays. -/
theorem readsFrames_wraps :
    ¬ ∀ partialMessage buffer, ReadsFrames partialMessage buffer := by
  intro h
  have hturn : turn true [0xFF, 0xFF, 0xFF, 0xFC] = some ([[]], [0xFF, 0xFF, 0xFF, 0xFC]) := by
    decide
  have hless := (h [] [0xFF, 0xFF, 0xFF, 0xFC]).consumes _ _ _ Relation.ReflTransGen.refl hturn
  exact absurd hless (by decide)

/-! ### Reading what was written -/

/-- The text of a JSON value, which is never empty. -/
structure SerializedMessage where
  text : Bytes
  nonempty : text ≠ []

/-- What a message has to meet: a length that can be stated, or no line feed. -/
def Fits (useFraming : Bool) (message : Bytes) : Prop :=
  if useFraming then message.length < 2 ^ 32 - 4 else kLF ∉ message

instance (useFraming : Bool) (message : Bytes) : Decidable (Fits useFraming message) :=
  inferInstanceAs (Decidable (if useFraming then message.length < 2 ^ 32 - 4 else kLF ∉ message))

theorem statedLength_append {held : Bytes} (hfour : 4 ≤ held.length) (rest : Bytes) :
    statedLength (held ++ rest) = statedLength held := by
  match held, hfour with
  | _ :: _ :: _ :: _ :: _, _ => rfl

theorem frameMessage_eq {message : Bytes} (hne : message ≠ []) :
    ∃ lengthBytes, frameMessage message = lengthBytes ++ message ∧ lengthBytes.length = 4 ∧
      (message.length < 2 ^ 32 → statedLength lengthBytes = message.length) := by
  have hlength : message.length ≠ 0 := fun h => hne (List.eq_nil_of_length_eq_zero h)
  refine ⟨_, by rw [frameMessage, if_neg hlength], rfl, fun hbound => ?_⟩
  simp only [statedLength, UInt8.toNat_ofNat', Nat.shiftRight_eq_div_pow]
  omega

theorem readsCode_framed {messages : List Bytes} (hne : ∀ message ∈ messages, message ≠ [])
    (hfits : ∀ message ∈ messages, Fits true message) :
    Draining.ReadsCode framedTurn frameMessage messages where
  whole message hmem rest := by
    have hlength : message.length < 2 ^ 32 - 4 := hfits message hmem
    obtain ⟨lengthBytes, hframe, hfour, hstated⟩ := frameMessage_eq (hne message hmem)
    have hvalue : statedLength (frameMessage message ++ rest) = message.length := by
      rw [hframe, List.append_assoc, statedLength_append hfour.ge, hstated (by omega)]
    have hmod : (4 + message.length) % 2 ^ 32 = (lengthBytes ++ message).length := by
      rw [List.length_append]
      omega
    refine framedTurn_some.mpr ?_
    rw [hvalue, hmod, hframe, ← hfour, List.append_assoc, List.drop_left, List.take_left,
      ← List.append_assoc, List.drop_left]
    refine ⟨?_, ?_, rfl, rfl⟩
    · rw [List.length_append]
      omega
    · simp only [List.length_append]
      omega
  inside message hmem held hstarts hproper := by
    have hlength : message.length < 2 ^ 32 - 4 := hfits message hmem
    obtain ⟨lengthBytes, hframe, hfour, hstated⟩ := frameMessage_eq (hne message hmem)
    refine framedTurn_none.mpr ?_
    by_cases hshort : held.length < 4
    · exact Or.inl hshort
    · have hvalue : statedLength held = message.length := by
        obtain ⟨rest, hrest⟩ := hstarts
        rw [← statedLength_append (not_lt.mp hshort) rest, hrest, hframe,
          statedLength_append hfour.ge, hstated (by omega)]
      have hless : held.length < (frameMessage message).length :=
        lt_of_le_of_ne hstarts.length_le fun heq => hproper (hstarts.eq_of_length heq)
      rw [hframe, List.length_append] at hless
      rw [hvalue]
      omega
  nonempty message hmem := by
    obtain ⟨lengthBytes, hframe, hfour, _⟩ := frameMessage_eq (hne message hmem)
    intro hnil
    rw [hframe, List.append_eq_nil_iff] at hnil
    exact hne message hmem hnil.2
  empty := rfl

theorem readsCode_lines {messages : List Bytes} (hne : ∀ message ∈ messages, message ≠ [])
    (hfits : ∀ message ∈ messages, Fits false message) :
    Draining.ReadsCode lineTurn (encode false) messages where
  whole message hmem rest := by
    have hline : kLF ∉ message := hfits message hmem
    have htake : (message ++ kLF :: rest).takeWhile (· ≠ kLF) = message := by
      have hkept : ∀ byte ∈ message, decide (byte ≠ kLF) = true := by
        intro byte hbyte
        exact decide_eq_true (ne_of_mem_of_not_mem hbyte hline)
      rw [List.takeWhile_append_of_pos hkept]
      simp
    have hempty : message.isEmpty = false := by simpa using hne message hmem
    have hencode : encode false message ++ rest = message ++ kLF :: rest := by
      simp [encode]
    rw [hencode, lineTurn, if_pos (by simp), htake]
    simp [hempty]
  inside message hmem held hstarts hproper := by
    have hline : kLF ∉ message := hfits message hmem
    have hheld : held <+: message := by
      rcases List.prefix_concat_iff.mp hstarts with heq | hfront
      · exact absurd heq hproper
      · exact hfront
    exact if_neg fun hmem => hline (hheld.subset hmem)
  nonempty message _ := by simp [encode]
  empty := rfl

/-- **Framing is undone by reading.** The encodings of some messages, cut into reads in any way, are read
as these messages in this order, and nothing is left over. -/
theorem readAll_encode (useFraming : Bool) (messages : List SerializedMessage)
    (hfits : ∀ message ∈ messages, Fits useFraming message.text) (reads : List Bytes)
    (hwire : reads.flatten = messages.flatMap fun message => encode useFraming message.text)
    (fuel : Nat) (hfuel : reads.flatten.length < fuel) :
    readAll useFraming fuel [] reads = some (messages.map SerializedMessage.text, []) := by
  have hne : ∀ text ∈ messages.map SerializedMessage.text, text ≠ [] := by
    intro text hmem
    obtain ⟨message, _, rfl⟩ := List.mem_map.mp hmem
    exact message.nonempty
  have htexts : ∀ text ∈ messages.map SerializedMessage.text, Fits useFraming text := by
    intro text hmem
    obtain ⟨message, hmessage, rfl⟩ := List.mem_map.mp hmem
    exact hfits message hmessage
  have hcode : Draining.ReadsCode (turn useFraming) (encode useFraming)
      (messages.map SerializedMessage.text) := by
    cases useFraming with
    | true => exact readsCode_framed hne htexts
    | false => exact readsCode_lines hne htexts
  exact Draining.readChunks_flatMap hcode (by rw [hwire, List.flatMap_map]) hfuel

/-- Two messages in three reads, one of them inside a prefix. -/
theorem readAll_encode_two :
    readAll true 16 [] [[0, 0], [0, 2, 123, 125, 0, 0, 0], [1, 48]] =
      some ([[123, 125], [48]], []) :=
  readAll_encode true [⟨[123, 125], by decide⟩, ⟨[48], by decide⟩] (by decide)
    [[0, 0], [0, 2, 123, 125, 0, 0, 0], [1, 48]] (by decide) 16 (by decide)

end JsonRpcProtocolFilter

end GopherMcp
