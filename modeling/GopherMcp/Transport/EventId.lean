import GopherMcp.Core.Bytes

/-!
# Event ids

A stream numbers its events from one. Where a client may come back for them, the number goes out
behind the name of the stream, with a colon between the two; the last colon of an id then tells the
stream from the number, whatever the name of the stream looks like.
-/

namespace GopherMcp

/-- `std::to_string` of an unsigned integer. -/
def toDecimal (n : Nat) : Bytes := (Nat.toDigits 10 n).map Char.toUInt8

/-- `std::to_string` of a signed integer. -/
def toDecimalSigned (n : Int64) : Bytes :=
  if n.toInt < 0 then ascii "-" ++ toDecimal n.toInt.natAbs else toDecimal n.toInt.natAbs

/-- The id of the event a stream numbers `sequence`. A stream without a name gives the bare number. -/
def mintedId (streamId : Bytes) (sequence : Nat) : Bytes :=
  if streamId = [] then toDecimal sequence else streamId ++ kColon :: toDecimal sequence

/-- The stream an id names: what stands before its last colon, unless that is nothing. -/
def streamOfEventId (id : Bytes) : Option Bytes :=
  match id.reverse.dropWhile (· ≠ kColon) with
  | [] => none
  | _ :: before => if before = [] then none else some before.reverse

/-- What stands after the last colon of an id. -/
def numberOfEventId (id : Bytes) : Bytes := (id.reverse.takeWhile (· ≠ kColon)).reverse

/-! ### Digits -/

theorem toUInt8_toNat_of_isDigit {c : Char} (h : c.isDigit = true) : c.toUInt8.toNat = c.toNat := by
  have hle : c.toNat ≤ 57 := (Char.isDigit_iff_toNat.mp h).2
  have hmod : c.toUInt8.toNat = c.toNat % 2 ^ 8 := rfl
  rw [hmod]
  omega

theorem isDigit_of_mem_toDigits {n : Nat} {c : Char} (h : c ∈ Nat.toDigits 10 n) :
    c.isDigit = true :=
  Nat.isDigit_of_mem_toDigits (by omega) (by omega) h

theorem map_toUInt8_injective {left right : List Char} (hleft : ∀ c ∈ left, c.isDigit = true)
    (hright : ∀ c ∈ right, c.isDigit = true)
    (h : left.map Char.toUInt8 = right.map Char.toUInt8) : left = right := by
  induction left generalizing right with
  | nil => simpa using h
  | cons c rest ih =>
      cases right with
      | nil => simp at h
      | cons d others =>
          obtain ⟨hhead, htail⟩ := List.cons.inj h
          have hnat : c.toNat = d.toNat := by
            rw [← toUInt8_toNat_of_isDigit (hleft c List.mem_cons_self), hhead,
              toUInt8_toNat_of_isDigit (hright d List.mem_cons_self)]
          have hc : c = d := Char.toNat_inj.mp hnat
          have hrest := ih (fun e he => hleft e (List.mem_cons_of_mem _ he))
            (fun e he => hright e (List.mem_cons_of_mem _ he)) htail
          rw [hc, hrest]

theorem toDecimal_injective : Function.Injective toDecimal := by
  intro m n h
  have hdigits := map_toUInt8_injective (fun _ => isDigit_of_mem_toDigits)
    (fun _ => isDigit_of_mem_toDigits) h
  rw [← Nat.ofDigitChars_ten_toDigits (n := m), hdigits, Nat.ofDigitChars_ten_toDigits]

theorem toNat_of_mem_toDecimal {n : Nat} {b : UInt8} (h : b ∈ toDecimal n) :
    48 ≤ b.toNat ∧ b.toNat ≤ 57 := by
  obtain ⟨c, hc, rfl⟩ := List.mem_map.mp h
  have hdigit := isDigit_of_mem_toDigits hc
  rw [toUInt8_toNat_of_isDigit hdigit]
  exact Char.isDigit_iff_toNat.mp hdigit

theorem ne_kColon_of_mem_toDecimal {n : Nat} {b : UInt8} (h : b ∈ toDecimal n) : b ≠ kColon := by
  have hle := (toNat_of_mem_toDecimal h).2
  have hcolon : kColon.toNat = 58 := rfl
  intro heq
  rw [heq] at hle
  omega

theorem toDecimalSigned_injective : Function.Injective toDecimalSigned := by
  have hminus (m n : Nat) : ascii "-" ++ toDecimal m ≠ toDecimal n := by
    intro h
    have hmem : (45 : UInt8) ∈ toDecimal n := by
      rw [← h]
      exact List.mem_cons_self
    have hle : 48 ≤ (45 : UInt8).toNat := (toNat_of_mem_toDecimal hmem).1
    exact absurd hle (by decide)
  intro m n h
  rw [toDecimalSigned, toDecimalSigned] at h
  apply Int64.toInt_inj.mp
  split_ifs at h with hm hn hn
  · have habs := toDecimal_injective (List.append_cancel_left h)
    omega
  · exact absurd h (hminus _ _)
  · exact absurd h.symm (hminus _ _)
  · have habs := toDecimal_injective h
    omega

/-! ### Taking ids apart -/

theorem takeWhile_toDecimal (n : Nat) (rest : Bytes) :
    ((toDecimal n).reverse ++ kColon :: rest).takeWhile (· ≠ kColon) = (toDecimal n).reverse := by
  rw [List.takeWhile_append_of_pos (by
    intro b hb
    simpa using ne_kColon_of_mem_toDecimal (List.mem_reverse.mp hb))]
  simp

theorem numberOfEventId_mintedId (streamId : Bytes) (sequence : Nat) :
    numberOfEventId (mintedId streamId sequence) = toDecimal sequence := by
  unfold numberOfEventId mintedId
  split_ifs with hname
  · rw [List.takeWhile_eq_self_iff.mpr, List.reverse_reverse]
    intro b hb
    simpa using ne_kColon_of_mem_toDecimal (List.mem_reverse.mp hb)
  · rw [List.reverse_append, List.reverse_cons, List.append_assoc, List.singleton_append,
      takeWhile_toDecimal, List.reverse_reverse]

/-- Two ids that are the same carry the same number, whatever the streams are called. -/
theorem sequence_eq_of_mintedId_eq {streamId streamId' : Bytes} {sequence sequence' : Nat}
    (h : mintedId streamId sequence = mintedId streamId' sequence') : sequence = sequence' := by
  apply toDecimal_injective
  rw [← numberOfEventId_mintedId streamId sequence, h, numberOfEventId_mintedId]

theorem streamOfEventId_mintedId {streamId : Bytes} (hname : streamId ≠ []) (sequence : Nat) :
    streamOfEventId (mintedId streamId sequence) = some streamId := by
  unfold streamOfEventId mintedId
  rw [if_neg hname, List.reverse_append, List.reverse_cons, List.append_assoc,
    List.singleton_append, List.dropWhile_append_of_pos (by
      intro b hb
      simpa using ne_kColon_of_mem_toDecimal (List.mem_reverse.mp hb))]
  simp [hname]

end GopherMcp
