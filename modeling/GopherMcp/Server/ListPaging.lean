import GopherMcp.Core.Bytes
import GopherMcp.Lib.Bits
import GopherMcp.Lib.OrdMap
import GopherMcp.Lib.Spelling

/-!
# Pages of a list and the cursors between them

A cursor names the last item of the page it follows, in hexadecimal, and carries a tag over the list it
belongs to and that name. Reading one takes it apart from both ends: the list at the front has to be
the one asked for, and the tag is what follows the last dot.
-/

namespace GopherMcp

namespace Paging

def kCursorVersion : Bytes := ascii "c2"
def kTagBytes : Nat := 16
def kDot : UInt8 := 46

/-! ### Hexadecimal -/

def hexDigits : Bytes := ascii "0123456789abcdef"

def toHex : Bytes → Bytes
  | [] => []
  | byte :: rest =>
      hexDigits.getD (byte.toNat >>> 4) 0 :: hexDigits.getD (byte.toNat &&& 0x0f) 0 :: toHex rest

def nibble (c : UInt8) : Option (Fin 16) :=
  if 48 ≤ c ∧ c ≤ 57 then some (Spelling.halfByte (c.toNat - 48))
  else if 97 ≤ c ∧ c ≤ 102 then some (Spelling.halfByte (c.toNat - 97 + 10))
  else none

/-- The loop of `fromHex`, two digits a turn. -/
def readHex : Bytes → Option Bytes
  | c :: d :: rest => do
      let high ← nibble c
      let low ← nibble d
      let out ← readHex rest
      return UInt8.ofNat (high.val <<< 4 ||| low.val) :: out
  | _ => some []

def fromHex (hex : Bytes) : Option Bytes := if hex.length % 2 ≠ 0 then none else readHex hex

def hexLetter (digit : Fin 16) : UInt8 := hexDigits.getD digit.val 0

theorem nibble_letter : ∀ digit, nibble (hexLetter digit) = some digit := by
  decide

theorem toNat_hexLetter : ∀ digit : Fin 16,
    (hexLetter digit).toNat = if digit.val < 10 then digit.val + 48 else digit.val + 87 := by
  decide

theorem letter_of_nibble (c : UInt8) (digit : Fin 16) (h : nibble c = some digit) :
    c = hexLetter digit := by
  apply UInt8.toNat_inj.mp
  rw [toNat_hexLetter]
  simp only [nibble, UInt8.le_iff_toNat_le, UInt8.reduceToNat] at h
  split_ifs at h with hnumber hlower <;> cases h
  · simp only [Fin.val_ofNat]
    split_ifs <;> omega
  · simp only [Fin.val_ofNat]
    split_ifs <;> omega

def hexAlphabet : Alphabet 16 where
  letter := hexLetter
  value := nibble
  value_eq_some_iff c digit := ⟨letter_of_nibble c digit, fun h => h ▸ nibble_letter digit⟩

theorem toHex_eq (bytes : Bytes) : toHex bytes = hexAlphabet.spell (Spelling.nibblesOf bytes) := by
  induction bytes with
  | nil => rfl
  | cons byte rest ih =>
      have hbyte := byte.toNat_lt
      have hhigh : byte.toNat >>> 4 = byte.toNat / 16 % 16 := by
        rw [Nat.shiftRight_eq_div_pow]
        omega
      have hlow : byte.toNat &&& 0x0f = byte.toNat % 16 := Nat.and_two_pow_sub_one_eq_mod _ 4
      rw [toHex, ih, hhigh, hlow]
      rfl

theorem length_toHex (bytes : Bytes) : (toHex bytes).length = 2 * bytes.length := by
  rw [toHex_eq, Alphabet.length_spell, Spelling.length_nibblesOf]

theorem kDot_not_mem_toHex (bytes : Bytes) : kDot ∉ toHex bytes := by
  have hletters : ∀ digit, hexAlphabet.letter digit ≠ kDot := by
    decide
  rw [toHex_eq]
  intro h
  obtain ⟨digit, hdigit⟩ := hexAlphabet.exists_letter_of_mem_spell h
  exact hletters digit hdigit.symm

/-- Hexadecimal is read exactly when it is what would be written for the bytes. -/
theorem fromHex_eq_some_iff (hex bytes : Bytes) : fromHex hex = some bytes ↔ hex = toHex bytes := by
  have hread : hex.length % 2 = 0 → (readHex hex = some bytes ↔ hex = toHex bytes) := by
    induction hex using readHex.induct generalizing bytes with
    | case1 c d rest ih =>
        intro heven
        have hrest : rest.length % 2 = 0 := by
          simp only [List.length_cons] at heven
          omega
        simp only [readHex, Option.bind_eq_bind, Option.bind_eq_some_iff, Option.pure_def,
          ih _ hrest]
        constructor
        · rintro ⟨high, hhigh, low, hlow, out, rfl, hout⟩
          cases hout
          have hoctet : UInt8.ofNat (high.val <<< 4 ||| low.val) = Spelling.octetOf high low := by
            rw [Spelling.octetOf, Bits.shiftLeft_or low.isLt]
            rfl
          rw [hoctet, toHex_eq (_ :: _), Spelling.nibblesOf_octetOf_cons,
            letter_of_nibble c high hhigh, letter_of_nibble d low hlow, toHex_eq]
          rfl
        · intro htext
          cases bytes with
          | nil => cases htext
          | cons byte out =>
              rw [toHex_eq] at htext
              obtain ⟨hfirst, htext⟩ := List.cons.inj htext
              obtain ⟨hsecond, htail⟩ := List.cons.inj htext
              subst hfirst hsecond htail
              refine ⟨_, nibble_letter _, _, nibble_letter _, out, (toHex_eq out).symm, ?_⟩
              rw [Bits.shiftLeft_or (Fin.isLt _)]
              exact congrArg (fun first => some (first :: out)) (Spelling.octetOf_nibbles byte)
    | case2 text hshort =>
        intro heven
        obtain rfl : text = [] := by
          obtain _ | ⟨c, _ | ⟨d, rest⟩⟩ := text
          · rfl
          · cases heven
          · exact (hshort c d rest rfl).elim
        cases bytes with
        | nil => simp [readHex, toHex]
        | cons => simp [readHex, toHex]
  rw [fromHex]
  split_ifs with hodd
  · constructor
    · intro h
      cases h
    · intro h
      rw [h, length_toHex] at hodd
      omega
  · exact hread (not_not.mp hodd)

/-! ### Positions in a string -/

/-- An index that leaves the string, or a difference of sizes that wraps around. -/
inductive Fault where
  | outOfRange
  deriving DecidableEq

def difference (a b : Nat) : Except Fault Nat := if a < b then .error .outOfRange else .ok (a - b)

/-- `substr`, which throws for a position behind the end; the count may go beyond it. -/
def substr (text : Bytes) (pos count : Nat) : Except Fault Bytes :=
  if text.length < pos then .error .outOfRange else .ok ((text.drop pos).take count)

/-- The bytes that `CRYPTO_memcmp` looks at. -/
def firstBytes (text : Bytes) (count : Nat) : Except Fault Bytes :=
  if text.length < count then .error .outOfRange else .ok (text.take count)

/-- The last place of `c`; none is `npos`. -/
def rfind (text : Bytes) (c : UInt8) : Option Nat :=
  (text.reverse.findIdx? fun other => other = c).map fun fromEnd => text.length - 1 - fromEnd

theorem rfind_last (before after : Bytes) {c : UInt8} (h : c ∉ after) :
    rfind (before ++ c :: after) c = some before.length := by
  have hafter : ∀ other ∈ after.reverse, decide (other = c) = false := by
    intro other hother
    exact decide_eq_false fun heq => h (heq ▸ List.mem_reverse.mp hother)
  have hfind : (before ++ c :: after).reverse.findIdx? (fun other => other = c) =
      some after.length := by
    rw [List.reverse_append, List.reverse_cons, List.append_assoc, List.findIdx?_append,
      List.findIdx?_eq_none_iff.mpr (by simpa using hafter)]
    simp [List.findIdx?_cons]
  rw [rfind, hfind, Option.map_some, List.length_append, List.length_cons]
  congr 1
  omega

/-- A text with a dot in it, cut at the last one. -/
theorem exists_last {text : Bytes} {c : UInt8} (h : c ∈ text) :
    ∃ before after, text = before ++ c :: after ∧ c ∉ after := by
  obtain ⟨after, before, htext, hnot⟩ := List.eq_append_cons_of_mem (List.mem_reverse.mpr h)
  refine ⟨before.reverse, after.reverse, ?_, fun hin => hnot (List.mem_reverse.mp hin)⟩
  rw [← List.reverse_reverse text, htext, List.reverse_append, List.reverse_cons,
    List.append_assoc]
  rfl

end Paging

/-! ### Cursors -/

/-- The MAC under the key a signer made for itself. -/
structure CursorSigner where
  hmac : Bytes → Digest

namespace CursorSigner

open Paging

def tagOf (signer : CursorSigner) (body : Bytes) : Bytes :=
  toHex ((signer.hmac body).val.take kTagBytes)

def make (signer : CursorSigner) (list lastKey : Bytes) : Bytes :=
  let body := kCursorVersion ++ [kDot] ++ list ++ [kDot] ++ toHex lastKey
  body ++ [kDot] ++ signer.tagOf body

/-- How every cursor of a list starts. -/
def frontOf (list : Bytes) : Bytes := kCursorVersion ++ [kDot] ++ list ++ [kDot]

/-- The key a cursor names, if this signer issued it for this list. -/
def read (signer : CursorSigner) (cursor list : Bytes) : Except Fault (Option Bytes) := do
  let front := frontOf list
  if cursor.length < front.length + 1 + kTagBytes * 2 ∨ cursor.take front.length ≠ front then
    return none
  match rfind cursor kDot with
  | none => return none
  | some dot =>
      if dot < (← difference front.length 1) then return none
      if (← difference (← difference cursor.length dot) 1) ≠ kTagBytes * 2 then return none
      let body ← substr cursor 0 dot
      let tag ← substr cursor (dot + 1) cursor.length
      let expected := signer.tagOf body
      if (← firstBytes tag expected.length) ≠ expected then return none
      return fromHex (← substr cursor front.length (← difference dot front.length))

/-! ### What is read was made -/

theorem length_tagOf (signer : CursorSigner) (body : Bytes) :
    (signer.tagOf body).length = kTagBytes * 2 := by
  have hmac := (signer.hmac body).2
  rw [tagOf, length_toHex, List.length_take, hmac]
  rfl

theorem kDot_not_mem_tagOf (signer : CursorSigner) (body : Bytes) : kDot ∉ signer.tagOf body :=
  kDot_not_mem_toHex _

theorem make_eq (signer : CursorSigner) (list lastKey : Bytes) :
    signer.make list lastKey = frontOf list ++ toHex lastKey ++
      kDot :: signer.tagOf (frontOf list ++ toHex lastKey) :=
  List.append_assoc _ _ _

theorem difference_of_le {a b : Nat} (h : b ≤ a) : difference a b = .ok (a - b) :=
  if_neg (Nat.not_lt.mpr h)

theorem substr_of_le {text : Bytes} {pos : Nat} (h : pos ≤ text.length) (count : Nat) :
    substr text pos count = .ok ((text.drop pos).take count) :=
  if_neg (Nat.not_lt.mpr h)

theorem firstBytes_of_length {text : Bytes} {count : Nat} (h : text.length = count) :
    firstBytes text count = .ok text := by
  rw [firstBytes, if_neg (by omega), List.take_of_length_le (by omega)]

theorem ok_bind {α β : Type} (a : α) (f : α → Except Fault β) : (Except.ok a >>= f) = f a := rfl

theorem one_le_length_frontOf (list : Bytes) : 1 ≤ (frontOf list).length := by
  rw [frontOf, List.length_append]
  exact Nat.le_add_left _ _

/-- A cursor whose last dot stands before `tag`, behind the front of its list. -/
theorem read_split (signer : CursorSigner) (list named : Bytes) {tag : Bytes} (hdot : kDot ∉ tag)
    (htag : tag.length = kTagBytes * 2) :
    signer.read (frontOf list ++ named ++ kDot :: tag) list =
      .ok (if tag = signer.tagOf (frontOf list ++ named) then fromHex named else none) := by
  obtain ⟨cursor, hcursor⟩ : ∃ cursor, cursor = frontOf list ++ named ++ kDot :: tag := ⟨_, rfl⟩
  obtain ⟨dot, hplace⟩ : ∃ dot, dot = (frontOf list ++ named).length := ⟨_, rfl⟩
  have hpos := one_le_length_frontOf list
  have hdotLength : dot = (frontOf list).length + named.length := by
    rw [hplace, List.length_append]
  have hlength : cursor.length = dot + (1 + kTagBytes * 2) := by
    rw [hcursor, List.length_append, List.length_cons, htag, ← hplace]
    omega
  have hrfind : rfind cursor kDot = some dot := by
    rw [hcursor, hplace, rfind_last _ _ hdot]
  have hfront : cursor.take (frontOf list).length = frontOf list := by
    rw [hcursor, List.append_assoc, List.take_left]
  have hafter : difference cursor.length dot = .ok (1 + kTagBytes * 2) := by
    rw [difference_of_le (by omega), hlength, Nat.add_sub_cancel_left]
  have hbody : substr cursor 0 dot = .ok (frontOf list ++ named) := by
    rw [substr_of_le (Nat.zero_le _), List.drop_zero, hcursor, hplace, List.take_left]
  have htail : substr cursor (dot + 1) cursor.length = .ok tag := by
    have hdrop : cursor.drop (dot + 1) = tag := by
      rw [← List.drop_drop, hplace, hcursor, List.drop_left]
      rfl
    rw [substr_of_le (by omega), hdrop, List.take_of_length_le (by omega)]
  have hnamed : substr cursor (frontOf list).length named.length = .ok named := by
    rw [substr_of_le (by omega), hcursor, List.append_assoc, List.drop_left, List.take_left]
  rw [← hcursor, read, if_neg (by rw [hfront]; simp only [ne_eq, not_true, or_false]; omega), hrfind]
  simp only [difference_of_le hpos, hafter, hbody, htail, ok_bind]
  rw [if_neg (by omega), difference_of_le (by omega), ok_bind, if_neg (by omega),
    firstBytes_of_length (by rw [htag, length_tagOf]), ok_bind, difference_of_le (by omega), ok_bind,
    hdotLength, Nat.add_sub_cancel_left, hnamed, ok_bind]
  by_cases hright : tag = signer.tagOf (frontOf list ++ named)
  · rw [if_neg (not_not.mpr hright), if_pos hright]
    rfl
  · rw [if_pos hright, if_neg hright]
    rfl

/-- Any other cursor is refused. -/
theorem read_cases (signer : CursorSigner) (cursor list : Bytes) :
    signer.read cursor list = .ok none ∨
      ∃ named tag, kDot ∉ tag ∧ tag.length = kTagBytes * 2 ∧
        cursor = frontOf list ++ named ++ kDot :: tag := by
  rw [read]
  by_cases hstart : cursor.length < (frontOf list).length + 1 + kTagBytes * 2 ∨
      cursor.take (frontOf list).length ≠ frontOf list
  · rw [if_pos hstart]
    exact Or.inl rfl
  rw [if_neg hstart]
  rw [not_or, ne_eq, not_not] at hstart
  obtain ⟨hlong, hfront⟩ := hstart
  have hhas : kDot ∈ cursor := by
    apply List.mem_of_mem_take
    rw [hfront, frontOf]
    exact List.mem_append_right _ (List.mem_singleton_self _)
  obtain ⟨before, after, rfl, hdot⟩ := exists_last hhas
  have hpos := one_le_length_frontOf list
  have hlength : (before ++ kDot :: after).length = before.length + (1 + after.length) := by
    rw [List.length_append, List.length_cons]
    omega
  rw [rfind_last _ _ hdot]
  simp only [difference_of_le hpos, ok_bind]
  by_cases hearly : before.length < (frontOf list).length - 1
  · rw [if_pos hearly]
    exact Or.inl rfl
  rw [if_neg hearly, difference_of_le (by omega), ok_bind, difference_of_le (by omega), ok_bind]
  by_cases htag : (before ++ kDot :: after).length - before.length - 1 ≠ kTagBytes * 2
  · rw [if_pos htag]
    exact Or.inl rfl
  right
  rw [ne_eq, not_not] at htag
  refine ⟨before.drop (frontOf list).length, after, hdot, by omega, ?_⟩
  rw [List.take_append_of_le_length (by omega)] at hfront
  rw [← hfront, List.length_take, Nat.min_eq_left (by omega), List.take_append_drop]

theorem read_make (signer : CursorSigner) (list lastKey : Bytes) :
    signer.read (signer.make list lastKey) list = .ok (some lastKey) := by
  rw [make_eq, read_split signer list _ (signer.kDot_not_mem_tagOf _) (signer.length_tagOf _),
    if_pos rfl, (fromHex_eq_some_iff _ _).mpr rfl]

/-- A cursor is read as naming a key exactly when it is the cursor made for the list and that key, and
no place that is computed on the way lies outside of it. -/
theorem read_exact (signer : CursorSigner) (cursor list : Bytes) :
    (∀ lastKey, signer.read cursor list = .ok (some lastKey) ↔ cursor = signer.make list lastKey) ∧
      ∀ fault, signer.read cursor list ≠ .error fault := by
  obtain hrefused | ⟨named, tag, hdot, htag, rfl⟩ := signer.read_cases cursor list
  · rw [hrefused]
    refine ⟨fun lastKey => ⟨fun h => (by cases h), fun h => ?_⟩, fun fault h => (by cases h)⟩
    rw [h, read_make] at hrefused
    cases hrefused
  · have hread := read_split signer list named hdot htag
    refine ⟨fun lastKey => ⟨fun h => ?_, fun h => h ▸ signer.read_make list lastKey⟩,
      fun fault h => ?_⟩
    · rw [hread] at h
      by_cases hright : tag = signer.tagOf (frontOf list ++ named)
      · rw [if_pos hright, Except.ok.injEq, fromHex_eq_some_iff] at h
        rw [make_eq, ← h, ← hright]
      · rw [if_neg hright] at h
        cases h
    · rw [hread] at h
      cases h

end CursorSigner

namespace Paging

/-! ### Pages -/

variable {ν : Type}

structure Page (ν : Type) where
  items : List ν
  nextCursor : Option Bytes

/-- Why there is no page: a cursor this signer did not issue for this list, or a fault in reading it. -/
inductive PageError where
  | invalidCursor
  | fault (fault : Fault)
  deriving DecidableEq

/-- `upper_bound`: the entries behind a key, up to the end. -/
def upperBound (items : OrdMap Bytes ν) (lastKey : Bytes) : List (Bytes × ν) :=
  items.entries.dropWhile fun entry => entry.1 ≤ lastKey

/-- Where the page begins. -/
def startOf (items : OrdMap Bytes ν) (signer : CursorSigner) (list : Bytes) :
    Option Bytes → Except PageError (List (Bytes × ν))
  | none => .ok items.entries
  | some cursor =>
      match signer.read cursor list with
      | .error fault => .error (.fault fault)
      | .ok none => .error .invalidCursor
      | .ok (some lastKey) => .ok (upperBound items lastKey)

/-- The loop that fills the page: what is on it, and the entries from `it` on. -/
def fillPage (pageSize : Nat) (page : List (Bytes × ν)) :
    List (Bytes × ν) → List (Bytes × ν) × List (Bytes × ν)
  | [] => (page, [])
  | entry :: rest =>
      if pageSize ≠ 0 ∧ page.length = pageSize then (page, entry :: rest)
      else fillPage pageSize (page ++ [entry]) rest

/-- One page of a sorted map. The entry before `it`, where there is one on the page, is the last of
the page. -/
def pageOf (items : OrdMap Bytes ν) (signer : CursorSigner) (list : Bytes) (cursor : Option Bytes)
    (pageSize : Nat) : Except PageError (Page ν) := do
  let start ← startOf items signer list cursor
  let (page, rest) := fillPage pageSize [] start
  let nextCursor :=
    if rest ≠ [] then page.getLast?.map fun last => signer.make list last.1 else none
  return { items := page.map Prod.snd, nextCursor }

end Paging

end GopherMcp
