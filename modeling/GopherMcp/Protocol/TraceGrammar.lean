import GopherMcp.Lib.Delimited
import GopherMcp.Protocol.TraceFormats
import Mathlib.Data.List.ReduceOption

/-!
# The grammars of trace context

Each format as its grammar has it: which words there are and how they stand together. A value is checked to be
in its format just if it can be put together this way.
-/

namespace GopherMcp

namespace Trace

open Delimited

/-! ### Alphabets -/

def digits : Bytes := ascii "0123456789"
def lowerLetters : Bytes := ascii "abcdefghijklmnopqrstuvwxyz"
def upperLetters : Bytes := ascii "ABCDEFGHIJKLMNOPQRSTUVWXYZ"
def lowerHexDigits : Bytes := digits ++ ascii "abcdef"
def hexDigits : Bytes := lowerHexDigits ++ ascii "ABCDEF"
def keyLetters : Bytes := lowerLetters ++ digits ++ ascii "_-*/"
def tokenLetters : Bytes := lowerLetters ++ upperLetters ++ digits ++ ascii "!#$%&'*+-.^_`|~"

theorem mem_digits_iff (c : UInt8) : c ∈ digits ↔ 48 ≤ c.toNat ∧ c.toNat ≤ 57 := by
  simp [digits, ascii, ← UInt8.toNat_inj, Char.toUInt8]
  omega

theorem mem_lowerLetters_iff (c : UInt8) : c ∈ lowerLetters ↔ 97 ≤ c.toNat ∧ c.toNat ≤ 122 := by
  simp [lowerLetters, ascii, ← UInt8.toNat_inj, Char.toUInt8]
  omega

theorem mem_upperLetters_iff (c : UInt8) : c ∈ upperLetters ↔ 65 ≤ c.toNat ∧ c.toNat ≤ 90 := by
  simp [upperLetters, ascii, ← UInt8.toNat_inj, Char.toUInt8]
  omega

/-- A range of bytes, as it is tested. -/
theorem range_iff (low high c : UInt8) :
    (decide (low ≤ c) && decide (c ≤ high)) = true ↔ low.toNat ≤ c.toNat ∧ c.toNat ≤ high.toNat := by
  rw [Bool.and_eq_true, decide_eq_true_eq, decide_eq_true_eq, UInt8.le_iff_toNat_le, UInt8.le_iff_toNat_le]

theorem isDigit_iff (c : UInt8) : isDigit c = true ↔ c ∈ digits := by
  rw [isDigit, range_iff, mem_digits_iff]
  rfl

theorem isLowerAlpha_iff (c : UInt8) : isLowerAlpha c = true ↔ c ∈ lowerLetters := by
  rw [isLowerAlpha, range_iff, mem_lowerLetters_iff]
  rfl

theorem isLowerHex_iff (c : UInt8) : isLowerHex c = true ↔ c ∈ lowerHexDigits := by
  have hletters : c ∈ ascii "abcdef" ↔ 97 ≤ c.toNat ∧ c.toNat ≤ 102 := by
    simp [ascii, ← UInt8.toNat_inj, Char.toUInt8]
    omega
  rw [isLowerHex, Bool.or_eq_true, isDigit_iff, range_iff, lowerHexDigits, List.mem_append, hletters]
  rfl

theorem isHex_iff (c : UInt8) : isHex c = true ↔ c ∈ hexDigits := by
  have hletters : c ∈ ascii "ABCDEF" ↔ 65 ≤ c.toNat ∧ c.toNat ≤ 70 := by
    simp [ascii, ← UInt8.toNat_inj, Char.toUInt8]
    omega
  rw [isHex, Bool.or_eq_true, isLowerHex_iff, range_iff, hexDigits, List.mem_append, hletters]
  rfl

theorem isKeyChar_iff (c : UInt8) : isKeyChar c = true ↔ c ∈ keyLetters := by
  rw [isKeyChar, Bool.or_eq_true, Bool.or_eq_true, isLowerAlpha_iff, isDigit_iff, List.contains_iff_mem, keyLetters,
    List.mem_append, List.mem_append]

theorem isTokenChar_iff (c : UInt8) : isTokenChar c = true ↔ c ∈ tokenLetters := by
  rw [isTokenChar, Bool.or_eq_true, Bool.or_eq_true, Bool.or_eq_true, isLowerAlpha_iff, range_iff, isDigit_iff,
    List.contains_iff_mem, tokenLetters, List.mem_append, List.mem_append, List.mem_append, mem_upperLetters_iff]
  rfl

/-! ### traceparent -/

def dash : UInt8 := '-'.toUInt8

def LowerHex (count : Nat) (word : Bytes) : Prop := word.length = count ∧ ∀ c ∈ word, c ∈ lowerHexDigits

def zeros (count : Nat) : Bytes := List.replicate count '0'.toUInt8

/-- version "-" trace-id "-" parent-id "-" flags, and from later versions what may follow after another "-". -/
def TraceParent (value : Bytes) : Prop :=
  ∃ version traceId parentId flags further : Bytes,
    value = version ++ dash :: (traceId ++ dash :: (parentId ++ dash :: (flags ++ further))) ∧
      LowerHex 2 version ∧ version ≠ ascii "ff" ∧ LowerHex 32 traceId ∧ traceId ≠ zeros 32 ∧
      LowerHex 16 parentId ∧ parentId ≠ zeros 16 ∧ LowerHex 2 flags ∧
      (further = [] ∨ version ≠ ascii "00" ∧ ∃ fields, further = dash :: fields)

/-- A field that ends at a dash. -/
theorem field_of_drop_eq {value field rest : Bytes} {index count : Nat}
    (hdrop : value.drop index = field ++ dash :: rest) (hlength : field.length = count) :
    value[index + count]? = some dash ∧ substr value index count = field ∧ value.drop (index + count + 1) = rest := by
  refine ⟨?_, ?_, ?_⟩
  · rw [← List.getElem?_drop, hdrop, ← hlength, List.getElem?_append_right (Nat.le_refl _), Nat.sub_self]
    rfl
  · rw [substr, hdrop, ← hlength, List.take_left]
  · rw [Nat.add_assoc, ← List.drop_drop, hdrop, ← hlength, ← List.drop_drop, List.drop_left]
    rfl

theorem drop_eq_of_dash {value : Bytes} {index count : Nat} (h : value[index + count]? = some dash) :
    value.drop index = substr value index count ++ dash :: value.drop (index + count + 1) := by
  obtain ⟨hlt, hletter⟩ := List.getElem?_eq_some_iff.mp h
  rw [substr, ← hletter, ← List.drop_eq_getElem_cons hlt, ← List.drop_drop, List.take_append_drop]

theorem length_substr {value : Bytes} {start count : Nat} (h : start + count ≤ value.length) :
    (substr value start count).length = count := by
  rw [substr, List.length_take, List.length_drop]
  omega

theorem lowerHex_iff {word : Bytes} {count : Nat} :
    LowerHex count word ↔ word.length = count ∧ word.all isLowerHex = true := by
  rw [LowerHex, List.all_eq_true]
  simp only [isLowerHex_iff]

theorem eq_zeros_iff {word : Bytes} {count : Nat} (h : word.length = count) :
    word = zeros count ↔ (word.all fun c => decide (c = '0'.toUInt8)) = true := by
  rw [zeros, List.eq_replicate_iff, List.all_eq_true]
  simp only [decide_eq_true_eq]
  exact and_iff_right h

theorem passes_iff {p : Prop} [Decidable p] {b : Bool} : (if p then false else b) = true ↔ ¬p ∧ b = true := by
  by_cases hp : p <;> simp [hp]

/-- What is checked of a traceparent. -/
theorem isValidTraceParent_eq_true_iff (value : Bytes) :
    isValidTraceParent value = true ↔
      (55 ≤ value.length ∧ value[2]? = some dash ∧ value[35]? = some dash ∧ value[52]? = some dash) ∧
        ((substr value 0 2).all isLowerHex ∧ (substr value 3 32).all isLowerHex ∧
          (substr value 36 16).all isLowerHex ∧ (substr value 53 2).all isLowerHex) ∧
        substr value 0 2 ≠ ascii "ff" ∧
        (if substr value 0 2 = ascii "00" then value.length = 55 else 55 < value.length → value[55]? = some dash) ∧
        (substr value 3 32).all (fun c => decide (c = '0'.toUInt8)) = false ∧
        (substr value 36 16).all (fun c => decide (c = '0'.toUInt8)) = false := by
  rw [isValidTraceParent, dash]
  dsimp only
  rw [passes_iff, passes_iff, passes_iff, passes_iff]
  refine and_congr ?_ (and_congr ?_ (and_congr Iff.rfl (and_congr ?_ ?_)))
  · simp [and_assoc]
  · simp [and_assoc]
  · split_ifs <;> simp
  · simp

/-- **A traceparent is accepted just if it is one.** -/
theorem isValidTraceParent_iff (value : Bytes) : isValidTraceParent value = true ↔ TraceParent value := by
  rw [isValidTraceParent_eq_true_iff]
  constructor
  · rintro ⟨⟨hlength, h2, h35, h52⟩, ⟨hversion, htrace, hparent, hflags⟩, hff, hend, htraceZero, hparentZero⟩
    have htraceLength : (substr value 3 32).length = 32 := length_substr (by omega)
    have hparentLength : (substr value 36 16).length = 16 := length_substr (by omega)
    refine ⟨substr value 0 2, substr value 3 32, substr value 36 16, substr value 53 2, value.drop 55, ?_,
      lowerHex_iff.mpr ⟨length_substr (by omega), hversion⟩, hff, lowerHex_iff.mpr ⟨htraceLength, htrace⟩, ?_,
      lowerHex_iff.mpr ⟨hparentLength, hparent⟩, ?_, lowerHex_iff.mpr ⟨length_substr (by omega), hflags⟩, ?_⟩
    · have hflagsDrop : substr value 53 2 ++ value.drop 55 = value.drop 53 := by
        rw [substr, show 55 = 53 + 2 from rfl, ← List.drop_drop, List.take_append_drop]
      have hparentDrop : value.drop 36 = substr value 36 16 ++ dash :: value.drop 53 := drop_eq_of_dash h52
      have htraceDrop : value.drop 3 = substr value 3 32 ++ dash :: value.drop 36 := drop_eq_of_dash h35
      have hversionDrop : value.drop 0 = substr value 0 2 ++ dash :: value.drop 3 := drop_eq_of_dash h2
      rw [hflagsDrop, ← hparentDrop, ← htraceDrop]
      exact hversionDrop
    · rw [ne_eq, eq_zeros_iff htraceLength, htraceZero]
      exact Bool.false_ne_true
    · rw [ne_eq, eq_zeros_iff hparentLength, hparentZero]
      exact Bool.false_ne_true
    · by_cases hmore : 55 < value.length
      · right
        split_ifs at hend with h00
        · omega
        · obtain ⟨hlt, hletter⟩ := List.getElem?_eq_some_iff.mp (hend hmore)
          refine ⟨h00, value.drop 56, ?_⟩
          rw [List.drop_eq_getElem_cons hlt, hletter]
      · left
        exact List.drop_eq_nil_of_le (by omega)
  · rintro ⟨version, traceId, parentId, flags, further, hvalue, hversion, hff, htrace, htraceZero, hparent, hparentZero,
      hflags, hfurther⟩
    have hdrop : value.drop 0 = version ++ dash :: (traceId ++ dash :: (parentId ++ dash :: (flags ++ further))) :=
      hvalue
    obtain ⟨h2, hversionField, hdrop3⟩ : value[2]? = some dash ∧ substr value 0 2 = version ∧
        value.drop 3 = traceId ++ dash :: (parentId ++ dash :: (flags ++ further)) :=
      field_of_drop_eq hdrop hversion.1
    obtain ⟨h35, htraceField, hdrop36⟩ : value[35]? = some dash ∧ substr value 3 32 = traceId ∧
        value.drop 36 = parentId ++ dash :: (flags ++ further) := field_of_drop_eq hdrop3 htrace.1
    obtain ⟨h52, hparentField, hdrop53⟩ : value[52]? = some dash ∧ substr value 36 16 = parentId ∧
        value.drop 53 = flags ++ further := field_of_drop_eq hdrop36 hparent.1
    have hflagsField : substr value 53 2 = flags := by
      rw [substr, hdrop53, ← hflags.1, List.take_left]
    have hdrop55 : value.drop 55 = further := by
      rw [show 55 = 53 + 2 from rfl, ← List.drop_drop, hdrop53, ← hflags.1, List.drop_left]
    have hlength : value.length = 55 + further.length := by
      have h53 : 53 ≤ value.length := by
        have := (List.getElem?_eq_some_iff.mp h52).1
        omega
      have := congrArg List.length hdrop53
      rw [List.length_drop, List.length_append, hflags.1] at this
      omega
    rw [hversionField, htraceField, hparentField, hflagsField]
    refine ⟨⟨by omega, h2, h35, h52⟩, ⟨(lowerHex_iff.mp hversion).2, (lowerHex_iff.mp htrace).2,
      (lowerHex_iff.mp hparent).2, (lowerHex_iff.mp hflags).2⟩, hff, ?_, ?_, ?_⟩
    · obtain hnone | ⟨h00, fields, hfields⟩ := hfurther
      · rw [hnone, List.length_nil] at hlength
        split_ifs
        · exact hlength
        · omega
      · rw [if_neg h00]
        intro _
        rw [← Nat.add_zero 55, ← List.getElem?_drop, hdrop55, hfields]
        rfl
    · rw [ne_eq, eq_zeros_iff htrace.1, Bool.not_eq_true] at htraceZero
      exact htraceZero
    · rw [ne_eq, eq_zeros_iff hparent.1, Bool.not_eq_true] at hparentZero
      exact hparentZero

/-! ### tracestate -/

def KeyPart (firsts : Bytes) (more : Nat) (part : Bytes) : Prop :=
  ∃ first rest, part = first :: rest ∧ first ∈ firsts ∧ rest.length ≤ more ∧ ∀ c ∈ rest, c ∈ keyLetters

def SimpleKey (key : Bytes) : Prop := KeyPart (lowerLetters ++ digits) 255 key

def TenantKey (key : Bytes) : Prop :=
  ∃ tenant system, key = tenant ++ '@'.toUInt8 :: system ∧ KeyPart (lowerLetters ++ digits) 240 tenant ∧
    KeyPart lowerLetters 13 system

/-- A simple key, or tenant@system. -/
def StateKey (key : Bytes) : Prop := SimpleKey key ∨ TenantKey key

def StateLetter (c : UInt8) : Prop := 0x20 ≤ c ∧ c ≤ 0x7e ∧ c ≠ ','.toUInt8 ∧ c ≠ '='.toUInt8

/-- Up to 255 letters, and a last one that is no space. -/
def StateValue (value : Bytes) : Prop :=
  ∃ front last, value = front ++ [last] ∧ front.length ≤ 255 ∧ (∀ c ∈ front, StateLetter c) ∧ StateLetter last ∧
    last ≠ ' '.toUInt8

/-- An entry, with the key it has: nothing, or a key with its value. -/
def StateMember (key : Option Bytes) (member : Bytes) : Prop :=
  match key with
  | none => member = []
  | some key => StateKey key ∧ ∃ value, StateValue value ∧ member = key ++ '='.toUInt8 :: value

def StateEntry (entry : Bytes) (key : Option Bytes) : Prop := ∃ member, Padded isOws member entry ∧ StateMember key member

/-- Entries with commas between them: one key at least, 32 at most, and none of them twice. -/
def TraceState (value : Bytes) : Prop :=
  ∃ entries, value = [','.toUInt8].intercalate entries ∧ ∃ keys, List.Forall₂ StateEntry entries keys ∧
    keys.reduceOption.Nodup ∧ 1 ≤ keys.reduceOption.length ∧ keys.reduceOption.length ≤ 32

theorem cut_eq (value : Bytes) (separator : UInt8) : Trace.cut value separator = Delimited.cut value separator := rfl

theorem trimmed_eq (value : Bytes) : trimmed value = trim isOws value := rfl

theorem isKeyPart_iff (part : Bytes) (firstMayBeDigit : Bool) (more : Nat) :
    isKeyPart part firstMayBeDigit more = true ↔
      KeyPart (if firstMayBeDigit then lowerLetters ++ digits else lowerLetters) more part := by
  cases part with
  | nil =>
      constructor
      · intro h
        cases h
      · rintro ⟨first, rest, hpart, -⟩
        cases hpart
  | cons first rest =>
      have hfirst : (isLowerAlpha first || (firstMayBeDigit && isDigit first)) = true ↔
          first ∈ if firstMayBeDigit then lowerLetters ++ digits else lowerLetters := by
        cases firstMayBeDigit with
        | false => simp [isLowerAlpha_iff]
        | true => simp [isLowerAlpha_iff, isDigit_iff]
      have hrest : rest.all isKeyChar = true ↔ ∀ c ∈ rest, c ∈ keyLetters := by
        rw [List.all_eq_true]
        simp only [isKeyChar_iff]
      rw [isKeyPart, Bool.and_eq_true, Bool.and_eq_true, decide_eq_true_eq, hfirst, hrest, and_comm (a := _ ≤ _),
        and_assoc]
      constructor
      · intro h
        exact ⟨first, rest, rfl, h⟩
      · rintro ⟨_, _, hpart, h⟩
        obtain ⟨rfl, rfl⟩ := List.cons.inj hpart
        exact h

theorem KeyPart.mem {firsts part : Bytes} {more : Nat} (h : KeyPart firsts more part) {c : UInt8} (hc : c ∈ part) :
    c ∈ firsts ∨ c ∈ keyLetters := by
  obtain ⟨first, rest, rfl, hfirst, -, hrest⟩ := h
  obtain rfl | hin := List.mem_cons.mp hc
  · exact Or.inl hfirst
  · exact Or.inr (hrest c hin)

theorem not_mem_of_keyPart {part : Bytes} {more : Nat} (h : KeyPart (lowerLetters ++ digits) more part) {c : UInt8}
    (hc : c ∉ lowerLetters ++ digits ∧ c ∉ keyLetters) : c ∉ part := by
  intro hin
  cases h.mem hin with
  | inl hfirst => exact hc.1 hfirst
  | inr hmore => exact hc.2 hmore

theorem isTraceStateKey_iff (key : Bytes) : isTraceStateKey key = true ↔ StateKey key := by
  have hat : '@'.toUInt8 ∉ lowerLetters ++ digits ∧ '@'.toUInt8 ∉ keyLetters := by decide
  have hsimple (h : SimpleKey key) : '@'.toUInt8 ∉ key := not_mem_of_keyPart h hat
  rw [isTraceStateKey, cut_eq]
  cases hcut : Delimited.cut key '@'.toUInt8 with
  | none =>
      have hnone := cut_eq_none_iff.mp hcut
      have hpart := isKeyPart_iff key true 255
      constructor
      · intro h
        exact Or.inl (hpart.mp h)
      · rintro (h | ⟨tenant, system, rfl, -⟩)
        · exact hpart.mpr h
        · exact absurd (List.mem_append_right _ List.mem_cons_self) hnone
  | some halves =>
      obtain ⟨tenant, system⟩ := halves
      obtain ⟨hkey, hfree⟩ := cut_eq_some_iff.mp hcut
      have htenant := isKeyPart_iff tenant true 240
      have hsystem := isKeyPart_iff system false 13
      change (isKeyPart tenant true 240 && isKeyPart system false 13) = true ↔ _
      rw [Bool.and_eq_true, htenant, hsystem]
      constructor
      · rintro ⟨hleft, hright⟩
        exact Or.inr ⟨tenant, system, hkey, hleft, hright⟩
      · rintro (h | ⟨other, last, hother, hleft, hright⟩)
        · exact absurd (hkey ▸ List.mem_append_right _ List.mem_cons_self) (hsimple h)
        · have hcutOther := cut_append (not_mem_of_keyPart hleft hat) last
          rw [← hother, hcut, Option.some.injEq, Prod.mk.injEq] at hcutOther
          rw [hcutOther.1, hcutOther.2]
          exact ⟨hleft, hright⟩

theorem stateLetter_iff (c : UInt8) :
    (!(c < 0x20 || 0x7e < c || c = ','.toUInt8 || c = '='.toUInt8)) = true ↔ StateLetter c := by
  simp [StateLetter, and_assoc]

theorem isTraceStateValue_iff (value : Bytes) : isTraceStateValue value = true ↔ StateValue value := by
  rw [isTraceStateValue, Bool.and_eq_true, List.all_eq_true]
  simp only [stateLetter_iff]
  induction value using List.reverseRecOn with
  | nil =>
      constructor
      · rintro ⟨h, -⟩
        cases h
      · rintro ⟨front, last, hvalue, -⟩
        exact absurd hvalue.symm (by simp)
  | append_singleton front last _ =>
      have hends : (!((front ++ [last]).isEmpty || decide (256 < (front ++ [last]).length) ||
          decide ((front ++ [last]).getLast? = some ' '.toUInt8))) = true ↔
            front.length ≤ 255 ∧ last ≠ ' '.toUInt8 := by
        rw [List.getLast?_concat, List.length_append, List.length_singleton]
        simp
        omega
      have hletters : (∀ c ∈ front ++ [last], StateLetter c) ↔ (∀ c ∈ front, StateLetter c) ∧ StateLetter last := by
        simp [or_imp, forall_and]
      rw [hends, hletters]
      constructor
      · rintro ⟨⟨hlength, hspace⟩, hfront, hlast⟩
        exact ⟨front, last, rfl, hlength, hfront, hlast, hspace⟩
      · rintro ⟨_, _, hvalue, hlength, hfront, hlast, hspace⟩
        obtain ⟨rfl, hsame⟩ := List.append_inj' hvalue rfl
        obtain rfl := List.singleton_inj.mp hsame
        exact ⟨⟨hlength, hspace⟩, hfront, hlast⟩

/-! ### Entries -/

theorem isOws_of_mem_alphabet {c : UInt8} (h : c ∈ lowerLetters ++ digits) : isOws c = false := by
  rw [List.mem_append, mem_lowerLetters_iff, mem_digits_iff] at h
  rw [isOws, Bool.or_eq_false_iff, decide_eq_false_iff_not, decide_eq_false_iff_not]
  constructor <;> rintro rfl <;> exact absurd h (by decide)

theorem isOws_of_stateLetter {c : UInt8} (h : StateLetter c) (hspace : c ≠ ' '.toUInt8) : isOws c = false := by
  rw [isOws, decide_eq_false hspace, Bool.false_or, decide_eq_false_iff_not]
  rintro rfl
  exact absurd h.1 (by decide)

theorem StateKey.exists_cons {key : Bytes} (h : StateKey key) :
    ∃ first rest, key = first :: rest ∧ first ∈ lowerLetters ++ digits := by
  obtain ⟨first, rest, hkey, hfirst, -⟩ | ⟨tenant, system, rfl, ⟨first, rest, rfl, hfirst, -⟩, -⟩ := h
  · exact ⟨first, rest, hkey, hfirst⟩
  · exact ⟨first, _, rfl, hfirst⟩

theorem StateKey.not_mem {key : Bytes} (h : StateKey key) {c : UInt8}
    (hc : c ∉ lowerLetters ++ digits ∧ c ∉ keyLetters) (hat : c ≠ '@'.toUInt8) : c ∉ key := by
  obtain hsimple | ⟨tenant, system, rfl, htenant, hsystem⟩ := h
  · exact not_mem_of_keyPart hsimple hc
  · rw [List.mem_append, List.mem_cons]
    rintro (hin | hin | hin)
    · exact not_mem_of_keyPart htenant hc hin
    · exact hat hin
    · cases hsystem.mem hin with
      | inl hfirst => exact hc.1 (List.mem_append_left _ hfirst)
      | inr hmore => exact hc.2 hmore

theorem StateValue.stateLetter {value : Bytes} (h : StateValue value) {c : UInt8} (hc : c ∈ value) : StateLetter c := by
  obtain ⟨front, last, rfl, -, hfront, hlast, -⟩ := h
  obtain hin | hin := List.mem_append.mp hc
  · exact hfront c hin
  · rw [List.mem_singleton.mp hin]
    exact hlast

theorem StateMember.bare {key : Option Bytes} {member : Bytes} (h : StateMember key member) : Bare isOws member := by
  cases key with
  | none =>
      rw [show member = [] from h]
      exact bare_nil isOws
  | some key =>
      obtain ⟨hkey, value, ⟨front, last, rfl, -, -, hlast, hspace⟩, rfl⟩ := h
      obtain ⟨first, rest, rfl, hfirst⟩ := hkey.exists_cons
      constructor
      · intro c hc
        rw [← Option.some.inj hc]
        exact isOws_of_mem_alphabet hfirst
      · intro c hc
        rw [← List.cons_append, ← List.append_assoc, List.getLast?_concat] at hc
        rw [← Option.some.inj hc]
        exact isOws_of_stateLetter hlast hspace

theorem stateEntry_iff (entry : Bytes) (key : Option Bytes) :
    StateEntry entry key ↔ StateMember key (trimmed entry) := by
  rw [trimmed_eq]
  exact exists_padded_iff fun member hmember => StateMember.bare hmember

theorem stateEntry_none_iff (entry : Bytes) : StateEntry entry none ↔ trimmed entry = [] := stateEntry_iff entry none

theorem stateEntry_some_iff (entry key : Bytes) :
    StateEntry entry (some key) ↔ ∃ value, Trace.cut (trimmed entry) '='.toUInt8 = some (key, value) ∧
      isTraceStateKey key = true ∧ isTraceStateValue value = true := by
  rw [stateEntry_iff, StateMember]
  constructor
  · rintro ⟨hkey, value, hvalue, hmember⟩
    have hequals : '='.toUInt8 ∉ key := hkey.not_mem (by decide) (by decide)
    refine ⟨value, ?_, (isTraceStateKey_iff key).mpr hkey, (isTraceStateValue_iff value).mpr hvalue⟩
    rw [cut_eq, hmember]
    exact cut_append hequals value
  · rintro ⟨value, hcut, hkey, hvalue⟩
    rw [cut_eq] at hcut
    exact ⟨(isTraceStateKey_iff key).mp hkey, value, (isTraceStateValue_iff value).mp hvalue,
      (cut_eq_some_iff.mp hcut).1⟩

theorem not_mem_stateEntry {entry : Bytes} {key : Option Bytes} (h : StateEntry entry key) : ','.toUInt8 ∉ entry := by
  intro hin
  obtain ⟨member, hpadded, hmember⟩ := h
  cases hpadded.mem hin with
  | inl hows => exact absurd hows (by decide)
  | inr hin =>
      cases key with
      | none =>
          rw [show member = [] from hmember] at hin
          exact List.not_mem_nil hin
      | some key =>
          obtain ⟨hkey, value, hvalue, rfl⟩ := hmember
          rw [List.mem_append, List.mem_cons] at hin
          obtain hin | hin | hin := hin
          · exact hkey.not_mem (by decide) (by decide) hin
          · exact absurd hin (by decide)
          · exact (hvalue.stateLetter hin).2.2.1 rfl

theorem readKeys_cons_iff {keys rest all : List Bytes} {entry : Bytes} :
    readKeys keys (entry :: rest) = some all ↔
      ∃ key, StateEntry entry key ∧ (∀ known ∈ key, known ∉ keys) ∧ readKeys (key.toList ++ keys) rest = some all := by
  by_cases hnone : trimmed entry = []
  · have hcutNone : Trace.cut (trimmed entry) '='.toUInt8 = none := by
      rw [hnone]
      rfl
    rw [readKeys, if_pos hnone]
    constructor
    · intro hread
      exact ⟨none, (stateEntry_none_iff entry).mpr hnone, by simp, hread⟩
    · rintro ⟨key, hentry, -, hread⟩
      cases key with
      | none => exact hread
      | some key =>
          obtain ⟨value, hcut, -⟩ := (stateEntry_some_iff entry key).mp hentry
          rw [hcutNone] at hcut
          cases hcut
  · rw [readKeys, if_neg hnone]
    cases hcut : Trace.cut (trimmed entry) '='.toUInt8 with
    | none =>
        constructor
        · intro h
          cases h
        · rintro ⟨key, hentry, -⟩
          cases key with
          | none => exact absurd ((stateEntry_none_iff entry).mp hentry) hnone
          | some key =>
              obtain ⟨value, hsome, -⟩ := (stateEntry_some_iff entry key).mp hentry
              rw [hcut] at hsome
              cases hsome
    | some halves =>
        obtain ⟨key, value⟩ := halves
        change (if (!isTraceStateKey key || !isTraceStateValue value || keys.contains key) = true then none
          else readKeys (key :: keys) rest) = some all ↔ _
        constructor
        · intro hread
          split_ifs at hread with hrefused
          simp only [Bool.or_eq_true, Bool.not_eq_true', List.contains_iff_mem, not_or, Bool.not_eq_false] at hrefused
          obtain ⟨⟨hkey, hvalue⟩, hnew⟩ := hrefused
          refine ⟨some key, (stateEntry_some_iff entry key).mpr ⟨value, hcut, hkey, hvalue⟩, ?_, hread⟩
          intro known hknown
          rw [← Option.some.inj hknown]
          exact hnew
        · rintro ⟨found, hentry, hnew, hread⟩
          cases found with
          | none => exact absurd ((stateEntry_none_iff entry).mp hentry) hnone
          | some found =>
              obtain ⟨other, hsome, hkey, hvalue⟩ := (stateEntry_some_iff entry found).mp hentry
              rw [hcut, Option.some.injEq, Prod.mk.injEq] at hsome
              obtain ⟨rfl, rfl⟩ := hsome
              have hkeep : (!isTraceStateKey key || !isTraceStateValue value || keys.contains key) = false := by
                rw [hkey, hvalue, Bool.not_true, Bool.false_or, Bool.false_or, ← Bool.not_eq_true,
                  List.contains_iff_mem]
                exact hnew key rfl
              rw [hkeep]
              exact hread

/-- The keys that are read are those of the entries. -/
theorem readKeys_eq_some_iff {keys entries all : List Bytes} (hnodup : keys.Nodup) :
    readKeys keys entries = some all ↔
      ∃ found, List.Forall₂ StateEntry entries found ∧ all = found.reduceOption.reverse ++ keys ∧ all.Nodup := by
  induction entries generalizing keys with
  | nil =>
      rw [readKeys]
      constructor
      · intro h
        cases h
        exact ⟨[], List.Forall₂.nil, rfl, hnodup⟩
      · rintro ⟨found, hfound, rfl, -⟩
        cases hfound
        rfl
  | cons entry rest ih =>
      have hreverse (key : Option Bytes) (found : List (Option Bytes)) :
          (key :: found).reduceOption.reverse ++ keys = found.reduceOption.reverse ++ (key.toList ++ keys) := by
        cases key <;> simp
      rw [readKeys_cons_iff]
      constructor
      · rintro ⟨key, hentry, hnew, hread⟩
        have hmore : (key.toList ++ keys).Nodup := by
          cases key with
          | none => exact hnodup
          | some key => exact List.nodup_cons.mpr ⟨hnew key rfl, hnodup⟩
        obtain ⟨found, hfound, hall, hallNodup⟩ := (ih hmore).mp hread
        exact ⟨key :: found, List.Forall₂.cons hentry hfound, by rw [hreverse, hall], hallNodup⟩
      · rintro ⟨found, hfound, hall, hallNodup⟩
        obtain _ | ⟨hentry, hrest⟩ := hfound
        rename_i key found
        rw [hreverse] at hall
        have hmore : (key.toList ++ keys).Nodup := by
          rw [hall] at hallNodup
          exact (List.nodup_append.mp hallNodup).2.1
        refine ⟨key, hentry, ?_, (ih hmore).mpr ⟨found, hrest, hall, hallNodup⟩⟩
        intro known hknown
        rw [hknown] at hmore
        exact (List.nodup_cons.mp hmore).1

/-- **A tracestate is accepted just if it is one.** -/
theorem isValidTraceState_iff (value : Bytes) : isValidTraceState value = true ↔ TraceState value := by
  have hread : isValidTraceState value = true ↔
      ∃ all, readKeys [] (split value ','.toUInt8) = some all ∧ 1 ≤ all.length ∧ all.length ≤ 32 := by
    rw [isValidTraceState]
    cases readKeys [] (split value ','.toUInt8) with
    | none => simp
    | some all => simp [Nat.one_le_iff_ne_zero]
  rw [hread, TraceState, exists_intercalate_iff]
  · constructor
    · rintro ⟨all, hall, hpos, hlength⟩
      obtain ⟨keys, hkeys, rfl, hnodup⟩ := (readKeys_eq_some_iff List.nodup_nil).mp hall
      rw [List.append_nil, List.nodup_reverse] at hnodup
      rw [List.append_nil, List.length_reverse] at hpos hlength
      exact ⟨keys, hkeys, hnodup, hpos, hlength⟩
    · rintro ⟨keys, hkeys, hnodup, hpos, hlength⟩
      refine ⟨keys.reduceOption.reverse, ?_, ?_, ?_⟩
      · rw [readKeys_eq_some_iff List.nodup_nil]
        exact ⟨keys, hkeys, (List.append_nil _).symm, List.nodup_reverse.mpr hnodup⟩
      · rw [List.length_reverse]
        exact hpos
      · rw [List.length_reverse]
        exact hlength
  · rintro entries ⟨keys, hkeys, -, hpos, -⟩ rfl
    cases hkeys
    exact absurd hpos (by decide)
  · rintro entries ⟨keys, hkeys, -⟩
    have hboth := hkeys.imp fun entry key hentry => And.intro (not_mem_stateEntry hentry) hentry
    exact ((List.forall₂_and_left entries keys).mp hboth).1

/-! ### baggage -/

def Token (word : Bytes) : Prop := word ≠ [] ∧ ∀ c ∈ word, c ∈ tokenLetters

def BaggageLetter (c : UInt8) : Prop := 0x21 ≤ c ∧ c ≤ 0x7e ∧ c ∉ ascii "\",;\\"

/-- Letters and percent-encoded octets. -/
inductive BaggageValue : Bytes → Prop
  | empty : BaggageValue []
  | letter {c : UInt8} {rest : Bytes} : BaggageLetter c → c ≠ '%'.toUInt8 → BaggageValue rest → BaggageValue (c :: rest)
  | encoded {high low : UInt8} {rest : Bytes} : high ∈ hexDigits → low ∈ hexDigits → BaggageValue rest →
      BaggageValue ('%'.toUInt8 :: high :: low :: rest)

/-- key OWS "=" OWS value -/
def KeyValue (text : Bytes) : Prop :=
  ∃ left right, text = left ++ '='.toUInt8 :: right ∧ (∃ key, Padded isOws key left ∧ Token key) ∧
    ∃ value, Padded isOws value right ∧ BaggageValue value

def Property (text : Bytes) : Prop := KeyValue text ∨ ∃ key, Padded isOws key text ∧ Token key

/-- A key with its value, then properties, with semicolons between them. -/
def BaggageMember (member : Bytes) : Prop :=
  ∃ parts, member = [';'.toUInt8].intercalate parts ∧ ∃ first properties, parts = first :: properties ∧
    KeyValue first ∧ ∀ property ∈ properties, Property property

/-- Members with commas between them, 64 at most, in 8192 bytes at most. -/
def Baggage (value : Bytes) : Prop :=
  value.length ≤ 8192 ∧ ∃ members, value = [','.toUInt8].intercalate members ∧ members ≠ [] ∧ members.length ≤ 64 ∧
    ∀ member ∈ members, BaggageMember member

theorem isToken_iff (word : Bytes) : isToken word = true ↔ Token word := by
  rw [isToken, Token, Bool.and_eq_true, List.all_eq_true]
  simp only [isTokenChar_iff, Bool.not_eq_true', List.isEmpty_eq_false_iff]

theorem baggageLetter_iff (c : UInt8) :
    (decide (c < 0x21) || decide (0x7e < c) || (ascii "\",;\\").contains c) = false ↔ BaggageLetter c := by
  rw [BaggageLetter, Bool.or_eq_false_iff, Bool.or_eq_false_iff, decide_eq_false_iff_not, decide_eq_false_iff_not,
    not_lt, not_lt, and_assoc, ← Bool.not_eq_true, List.contains_iff_mem]

theorem isBaggageValue_letter {c : UInt8} {rest : Bytes} (hplain : c ≠ '%'.toUInt8) :
    isBaggageValue (c :: rest) = true ↔ BaggageLetter c ∧ isBaggageValue rest = true := by
  rw [isBaggageValue.eq_def, ← baggageLetter_iff]
  dsimp only
  rw [if_neg hplain]
  cases (decide (c < 0x21) || decide (0x7e < c) || (ascii "\",;\\").contains c) <;> simp

theorem isBaggageValue_encoded {high low : UInt8} {rest : Bytes} :
    isBaggageValue ('%'.toUInt8 :: high :: low :: rest) = true ↔
      high ∈ hexDigits ∧ low ∈ hexDigits ∧ isBaggageValue rest = true := by
  have hpercent : BaggageLetter '%'.toUInt8 := by
    rw [BaggageLetter]
    decide
  rw [isBaggageValue.eq_def]
  dsimp only
  rw [(baggageLetter_iff _).mpr hpercent, if_neg Bool.false_ne_true, if_pos rfl, Bool.and_eq_true, Bool.and_eq_true,
    isHex_iff, isHex_iff, and_assoc]

theorem isBaggageValue_iff (value : Bytes) : isBaggageValue value = true ↔ BaggageValue value := by
  constructor
  · intro h
    induction value using isBaggageValue.induct with
    | case1 => exact BaggageValue.empty
    | case2 first rest hletter =>
        rw [isBaggageValue.eq_def] at h
        dsimp only at h
        rw [if_pos hletter] at h
        cases h
    | case3 high low rest _ ih =>
        obtain ⟨hhigh, hlow, hrest⟩ := isBaggageValue_encoded.mp h
        exact BaggageValue.encoded hhigh hlow (ih hrest)
    | case4 rest hshort hpercent =>
        rw [isBaggageValue.eq_def] at h
        dsimp only at h
        rw [if_neg hpercent, if_pos rfl] at h
        split at h
        · next high low after => exact (hshort high low after rfl).elim
        · cases h
    | case5 first rest _ hplain ih =>
        obtain ⟨hletter, hrest⟩ := (isBaggageValue_letter hplain).mp h
        exact BaggageValue.letter hletter hplain (ih hrest)
  · intro h
    induction h with
    | empty => rfl
    | letter hletter hplain _ ih => exact (isBaggageValue_letter hplain).mpr ⟨hletter, ih⟩
    | encoded hhigh hlow _ ih => exact isBaggageValue_encoded.mpr ⟨hhigh, hlow, ih⟩

theorem BaggageValue.letter_of_mem {value : Bytes} (h : BaggageValue value) {c : UInt8} (hc : c ∈ value) :
    BaggageLetter c := by
  have hhex : ∀ letter ∈ hexDigits, BaggageLetter letter := by
    intro letter hletter
    simp [hexDigits, lowerHexDigits, mem_digits_iff, ascii, ← UInt8.toNat_inj, Char.toUInt8] at hletter
    simp [BaggageLetter, ascii, ← UInt8.toNat_inj, Char.toUInt8, UInt8.le_iff_toNat_le]
    omega
  induction h with
  | empty => exact absurd hc List.not_mem_nil
  | letter hletter _ _ ih =>
      obtain rfl | hin := List.mem_cons.mp hc
      · exact hletter
      · exact ih hin
  | encoded hhigh hlow _ ih =>
      obtain rfl | hin := List.mem_cons.mp hc
      · rw [BaggageLetter]
        decide
      · obtain rfl | hin := List.mem_cons.mp hin
        · exact hhex _ hhigh
        · obtain rfl | hin := List.mem_cons.mp hin
          · exact hhex _ hlow
          · exact ih hin

theorem isOws_of_baggageLetter {c : UInt8} (h : BaggageLetter c) : isOws c = false := by
  rw [isOws, Bool.or_eq_false_iff, decide_eq_false_iff_not, decide_eq_false_iff_not]
  constructor <;> rintro rfl <;> exact absurd h.1 (by decide)

theorem baggageLetter_of_token {c : UInt8} (h : c ∈ tokenLetters) : BaggageLetter c := by
  simp [tokenLetters, mem_lowerLetters_iff, mem_upperLetters_iff, mem_digits_iff, ascii, ← UInt8.toNat_inj,
    Char.toUInt8] at h
  simp [BaggageLetter, ascii, ← UInt8.toNat_inj, Char.toUInt8, UInt8.le_iff_toNat_le]
  omega

theorem Token.bare {word : Bytes} (h : Token word) : Bare isOws word :=
  bare_of_forall fun c hc => isOws_of_baggageLetter (baggageLetter_of_token (h.2 c hc))

theorem BaggageValue.bare {value : Bytes} (h : BaggageValue value) : Bare isOws value :=
  bare_of_forall fun _ hc => isOws_of_baggageLetter (h.letter_of_mem hc)

theorem exists_token_iff (text : Bytes) : (∃ key, Padded isOws key text ∧ Token key) ↔ isToken (trimmed text) = true := by
  rw [exists_padded_iff fun key hkey => Token.bare hkey, isToken_iff, trimmed_eq]

theorem exists_baggageValue_iff (text : Bytes) :
    (∃ value, Padded isOws value text ∧ BaggageValue value) ↔ isBaggageValue (trimmed text) = true := by
  rw [exists_padded_iff fun value hvalue => BaggageValue.bare hvalue, isBaggageValue_iff, trimmed_eq]

/-- A letter that is neither of a token nor a blank is not in the text of a key. -/
theorem not_mem_of_token {text : Bytes} (h : ∃ key, Padded isOws key text ∧ Token key) {c : UInt8}
    (hows : isOws c = false) (htoken : c ∉ tokenLetters) : c ∉ text := by
  intro hin
  obtain ⟨key, hpadded, hkey⟩ := h
  cases hpadded.mem hin with
  | inl hblank =>
      rw [hows] at hblank
      cases hblank
  | inr hin => exact htoken (hkey.2 c hin)

theorem not_mem_of_baggageValue {text : Bytes} (h : ∃ value, Padded isOws value text ∧ BaggageValue value) {c : UInt8}
    (hows : isOws c = false) (hletter : ¬BaggageLetter c) : c ∉ text := by
  intro hin
  obtain ⟨value, hpadded, hvalue⟩ := h
  cases hpadded.mem hin with
  | inl hblank =>
      rw [hows] at hblank
      cases hblank
  | inr hin => exact hletter (hvalue.letter_of_mem hin)

/-! ### Members -/

theorem keyValue_iff (text : Bytes) : KeyValue text ↔ isKeyValue text false = true := by
  have hequals : isOws '='.toUInt8 = false ∧ '='.toUInt8 ∉ tokenLetters := by decide
  rw [isKeyValue, cut_eq]
  constructor
  · rintro ⟨left, right, rfl, hkey, hvalue⟩
    rw [cut_append (not_mem_of_token hkey hequals.1 hequals.2) right]
    change (isToken (trimmed left) && isBaggageValue (trimmed right)) = true
    rw [(exists_token_iff left).mp hkey, (exists_baggageValue_iff right).mp hvalue]
    rfl
  · intro h
    cases hcut : Delimited.cut text '='.toUInt8 with
    | none =>
        rw [hcut] at h
        cases h
    | some halves =>
        obtain ⟨left, right⟩ := halves
        rw [hcut] at h
        change (isToken (trimmed left) && isBaggageValue (trimmed right)) = true at h
        rw [Bool.and_eq_true] at h
        exact ⟨left, right, (cut_eq_some_iff.mp hcut).1, (exists_token_iff left).mpr h.1,
          (exists_baggageValue_iff right).mpr h.2⟩

theorem property_iff (text : Bytes) : Property text ↔ isKeyValue text true = true := by
  have hequals : isOws '='.toUInt8 = false ∧ '='.toUInt8 ∉ tokenLetters := by decide
  rw [Property, keyValue_iff, isKeyValue, isKeyValue, cut_eq, exists_token_iff]
  cases hcut : Delimited.cut text '='.toUInt8 with
  | none => simp
  | some halves =>
      have hmem : '='.toUInt8 ∈ text := by
        by_contra hmem
        rw [cut_of_not_mem hmem] at hcut
        cases hcut
      constructor
      · rintro (h | h)
        · exact h
        · exact absurd hmem (not_mem_of_token ((exists_token_iff text).mpr h) hequals.1 hequals.2)
      · exact Or.inl

theorem not_mem_property {text : Bytes} (h : Property text) {c : UInt8} (hows : isOws c = false)
    (hletter : ¬BaggageLetter c) (hequals : c ≠ '='.toUInt8) : c ∉ text := by
  have htoken : c ∉ tokenLetters := fun hin => hletter (baggageLetter_of_token hin)
  obtain ⟨left, right, rfl, hkey, hvalue⟩ | hkey := h
  · rw [List.mem_append, List.mem_cons]
    rintro (hin | hin | hin)
    · exact not_mem_of_token hkey hows htoken hin
    · exact hequals hin
    · exact not_mem_of_baggageValue hvalue hows hletter hin
  · exact not_mem_of_token hkey hows htoken

theorem isBaggageMember_iff (member : Bytes) : isBaggageMember member = true ↔ BaggageMember member := by
  have hsemicolon : isOws ';'.toUInt8 = false ∧ ¬BaggageLetter ';'.toUInt8 ∧ ';'.toUInt8 ≠ '='.toUInt8 := by
    simp only [BaggageLetter]
    decide
  rw [BaggageMember, exists_intercalate_iff, isBaggageMember, split]
  · cases member.splitOn ';'.toUInt8 with
    | nil => simp
    | cons first properties => simp [keyValue_iff, property_iff]
  · rintro parts ⟨first, properties, rfl, -⟩
    exact List.cons_ne_nil _ _
  · rintro parts ⟨first, properties, rfl, hfirst, hproperties⟩ part hpart
    have hproperty : Property part := by
      obtain rfl | hin := List.mem_cons.mp hpart
      · exact Or.inl hfirst
      · exact hproperties part hin
    exact not_mem_property hproperty hsemicolon.1 hsemicolon.2.1 hsemicolon.2.2

theorem not_mem_baggageMember {member : Bytes} (h : BaggageMember member) : ','.toUInt8 ∉ member := by
  have hcomma : isOws ','.toUInt8 = false ∧ ¬BaggageLetter ','.toUInt8 ∧ ','.toUInt8 ≠ '='.toUInt8 := by
    simp only [BaggageLetter]
    decide
  obtain ⟨parts, rfl, first, properties, rfl, hfirst, hproperties⟩ := h
  intro hin
  obtain hseparator | ⟨part, hpart, hin⟩ := mem_intercalate hin
  · exact absurd hseparator (by decide)
  · have hproperty : Property part := by
      obtain rfl | hmore := List.mem_cons.mp hpart
      · exact Or.inl hfirst
      · exact hproperties part hmore
    exact not_mem_property hproperty hcomma.1 hcomma.2.1 hcomma.2.2 hin

/-- **Baggage is accepted just if it is baggage.** -/
theorem isValidBaggage_iff (value : Bytes) : isValidBaggage value = true ↔ Baggage value := by
  rw [Baggage, exists_intercalate_iff, isValidBaggage, split]
  · have hmembers : (value.splitOn ','.toUInt8).all isBaggageMember = true ↔
        ∀ member ∈ value.splitOn ','.toUInt8, BaggageMember member := by
      rw [List.all_eq_true]
      simp only [isBaggageMember_iff]
    rw [← hmembers]
    cases value with
    | nil => decide
    | cons c rest =>
        have hne := List.splitOn_ne_nil ','.toUInt8 (c :: rest)
        rw [and_iff_right hne, List.isEmpty_cons, Bool.false_or]
        dsimp only
        rw [passes_iff, passes_iff, decide_eq_true_eq, not_lt, not_lt]
        rfl
  · rintro members ⟨hne, -⟩
    exact hne
  · rintro members ⟨-, -, hmembers⟩ member hmember
    exact not_mem_baggageMember (hmembers member hmember)

end Trace

end GopherMcp
