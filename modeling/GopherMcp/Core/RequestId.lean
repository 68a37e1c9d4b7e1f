import GopherMcp.Core.Bytes

/-!
# Request ids and their keys

A request id is a string or a 64-bit integer, and the string `5` and the number `5` are different
requests. `RequestIdKey` is the form in which an id keys an ordered container: the kind of the id is
part of the key, and every number sorts before every string.
-/

namespace GopherMcp

/-- `variant<std::string, int64_t>`. -/
inductive RequestId where
  | string (text : Bytes)
  | number (value : Int64)
  deriving DecidableEq

/-- A request id as a key. The field that does not belong to the kind of the id holds its default. -/
structure RequestIdKey where
  isString : Bool
  text : Bytes
  number : Int64
  blank : if isString then number = 0 else text = []
  deriving DecidableEq

namespace RequestIdKey

/-- `operator<` of the source: numbers before strings, then by value. -/
def less (lhs rhs : RequestIdKey) : Bool :=
  if lhs.isString ≠ rhs.isString then !lhs.isString
  else if lhs.isString then lhs.text < rhs.text
  else lhs.number < rhs.number

/-- `operator==` of the source. -/
def equal (lhs rhs : RequestIdKey) : Bool :=
  if lhs.isString ≠ rhs.isString then false
  else if lhs.isString then lhs.text = rhs.text
  else lhs.number = rhs.number

/-- The fields in the order the comparison reads them. -/
def fields (key : RequestIdKey) : Bool ×ₗ (Bytes ×ₗ Int64) :=
  toLex (key.isString, toLex (key.text, key.number))

theorem fields_injective : Function.Injective fields := by
  rintro ⟨isString, text, number, _⟩ ⟨isString', text', number', _⟩ h
  simp only [fields, EmbeddingLike.apply_eq_iff_eq, Prod.mk.injEq] at h
  obtain ⟨rfl, rfl, rfl⟩ := h
  rfl

instance linearOrder : LinearOrder RequestIdKey := LinearOrder.lift' fields fields_injective

/-- The order of the model is the comparison of the source. -/
theorem lt_iff_less (lhs rhs : RequestIdKey) : lhs < rhs ↔ lhs.less rhs := by
  obtain ⟨isString, text, number, hblank⟩ := lhs
  obtain ⟨isString', text', number', hblank'⟩ := rhs
  change fields _ < fields _ ↔ _
  cases isString <;> cases isString' <;>
    simp only [Bool.false_eq_true, if_false, if_true] at hblank hblank' <;>
    subst hblank <;> subst hblank' <;>
    simp [fields, less, Prod.Lex.toLex_lt_toLex]

theorem equal_iff_eq (lhs rhs : RequestIdKey) : lhs.equal rhs ↔ lhs = rhs := by
  obtain ⟨isString, text, number, hblank⟩ := lhs
  obtain ⟨isString', text', number', hblank'⟩ := rhs
  cases isString <;> cases isString' <;>
    simp only [Bool.false_eq_true, if_false, if_true] at hblank hblank' <;>
    subst hblank <;> subst hblank' <;>
    simp [equal]

end RequestIdKey

/-- Build a key from a request id, preserving which kind it was. -/
def requestIdKey : RequestId → RequestIdKey
  | .string text => ⟨true, text, 0, rfl⟩
  | .number value => ⟨false, [], value, rfl⟩

/-- Different ids have different keys, whatever they print as. -/
theorem requestIdKey_injective : Function.Injective requestIdKey := by
  intro left right h
  cases left <;> cases right <;> simp_all [requestIdKey]

@[simp] theorem requestIdKey_inj {left right : RequestId} :
    requestIdKey left = requestIdKey right ↔ left = right :=
  requestIdKey_injective.eq_iff

end GopherMcp
