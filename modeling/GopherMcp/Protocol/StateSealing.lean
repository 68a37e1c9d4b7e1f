import GopherMcp.Protocol.RequestStateSealer

/-!
# A sealed state opens exactly as it was sealed

The reader of sealed values undoes the writer and nothing else, so what opens is the sealed form of the
state for the named key, the expiry and the context at hand. Lengths are written in 32 bits. A state of
2^32 bytes or more is sealed under a length that is not its own and does not open, and a principal or a
method of that size can run into the other one.
-/

namespace GopherMcp

namespace RequestStateSealer

/-! ### Fields -/

theorem appendU32_eq (out : Bytes) (n : Nat) : appendU32 out n = out ++ Bits.bigEndian 4 n := by
  simp only [appendU32, List.map_cons, List.map_nil, Bits.ofNat_and, Nat.shiftRight_eq_div_pow,
    Bits.bigEndian, Nat.div_div_eq_div_mul, List.nil_append, List.cons_append, Nat.reducePow,
    Nat.reduceMul, Nat.div_one]

theorem appendI64_eq (out : Bytes) (n : Int64) :
    appendI64 out n = out ++ Bits.bigEndian 8 n.toUInt64.toNat := by
  simp only [appendI64, List.map_cons, List.map_nil, Bits.ofNat_and, Nat.shiftRight_eq_div_pow,
    Bits.bigEndian, Nat.div_div_eq_div_mul, List.nil_append, List.cons_append, Nat.reducePow,
    Nat.reduceMul, Nat.div_one]

theorem foldl_shiftLeft_eq (bytes : Bytes) :
    bytes.foldl (fun v byte => v <<< 8 ||| byte.toNat) 0 = Bits.ofBigEndian bytes := by
  have hstep : (fun (v : Nat) (byte : UInt8) => v <<< 8 ||| byte.toNat) =
      fun v byte => v * 256 + byte.toNat := by
    funext v byte
    exact Bits.shiftLeft_or byte.toNat_lt
  rw [hstep, Bits.ofBigEndian]

theorem readBytes_eq_some_iff {width place v next : Nat} {input : Bytes} :
    readBytes width input place = some (v, next) ↔
      place + width ≤ input.length ∧ next = place + width ∧
        v = Bits.ofBigEndian ((input.drop place).take width) := by
  rw [readBytes, foldl_shiftLeft_eq]
  split_ifs with hshort
  · simp only [false_iff, not_and]
    omega
  · simp only [Option.some.injEq, Prod.mk.injEq]
    constructor
    · rintro ⟨rfl, rfl⟩
      exact ⟨by omega, rfl, rfl⟩
    · rintro ⟨-, rfl, rfl⟩
      exact ⟨rfl, rfl⟩

theorem readI64_eq_some_iff {place next : Nat} {input : Bytes} {n : Int64} :
    readI64 input place = some (n, next) ↔
      place + 8 ≤ input.length ∧ next = place + 8 ∧
        n.toUInt64.toNat = Bits.ofBigEndian ((input.drop place).take 8) := by
  simp only [readI64, Option.map_eq_some_iff, Prod.exists, readBytes_eq_some_iff, Prod.mk.injEq]
  constructor
  · rintro ⟨v, next', ⟨hfits, rfl, rfl⟩, rfl, rfl⟩
    refine ⟨hfits, rfl, ?_⟩
    have hlt := Bits.ofBigEndian_lt ((input.drop place).take 8)
    rw [List.length_take, List.length_drop, Nat.min_eq_left (by omega)] at hlt
    rw [UInt64.toUInt64_toInt64, UInt64.toNat_ofNat_of_lt' hlt]
  · rintro ⟨hfits, rfl, hn⟩
    refine ⟨_, _, ⟨hfits, rfl, rfl⟩, ?_, rfl⟩
    rw [← hn, UInt64.ofNat_toNat, Int64.toInt64_toUInt64]

/-! ### The layout of sealed values -/

def layout (held : Sealed) : Bytes :=
  kVersion :: (Bits.bigEndian 4 (held.id.length % 2 ^ 32) ++ (held.id ++
    (Bits.bigEndian 8 held.expires.toUInt64.toNat ++
      (Bits.bigEndian 4 (held.state.length % 2 ^ 32) ++ (held.state ++ held.tag)))))

theorem drop_eq (bytes : Bytes) (place width : Nat) :
    bytes.drop place = (bytes.drop place).take width ++ bytes.drop (place + width) := by
  rw [← List.drop_drop, List.take_append_drop]

theorem bigEndian_chunk {bytes : Bytes} {place width : Nat} (h : place + width ≤ bytes.length) :
    Bits.bigEndian width (Bits.ofBigEndian ((bytes.drop place).take width)) =
      (bytes.drop place).take width := by
  have hlength : ((bytes.drop place).take width).length = width := by
    rw [List.length_take, List.length_drop]
    omega
  have hchunk := Bits.bigEndian_ofBigEndian ((bytes.drop place).take width)
  rwa [hlength] at hchunk

theorem layout_of_readSealed {bytes : Bytes} {held : Sealed} (h : readSealed bytes = some held) :
    bytes = layout held ∧ held.id.length ≤ 64 ∧ held.state.length < 2 ^ 32 ∧
      held.tag.length = kTagBytes := by
  rw [readSealed] at h
  split_ifs at h with hversion
  rw [ne_eq, not_not] at hversion
  obtain ⟨⟨idLength, place⟩, hreadId, h⟩ := Option.bind_eq_some_iff.mp h
  obtain ⟨hidFits, rfl, hid⟩ := readBytes_eq_some_iff.mp hreadId
  dsimp only at h
  split_ifs at h with hbig
  obtain ⟨⟨expires, place⟩, hreadExpires, h⟩ := Option.bind_eq_some_iff.mp h
  obtain ⟨hexpiresFits, rfl, hexpires⟩ := readI64_eq_some_iff.mp hreadExpires
  obtain ⟨⟨stateLength, place⟩, hreadState, h⟩ := Option.bind_eq_some_iff.mp h
  obtain ⟨hstateFits, rfl, hstate⟩ := readBytes_eq_some_iff.mp hreadState
  dsimp only at h hstateFits hstate
  split_ifs at h with hsize
  cases h
  have hidLen : ((bytes.drop (1 + 4)).take idLength).length = idLength := by
    rw [List.length_take, List.length_drop]
    omega
  have hstateLen : ((bytes.drop (1 + 4 + idLength + 8 + 4)).take stateLength).length =
      stateLength := by
    rw [List.length_take, List.length_drop]
    omega
  have hstateLt : stateLength < 2 ^ 32 := by
    have hlt := Bits.ofBigEndian_lt ((bytes.drop (1 + 4 + idLength + 8)).take 4)
    rw [List.length_take, List.length_drop, Nat.min_eq_left (by omega), ← hstate] at hlt
    exact hlt
  have hidBytes := bigEndian_chunk hidFits
  have hexpiresBytes := bigEndian_chunk hexpiresFits
  have hstateBytes := bigEndian_chunk hstateFits
  rw [← hid] at hidBytes
  rw [← hexpires] at hexpiresBytes
  rw [← hstate] at hstateBytes
  refine ⟨?_, ?_, ?_, ?_⟩
  · rw [layout]
    dsimp only
    rw [hidLen, hstateLen, Nat.mod_eq_of_lt (by omega), Nat.mod_eq_of_lt hstateLt, hidBytes,
      hexpiresBytes, hstateBytes, ← drop_eq, ← drop_eq, ← drop_eq, ← drop_eq, ← drop_eq]
    cases bytes with
    | nil => cases hversion
    | cons first rest => rw [Option.some.inj hversion]; rfl
  · rw [hidLen]
    omega
  · rw [hstateLen]
    exact hstateLt
  · rw [List.length_drop]
    omega

theorem length_layout (held : Sealed) :
    (layout held).length =
      1 + 4 + held.id.length + 8 + 4 + held.state.length + held.tag.length := by
  simp only [layout, List.length_cons, List.length_append, Bits.length_bigEndian]
  omega

theorem chunk_of_drop {bytes chunk rest : Bytes} {place width : Nat}
    (h : bytes.drop place = chunk ++ rest) (hwidth : chunk.length = width) :
    (bytes.drop place).take width = chunk ∧ bytes.drop (place + width) = rest := by
  rw [← List.drop_drop, h]
  exact ⟨List.take_left' hwidth, List.drop_left' hwidth⟩

theorem readSealed_layout {held : Sealed} (hid : held.id.length ≤ 64)
    (hstate : held.state.length < 2 ^ 32) (htag : held.tag.length = kTagBytes) :
    readSealed (layout held) = some held := by
  have hlength := length_layout held
  have hvalue : ∀ n, n < 2 ^ 32 → n = Bits.ofBigEndian (Bits.bigEndian 4 (n % 2 ^ 32)) := by
    intro n hn
    rw [Nat.mod_eq_of_lt hn]
    exact (Bits.ofBigEndian_bigEndian_of_lt hn).symm
  -- the fields, one after the other, and what follows each
  have hfirst : (layout held).drop 1 = Bits.bigEndian 4 (held.id.length % 2 ^ 32) ++ _ := rfl
  obtain ⟨hidLength, hrest⟩ := chunk_of_drop hfirst (Bits.length_bigEndian _ _)
  obtain ⟨hidBytes, hrest⟩ := chunk_of_drop hrest rfl
  obtain ⟨hexpires, hrest⟩ := chunk_of_drop hrest (Bits.length_bigEndian _ _)
  obtain ⟨hstateLength, hrest⟩ := chunk_of_drop hrest (Bits.length_bigEndian _ _)
  obtain ⟨hstateBytes, htagBytes⟩ := chunk_of_drop hrest rfl
  have hreadId : readU32 (layout held) 1 = some (held.id.length, 1 + 4) := by
    refine readBytes_eq_some_iff.mpr ⟨by omega, rfl, ?_⟩
    rw [hidLength]
    exact hvalue _ (by omega)
  have hreadExpires : readI64 (layout held) (1 + 4 + held.id.length) =
      some (held.expires, 1 + 4 + held.id.length + 8) := by
    refine readI64_eq_some_iff.mpr ⟨by omega, rfl, ?_⟩
    rw [hexpires]
    exact (Bits.ofBigEndian_bigEndian_of_lt held.expires.toUInt64.toNat_lt).symm
  have hreadState : readU32 (layout held) (1 + 4 + held.id.length + 8) =
      some (held.state.length, 1 + 4 + held.id.length + 8 + 4) := by
    refine readBytes_eq_some_iff.mpr ⟨by omega, rfl, ?_⟩
    rw [hstateLength]
    exact hvalue _ hstate
  have hversion : ¬(layout held).head? ≠ some kVersion := not_not.mpr rfl
  rw [readSealed, if_neg hversion, hreadId, Option.bind_eq_bind, Option.bind_some]
  dsimp only
  rw [if_neg (by omega), hreadExpires, Option.bind_eq_bind, Option.bind_some]
  dsimp only
  rw [hreadState, Option.bind_some]
  dsimp only
  rw [if_neg (by omega), hidBytes, hstateBytes, htagBytes]

/-- Everything a sealed value says can be read off its bytes. -/
theorem layout_injective {held other : Sealed} (hid : held.id.length ≤ 64)
    (hid' : other.id.length ≤ 64) (htag : held.tag.length = other.tag.length)
    (h : layout held = layout other) : held = other := by
  obtain ⟨id, expires, state, tag⟩ := held
  obtain ⟨id', expires', state', tag'⟩ := other
  rw [layout, layout] at h
  dsimp only at hid hid' htag h
  obtain ⟨hidLength, hrest⟩ :=
    List.append_inj (List.cons.inj h).2 (by simp only [Bits.length_bigEndian])
  have hlengths : id.length = id'.length := by
    rw [Nat.mod_eq_of_lt (by omega), Nat.mod_eq_of_lt (by omega)] at hidLength
    exact Bits.bigEndian_injective (by omega) (by omega) hidLength
  obtain ⟨hsameId, hrest⟩ := List.append_inj hrest hlengths
  obtain ⟨hexpires, hrest⟩ := List.append_inj hrest (by simp only [Bits.length_bigEndian])
  have hsameExpires : expires = expires' := by
    have hvalue := @Bits.bigEndian_injective 8 _ _ expires.toUInt64.toNat_lt
      expires'.toUInt64.toNat_lt hexpires
    rw [← Int64.toInt64_toUInt64 expires, UInt64.toNat_inj.mp hvalue, Int64.toInt64_toUInt64]
  obtain ⟨-, hrest⟩ := List.append_inj hrest (by simp only [Bits.length_bigEndian])
  obtain ⟨hsameState, hsameTag⟩ := List.append_inj' hrest htag
  rw [hsameId, hsameExpires, hsameState, hsameTag]

/-! ### The keys of a sealer -/

theorem checkKeys_eq_ok {keys : List Key} {ids : List Bytes} (h : checkKeys keys ids = .ok ()) :
    (∀ key ∈ keys, validKeyId key.id ∧ key.id ∉ ids) ∧ (keys.map Key.id).Nodup := by
  induction keys generalizing ids with
  | nil => exact ⟨by simp, List.nodup_nil⟩
  | cons key rest ih =>
      rw [checkKeys] at h
      split_ifs at h with hvalid hsecret hseen
      obtain ⟨hrest, hnodup⟩ := ih h
      rw [Bool.not_eq_true', Bool.not_eq_false] at hvalid
      refine ⟨fun other hother => ?_, ?_⟩
      · obtain rfl | hother := List.mem_cons.mp hother
        · exact ⟨hvalid, hseen⟩
        · exact ⟨(hrest other hother).1, fun hin => (hrest other hother).2 (List.mem_cons_of_mem _ hin)⟩
      · refine List.nodup_cons.mpr ⟨fun hin => ?_, hnodup⟩
        obtain ⟨other, hother, hid⟩ := List.mem_map.mp hin
        exact (hrest other hother).2 (hid ▸ List.mem_cons_self)

theorem checkKeys_keys (sealer : RequestStateSealer) : checkKeys sealer.keys [] = .ok () := by
  have h := sealer.accepted
  rw [checkArguments, if_neg sealer.keys_ne_nil] at h
  cases hkeys : checkKeys sealer.keys [] with
  | ok => rfl
  | error message => rw [hkeys] at h; cases h

theorem length_id_le (sealer : RequestStateSealer) {key : Key} (h : key ∈ sealer.keys) :
    key.id.length ≤ 64 := by
  have hvalid := ((checkKeys_eq_ok sealer.checkKeys_keys).1 key h).1
  simp only [validKeyId, decide_eq_true_eq] at hvalid
  omega

theorem mem_of_keyFor {keys : List Key} {id : Bytes} {key : Key} (h : keyFor keys id = some key) :
    key ∈ keys ∧ key.id = id := by
  induction keys using List.reverseRecOn with
  | nil => cases h
  | append_singleton keys last ih =>
      rw [keyFor, List.foldl_append, List.foldl_cons, List.foldl_nil] at h
      by_cases hlast : last.id = id
      · rw [if_pos hlast] at h
        cases h
        exact ⟨List.mem_append_right _ (List.mem_singleton_self _), hlast⟩
      · rw [if_neg hlast] at h
        exact ⟨List.mem_append_left _ (ih h).1, (ih h).2⟩

theorem exists_keyFor {keys : List Key} {key : Key} (h : key ∈ keys) :
    ∃ found, keyFor keys key.id = some found := by
  induction keys using List.reverseRecOn with
  | nil => cases h
  | append_singleton keys last ih =>
      rw [keyFor, List.foldl_append, List.foldl_cons, List.foldl_nil]
      by_cases hlast : last.id = key.id
      · exact ⟨last, if_pos hlast⟩
      · rw [if_neg hlast]
        obtain hin | hin := List.mem_append.mp h
        · exact ih hin
        · exact absurd (congrArg Key.id (List.mem_singleton.mp hin).symm) hlast

theorem keyFor_eq_some_iff (sealer : RequestStateSealer) (id : Bytes) (key : Key) :
    keyFor sealer.keys id = some key ↔ key ∈ sealer.keys ∧ key.id = id := by
  refine ⟨mem_of_keyFor, ?_⟩
  rintro ⟨hmem, rfl⟩
  obtain ⟨found, hfound⟩ := exists_keyFor hmem
  obtain ⟨hfoundMem, hid⟩ := mem_of_keyFor hfound
  have hnodup := (checkKeys_eq_ok sealer.checkKeys_keys).2
  rw [hfound, List.inj_on_of_nodup_map hnodup hfoundMem hmem hid]

/-! ### What is signed -/

theorem appendField_eq (out field : Bytes) : appendField out field = out ++ appendField [] field := by
  rw [appendField, appendField, appendU32_eq, appendU32_eq, List.nil_append, List.append_assoc]

theorem length_appendField (field : Bytes) : (appendField [] field).length = 4 + field.length := by
  rw [appendField, appendU32_eq, List.nil_append, List.length_append, Bits.length_bigEndian]

theorem appendField_injective {field other : Bytes} (h : appendField [] field = appendField [] other) :
    field = other := by
  rw [appendField, appendField, appendU32_eq, appendU32_eq] at h
  exact (List.append_inj h (by simp only [List.length_append, Bits.length_bigEndian])).2

theorem signedInput_eq (key : Key) (expires : Int64) (state principal method : Bytes)
    (digest : Digest) :
    signedInput key expires state principal method digest =
      appendI64 (appendField (appendField [] kTagLabel ++ [kVersion]) key.id) expires ++
        (appendField [] principal ++ appendField [] method) ++
          (appendField [] digest.val ++ appendField [] state) := by
  rw [signedInput, appendField_eq _ state, appendField_eq _ digest.val, appendField_eq _ method,
    appendField_eq _ principal]
  simp only [List.append_assoc]

/-- No other principal and method have the same fields, one after the other. -/
def Unambiguous (principal method : Bytes) : Prop :=
  ∀ principal' method', appendField [] principal' ++ appendField [] method' =
    appendField [] principal ++ appendField [] method → principal' = principal ∧ method' = method

/-- Fields whose lengths fit run together with no others. -/
theorem unambiguous_of_short {principal method : Bytes} (hprincipal : principal.length < 2 ^ 32)
    (hmethod : method.length < 2 ^ 32) : Unambiguous principal method := by
  intro principal' method' h
  have hlengths := congrArg List.length h
  simp only [List.length_append, length_appendField] at hlengths
  have hfront : principal'.length % 2 ^ 32 = principal.length % 2 ^ 32 := by
    simp only [appendField, appendU32_eq, List.nil_append, List.append_assoc] at h
    exact Bits.bigEndian_injective (Nat.mod_lt _ (by decide)) (Nat.mod_lt _ (by decide))
      (List.append_inj h (by simp only [Bits.length_bigEndian])).1
  have hsame : principal'.length = principal.length := by omega
  obtain ⟨hfirst, hsecond⟩ := List.append_inj h (by
    rw [length_appendField, length_appendField, hsame])
  exact ⟨appendField_injective hfirst, appendField_injective hsecond⟩

/-- Under one key id, expiry and state, equal inputs have equal digests and equal fields. -/
theorem signedInput_inj {key other : Key} {expires : Int64}
    {state principal method principal' method' : Bytes} {digest digest' : Digest}
    (hid : other.id = key.id) :
    signedInput other expires state principal' method' digest' =
        signedInput key expires state principal method digest ↔
      appendField [] principal' ++ appendField [] method' =
          appendField [] principal ++ appendField [] method ∧ digest' = digest := by
  rw [signedInput_eq, signedInput_eq, hid]
  constructor
  · intro h
    have hdigestLength : digest'.val.length = digest.val.length := digest'.2.trans digest.2.symm
    obtain ⟨hfront, hback⟩ := List.append_inj' h (by
      simp only [List.length_append, length_appendField, hdigestLength])
    refine ⟨List.append_cancel_left hfront, Subtype.ext ?_⟩
    exact appendField_injective (List.append_cancel_right hback)
  · rintro ⟨hfields, rfl⟩
    rw [hfields]

/-! ### Opening -/

variable (library : SealingLibrary)

theorem sealWith_eq (key : Key) (expires : Int64) (state : Bytes) (context : RequestStateContext) :
    sealWith library key expires state context =
      (tagFor library key expires state context).map fun tag =>
        Base64Url.base64url (layout ⟨key.id, expires, state, tag.val⟩) := by
  have hlayout : ∀ tag : Digest,
      appendField (appendI64 (appendField [kVersion] key.id) expires) state ++ tag.val =
        layout ⟨key.id, expires, state, tag.val⟩ := by
    intro tag
    simp only [layout, appendField, appendU32_eq, appendI64_eq, List.append_assoc,
      List.cons_append, List.nil_append]
  rw [sealWith]
  cases tagFor library key expires state context with
  | none => rfl
  | some tag => rw [Option.map_some, ← hlayout]; rfl

/-- What opens is the sealed form of the state, under a listed key and an expiry still to come. -/
theorem openSealed_eq_some_iff (sealer : RequestStateSealer) (now : Int64) (sealed : Bytes)
    (context : RequestStateContext) (state : Bytes) :
    openSealed library sealer now sealed context = some state ↔
      state.length < 2 ^ 32 ∧ ∃ key ∈ sealer.keys, ∃ expires, secondsOf now < expires ∧
        sealWith library key expires state context = some sealed := by
  constructor
  · intro h
    obtain ⟨bytes, hbytes, h⟩ := Option.bind_eq_some_iff.mp h
    obtain ⟨held, hheld, h⟩ := Option.bind_eq_some_iff.mp h
    obtain ⟨key, hkey, h⟩ := Option.bind_eq_some_iff.mp h
    obtain ⟨tag, htag, h⟩ := Option.bind_eq_some_iff.mp h
    split_ifs at h with hwrong hlate
    rw [ne_eq, not_not] at hwrong
    cases h
    obtain ⟨hlayout, -, hstate, -⟩ := layout_of_readSealed hheld
    obtain ⟨hmem, hid⟩ := mem_of_keyFor hkey
    refine ⟨hstate, key, hmem, held.expires, Int64.not_le.mp hlate, ?_⟩
    rw [sealWith_eq, htag, Option.map_some, hid, ← hwrong, ← hlayout,
      ← (Base64Url.fromBase64url_eq_some_iff sealed bytes).mp hbytes]
  · rintro ⟨hstate, key, hmem, expires, hearly, hsealed⟩
    rw [sealWith_eq] at hsealed
    obtain ⟨tag, htag, hsealed⟩ := Option.map_eq_some_iff.mp hsealed
    have hread := @readSealed_layout ⟨key.id, expires, state, tag.val⟩
      (sealer.length_id_le hmem) hstate tag.2
    have hkey := (keyFor_eq_some_iff sealer key.id key).mpr ⟨hmem, rfl⟩
    have hbytes := (Base64Url.fromBase64url_eq_some_iff sealed _).mpr hsealed.symm
    rw [openSealed, hbytes, Option.bind_eq_bind, Option.bind_some, hread, Option.bind_eq_bind,
      Option.bind_some]
    dsimp only
    rw [hkey, Option.bind_eq_bind, Option.bind_some, htag, Option.bind_eq_bind, Option.bind_some,
      if_neg (not_not.mpr rfl), if_neg (Int64.not_le.mpr hearly)]

/-- When a sealed value opens: under a key of the same id, before the expiry, and with the same tag. -/
theorem openSealed_sealWith {key : Key} {expires : Int64} {state sealed : Bytes}
    {context : RequestStateContext} (hid : key.id.length ≤ 64)
    (hsealed : sealWith library key expires state context = some sealed)
    (opener : RequestStateSealer) (later : Int64) (presented : RequestStateContext)
    (opened : Bytes) :
    openSealed library opener later sealed presented = some opened ↔
      opened = state ∧ state.length < 2 ^ 32 ∧ secondsOf later < expires ∧
        ∃ other ∈ opener.keys, other.id = key.id ∧
          tagFor library other expires state presented = tagFor library key expires state context := by
  rw [openSealed_eq_some_iff]
  rw [sealWith_eq] at hsealed
  obtain ⟨tag, htag, hsealed⟩ := Option.map_eq_some_iff.mp hsealed
  constructor
  · rintro ⟨hstate, other, hmem, expires', hearly, hother⟩
    rw [sealWith_eq] at hother
    obtain ⟨tag', htag', hother⟩ := Option.map_eq_some_iff.mp hother
    have hbytes : layout ⟨other.id, expires', opened, tag'.val⟩ =
        layout ⟨key.id, expires, state, tag.val⟩ := by
      have hread := (Base64Url.fromBase64url_eq_some_iff sealed _).mpr hother.symm
      rw [(Base64Url.fromBase64url_eq_some_iff sealed _).mpr hsealed.symm] at hread
      exact (Option.some.inj hread).symm
    have hsame := layout_injective (opener.length_id_le hmem) hid (tag'.2.trans tag.2.symm) hbytes
    obtain ⟨hsameId, rfl, rfl, hsameTag⟩ := Sealed.mk.inj hsame
    refine ⟨rfl, hstate, hearly, other, hmem, hsameId, ?_⟩
    rw [htag', htag, Subtype.ext hsameTag]
  · rintro ⟨rfl, hstate, hearly, other, hmem, hsameId, hsameTag⟩
    refine ⟨hstate, other, hmem, expires, hearly, ?_⟩
    rw [sealWith_eq, hsameTag, htag, Option.map_some, hsameId, hsealed]

/-! ### What the sealer promises -/

/-- A request and its retry: the same caller, method and digest of the params. -/
def SameRequest (presented context : RequestStateContext) : Prop :=
  presented.principal = context.principal ∧ presented.method = context.method ∧
    paramsDigest library presented.params = paramsDigest library context.params

/-- Two different pairs of a secret and an input have one tag, under a key of the same id. -/
def Collides (opener : RequestStateSealer) (key : Key) (expires : Int64) (state : Bytes)
    (presented context : RequestStateContext) : Prop :=
  ∃ other ∈ opener.keys, other.id = key.id ∧ ∃ digest digest',
    paramsDigest library context.params = some digest ∧
    paramsDigest library presented.params = some digest' ∧
    (other.secret, signedInput other expires state presented.principal presented.method digest') ≠
      (key.secret, signedInput key expires state context.principal context.method digest) ∧
    library.hmac other.secret
        (signedInput other expires state presented.principal presented.method digest') =
      library.hmac key.secret
        (signedInput key expires state context.principal context.method digest)

/-- The state that was sealed, and only it, is opened for the same request, while the key that sealed
it is listed and the expiry is to come; for anything else it takes a collision of the MAC. -/
def OpensExactly (sealer : RequestStateSealer) (state : Bytes) (context : RequestStateContext) :
    Prop :=
  ∀ now sealed, sealState library sealer now state context = some sealed →
    ∀ (opener : RequestStateSealer) (later : Int64) (presented : RequestStateContext),
      (SameRequest library presented context ∧ sealer.front ∈ opener.keys ∧
          secondsOf later < sealer.expiryAt now →
        openSealed library opener later sealed presented = some state) ∧
      ∀ opened, openSealed library opener later sealed presented = some opened →
        opened = state ∧ secondsOf later < sealer.expiryAt now ∧
          (SameRequest library presented context ∧ sealer.front ∈ opener.keys ∨
            Collides library opener sealer.front (sealer.expiryAt now) state presented context)

theorem front_mem (sealer : RequestStateSealer) : sealer.front ∈ sealer.keys :=
  List.head_mem sealer.keys_ne_nil

theorem tagFor_eq_of_sameRequest {presented context : RequestStateContext}
    (h : SameRequest library presented context) (key : Key) (expires : Int64) (state : Bytes) :
    tagFor library key expires state presented = tagFor library key expires state context := by
  rw [tagFor, tagFor, h.1, h.2.1, h.2.2]

theorem opensExactly_of_unambiguous {sealer : RequestStateSealer} {state : Bytes}
    {context : RequestStateContext}
    (hcondition : (paramsDigest library context.params).isSome → state.length < 2 ^ 32 ∧
      Unambiguous context.principal context.method) :
    OpensExactly library sealer state context := by
  intro now sealed hsealed opener later presented
  have hid := sealer.length_id_le sealer.front_mem
  have hopens := openSealed_sealWith library hid hsealed opener later presented
  have hdigest : (paramsDigest library context.params).isSome := by
    rw [sealState, sealWith_eq] at hsealed
    obtain ⟨tag, htag, -⟩ := Option.map_eq_some_iff.mp hsealed
    obtain ⟨digest, hdigest, -⟩ := Option.map_eq_some_iff.mp htag
    rw [hdigest]
    rfl
  obtain ⟨hstate, hfields⟩ := hcondition hdigest
  constructor
  · rintro ⟨hsame, hlisted, hearly⟩
    exact (hopens state).mpr ⟨rfl, hstate, hearly, sealer.front, hlisted, rfl,
      tagFor_eq_of_sameRequest library hsame _ _ _⟩
  · intro opened hopened
    obtain ⟨rfl, -, hearly, other, hmem, hsameId, htag⟩ := (hopens opened).mp hopened
    refine ⟨rfl, hearly, ?_⟩
    obtain ⟨digest, hdigest⟩ := Option.isSome_iff_exists.mp hdigest
    rw [tagFor, tagFor, hdigest, Option.map_some, Option.map_eq_some_iff] at htag
    obtain ⟨digest', hdigest', hmac⟩ := htag
    by_cases hinput : (other.secret, signedInput other (sealer.expiryAt now) opened
        presented.principal presented.method digest') =
      (sealer.front.secret, signedInput sealer.front (sealer.expiryAt now) opened
        context.principal context.method digest)
    · left
      obtain ⟨hsecret, hsigned⟩ := Prod.mk.inj hinput
      obtain ⟨hboth, rfl⟩ := (signedInput_inj hsameId).mp hsigned
      obtain ⟨hprincipal, hmethod⟩ := hfields _ _ hboth
      have hkey : other = sealer.front := by
        cases other
        cases hfront : sealer.front
        rw [hfront] at hsameId hsecret
        exact Key.mk.injEq .. ▸ ⟨hsameId, hsecret⟩
      exact ⟨⟨hprincipal, hmethod, hdigest'.trans hdigest.symm⟩, hkey ▸ hmem⟩
    · right
      exact ⟨other, hmem, hsameId, digest, digest', hdigest, hdigest', hinput, hmac⟩

/-- A moment whose seal expires at second 0. -/
def momentFor (sealer : RequestStateSealer) : Int64 := -(sealer.lifetime * 1000000000)

theorem expiryAt_momentFor (sealer : RequestStateSealer) :
    sealer.expiryAt sealer.momentFor = 0 := by
  rw [expiryAt, momentFor, Int64.add_left_neg]
  rfl

theorem exists_sealed {context : RequestStateContext}
    (h : (paramsDigest library context.params).isSome) (sealer : RequestStateSealer) (now : Int64)
    (state : Bytes) : ∃ sealed, sealState library sealer now state context = some sealed := by
  obtain ⟨digest, hdigest⟩ := Option.isSome_iff_exists.mp h
  rw [sealState, sealWith_eq, tagFor, hdigest, Option.map_some, Option.map_some]
  exact ⟨_, rfl⟩

theorem unambiguous_of_opensExactly {sealer : RequestStateSealer} {state : Bytes}
    {context : RequestStateContext} (h : OpensExactly library sealer state context)
    (hdigest : (paramsDigest library context.params).isSome) :
    state.length < 2 ^ 32 ∧ Unambiguous context.principal context.method := by
  obtain ⟨sealed, hsealed⟩ := exists_sealed library hdigest sealer sealer.momentFor state
  have hid := sealer.length_id_le sealer.front_mem
  have hearly : secondsOf (-1000000000) < sealer.expiryAt sealer.momentFor := by
    rw [expiryAt_momentFor]
    decide
  have hstate : state.length < 2 ^ 32 := by
    have hopened := (h _ _ hsealed sealer (-1000000000) context).1
      ⟨⟨rfl, rfl, rfl⟩, sealer.front_mem, hearly⟩
    exact ((openSealed_sealWith library hid hsealed _ _ _ _).mp hopened).2.1
  refine ⟨hstate, fun principal method hboth => ?_⟩
  -- a request whose fields run together just so
  let presented : RequestStateContext := ⟨principal, method, context.params⟩
  have htag : tagFor library sealer.front (sealer.expiryAt sealer.momentFor) state presented =
      tagFor library sealer.front (sealer.expiryAt sealer.momentFor) state context := by
    rw [tagFor, tagFor]
    refine congrArg (Option.map · (paramsDigest library context.params)) (funext fun digest => ?_)
    rw [(signedInput_inj rfl).mpr ⟨hboth, rfl⟩]
  have hopened := (openSealed_sealWith library hid hsealed sealer (-1000000000) presented state).mpr
    ⟨rfl, hstate, hearly, sealer.front, sealer.front_mem, rfl, htag⟩
  obtain ⟨-, -, ⟨hsame, -⟩ | hcollides⟩ := (h _ _ hsealed sealer _ presented).2 state hopened
  · exact ⟨hsame.1, hsame.2.1⟩
  · obtain ⟨other, hmem, hsameId, digest, digest', hdigest, hdigest', hdiffer, -⟩ := hcollides
    have hother : other = sealer.front :=
      List.inj_on_of_nodup_map (checkKeys_eq_ok sealer.checkKeys_keys).2 hmem sealer.front_mem
        hsameId
    rw [hdigest] at hdigest'
    cases hdigest'
    exact absurd (by rw [hother, (signedInput_inj rfl).mpr ⟨hboth, rfl⟩]) hdiffer

/-- What opens was sealed byte for byte so, for this context; and a state opens exactly as it was
sealed if and only if it is shorter than 2^32 bytes and the fields of its context are those of no
other. -/
theorem openSealed_exact :
    (∀ sealer now sealed context state,
      openSealed library sealer now sealed context = some state →
        ∃ key ∈ sealer.keys, ∃ expires, secondsOf now < expires ∧
          sealWith library key expires state context = some sealed) ∧
    ∀ sealer state context, OpensExactly library sealer state context ↔
      ((paramsDigest library context.params).isSome → state.length < 2 ^ 32 ∧
        Unambiguous context.principal context.method) := by
  refine ⟨fun sealer now sealed context state h => ?_, fun sealer state context => ⟨?_, ?_⟩⟩
  · exact ((openSealed_eq_some_iff library sealer now sealed context state).mp h).2
  · exact unambiguous_of_opensExactly library
  · exact opensExactly_of_unambiguous library

/-! ### A state of 2^32 bytes -/

def plainLibrary : SealingLibrary where
  hmac _ _ := ⟨List.replicate 32 0, rfl⟩
  sha256 _ := ⟨List.replicate 32 0, rfl⟩
  toString _ := some []

def plainKey : Key := ⟨ascii "k", List.replicate 32 0⟩

def plainSealer : RequestStateSealer where
  keys := [plainKey]
  lifetime := 300
  accepted := by decide

def plainContext : RequestStateContext := ⟨[], ascii "tools/call", JsonValue.null⟩

/-- Sealed and presented at once, to the same sealer and for the same request, it is not opened. -/
theorem openSealed_long_state :
    ∃ sealed, sealState plainLibrary plainSealer 0 (List.replicate (2 ^ 32) 0) plainContext =
        some sealed ∧
      secondsOf 0 < plainSealer.expiryAt 0 ∧
      openSealed plainLibrary plainSealer 0 sealed plainContext = none := by
  obtain ⟨sealed, hsealed⟩ := @exists_sealed plainLibrary plainContext rfl plainSealer 0
    (List.replicate (2 ^ 32) 0)
  refine ⟨sealed, hsealed, by decide, ?_⟩
  cases hopened : openSealed plainLibrary plainSealer 0 sealed plainContext with
  | none => rfl
  | some opened =>
      have hid := plainSealer.length_id_le plainSealer.front_mem
      have hlength := ((openSealed_sealWith plainLibrary hid hsealed _ _ _ _).mp hopened).2.1
      rw [List.length_replicate] at hlength
      exact absurd hlength (Nat.lt_irrefl _)

end RequestStateSealer

end GopherMcp
