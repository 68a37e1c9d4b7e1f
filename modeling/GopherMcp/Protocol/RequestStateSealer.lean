import GopherMcp.Json.Value
import GopherMcp.Lib.Bits
import GopherMcp.Protocol.Base64Url

/-!
# Sealed request states

A server's request state goes out through the client and comes back through it. It travels as the
base64url of a version, a key id, an expiry, the state and a tag, and the tag is a MAC over all of
these and over who asked and what. The key that is named opens it, if the tag is right and the expiry
is still to come.

The hash functions and the writer of JSON text belong to other libraries and are parameters.
-/

namespace GopherMcp

/-! ### Fields -/

namespace RequestStateSealer

def kVersion : UInt8 := 1
def kTagLabel : Bytes := ascii "mcp-request-state"
def kTagBytes : Nat := 32
def kMinSecretBytes : Nat := 32

def appendU32 (out : Bytes) (n : Nat) : Bytes :=
  out ++ [24, 16, 8, 0].map fun shift => UInt8.ofNat (n >>> shift &&& 0xff)

def appendI64 (out : Bytes) (n : Int64) : Bytes :=
  let u := n.toUInt64.toNat
  out ++ [56, 48, 40, 32, 24, 16, 8, 0].map fun shift => UInt8.ofNat (u >>> shift &&& 0xff)

/-- The bytes from `at` on, put together as a number; the place after them goes on. -/
def readBytes (width : Nat) (input : Bytes) (place : Nat) : Option (Nat × Nat) :=
  if input.length < place + width then none
  else
    some (((input.drop place).take width).foldl (fun v byte => v <<< 8 ||| byte.toNat) 0,
      place + width)

def readU32 : Bytes → Nat → Option (Nat × Nat) := readBytes 4

def readI64 (input : Bytes) (place : Nat) : Option (Int64 × Nat) :=
  (readBytes 8 input place).map fun (v, next) => ((UInt64.ofNat v).toInt64, next)

/-- Length first, so no two different fields can run together. The length is cast to 32 bits. -/
def appendField (out field : Bytes) : Bytes := appendU32 out (field.length % 2 ^ 32) ++ field

/-! ### Sealing and opening -/

structure Key where
  id : Bytes
  secret : Bytes
  deriving DecidableEq

end RequestStateSealer

structure RequestStateContext where
  principal : Bytes
  method : Bytes
  params : JsonValue

namespace RequestStateSealer

def isKeyIdChar (c : UInt8) : Bool :=
  (65 ≤ c ∧ c ≤ 90) ∨ (97 ≤ c ∧ c ≤ 122) ∨ (48 ≤ c ∧ c ≤ 57) ∨ c = 45 ∨ c = 95

def validKeyId (id : Bytes) : Bool := ¬(id = [] ∨ 64 < id.length) ∧ id.all isKeyIdChar

/-- The loop of the constructor over the keys; `ids` are those it has seen. -/
def checkKeys : List Key → List Bytes → Except Bytes Unit
  | [], _ => .ok ()
  | key :: rest, ids =>
      if !validKeyId key.id then
        .error (ascii "request-state key id '" ++ key.id ++
          ascii "' must be 1-64 letters, digits, - or _")
      else if key.secret.length < kMinSecretBytes then
        .error (ascii "request-state key '" ++ key.id ++
          ascii "' needs a secret of at least 32 bytes")
      else if key.id ∈ ids then
        .error (ascii "two request-state keys share the id '" ++ key.id ++ ascii "'")
      else checkKeys rest (key.id :: ids)

/-- What the constructor throws `std::invalid_argument` for. -/
def checkArguments (keys : List Key) (lifetime : Int64) : Except Bytes Unit :=
  if keys = [] then .error (ascii "a request-state sealer needs a key")
  else do
    checkKeys keys []
    if lifetime ≤ 0 then .error (ascii "a sealed request state needs a lifetime") else .ok ()

end RequestStateSealer

/-- A sealer that was constructed. The lifetime is in seconds. -/
structure RequestStateSealer where
  keys : List RequestStateSealer.Key
  lifetime : Int64
  accepted : RequestStateSealer.checkArguments keys lifetime = .ok ()

/-- What OpenSSL and the JSON library compute. `toString` throws for a string that is not UTF-8. -/
structure SealingLibrary where
  hmac : Bytes → Bytes → Digest
  sha256 : Bytes → Digest
  toString : JsonValue → Option Bytes

namespace RequestStateSealer

/-- The params a request and its retry share. -/
def salientParams (params : JsonValue) : JsonValue :=
  if params.isObject then
    params.keys.foldl (fun salient key =>
      if key = ascii "requestState" ∨ key = ascii "inputResponses" ∨ key = ascii "_meta" then salient
      else salient.set key (params.get key)) JsonValue.emptyObject
  else JsonValue.emptyObject

variable (library : SealingLibrary)

def paramsDigest (params : JsonValue) : Option Digest :=
  (library.toString (salientParams params)).map library.sha256

/-- Everything the state is bound to. The principal, method and params are not carried in the sealed
value; they are only signed, and supplied again by whoever opens it. -/
def signedInput (key : Key) (expires : Int64) (state : Bytes) (principal method : Bytes)
    (digest : Digest) : Bytes :=
  let out := appendField [] kTagLabel
  let out := out ++ [kVersion]
  let out := appendField out key.id
  let out := appendI64 out expires
  let out := appendField out principal
  let out := appendField out method
  let out := appendField out digest.val
  appendField out state

def tagFor (key : Key) (expires : Int64) (state : Bytes) (context : RequestStateContext) :
    Option Digest :=
  (paramsDigest library context.params).map fun digest =>
    library.hmac key.secret
      (signedInput key expires state context.principal context.method digest)

/-- A count of `system_clock` ticks, which are nanoseconds, cast to seconds. -/
def secondsOf (ticks : Int64) : Int64 := ticks / 1000000000

/-- Version, key id, expiry, state, tag. -/
def sealWith (key : Key) (expires : Int64) (state : Bytes) (context : RequestStateContext) :
    Option Bytes := do
  let sealed := [kVersion]
  let sealed := appendField sealed key.id
  let sealed := appendI64 sealed expires
  let sealed := appendField sealed state
  let tag ← tagFor library key expires state context
  return Base64Url.base64url (sealed ++ tag.val)

theorem keys_ne_nil (sealer : RequestStateSealer) : sealer.keys ≠ [] := by
  intro hnil
  have h := sealer.accepted
  rw [checkArguments, if_pos hnil] at h
  cases h

/-- `keys_.front()`. -/
def front (sealer : RequestStateSealer) : Key := sealer.keys.head sealer.keys_ne_nil

/-- When what is sealed at `now` expires. -/
def expiryAt (sealer : RequestStateSealer) (now : Int64) : Int64 :=
  secondsOf (now + sealer.lifetime * 1000000000)

/-- `seal`, the clock reading `now`. -/
def sealState (sealer : RequestStateSealer) (now : Int64) (state : Bytes)
    (context : RequestStateContext) : Option Bytes :=
  sealWith library sealer.front (sealer.expiryAt now) state context

/-- The loop over the keys: the last one of that id. -/
def keyFor (keys : List Key) (id : Bytes) : Option Key :=
  keys.foldl (fun key candidate => if candidate.id = id then some candidate else key) none

/-- What the bytes of a sealed value say, before any of it is believed. -/
structure Sealed where
  id : Bytes
  expires : Int64
  state : Bytes
  tag : Bytes

/-- The first half of `open`: version, key id, expiry and state, and a tag to the end. -/
def readSealed (bytes : Bytes) : Option Sealed :=
  if bytes.head? ≠ some kVersion then none
  else do
    let (idLength, place) ← readU32 bytes 1
    if 64 < idLength ∨ bytes.length < place + idLength then none
    else
      let id := (bytes.drop place).take idLength
      let (expires, place) ← readI64 bytes (place + idLength)
      let (stateLength, place) ← readU32 bytes place
      if bytes.length ≠ place + stateLength + kTagBytes then none
      else
        let state := (bytes.drop place).take stateLength
        let tag := bytes.drop (place + stateLength)
        some { id, expires, state, tag }

/-- `open`, the clock reading `now`. The tag comes first, so nothing about the contents is believed
before it is known to be ours. -/
def openSealed (sealer : RequestStateSealer) (now : Int64) (sealed : Bytes)
    (context : RequestStateContext) : Option Bytes := do
  let bytes ← Base64Url.fromBase64url sealed
  let held ← readSealed bytes
  let key ← keyFor sealer.keys held.id
  let expected ← tagFor library key held.expires held.state context
  if held.tag ≠ expected.val then none
  else if held.expires ≤ secondsOf now then none
  else some held.state

end RequestStateSealer

end GopherMcp
