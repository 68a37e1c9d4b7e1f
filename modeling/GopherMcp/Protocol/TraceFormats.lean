import GopherMcp.Core.Bytes

/-!
# The formats of trace context

W3C Trace Context and W3C Baggage, as strictly as a value is checked before it is sent or believed.
-/

namespace GopherMcp

namespace Trace

/-! ### Characters -/

def isDigit (c : UInt8) : Bool := '0'.toUInt8 ≤ c && c ≤ '9'.toUInt8
def isLowerAlpha (c : UInt8) : Bool := 'a'.toUInt8 ≤ c && c ≤ 'z'.toUInt8
def isLowerHex (c : UInt8) : Bool := isDigit c || ('a'.toUInt8 ≤ c && c ≤ 'f'.toUInt8)
def isHex (c : UInt8) : Bool := isLowerHex c || ('A'.toUInt8 ≤ c && c ≤ 'F'.toUInt8)
def isOws (c : UInt8) : Bool := c = ' '.toUInt8 || c = '\t'.toUInt8

/-- `substr`, on an index within the value. -/
def substr (value : Bytes) (start count : Nat) : Bytes := (value.drop start).take count

def trimmed (value : Bytes) : Bytes := (value.dropWhile isOws).rdropWhile isOws

/-- What stands before the first separator and what stands after it, if there is one. -/
def cut (value : Bytes) (separator : UInt8) : Option (Bytes × Bytes) :=
  if value.contains separator then
    some (value.takeWhile (· ≠ separator), (value.dropWhile (· ≠ separator)).drop 1)
  else none

def split (value : Bytes) (separator : UInt8) : List Bytes := value.splitOn separator

/-! ### traceparent -/

/-- version "-" trace-id "-" parent-id "-" flags. A later version may append fields after another "-". -/
def isValidTraceParent (value : Bytes) : Bool :=
  let dashAt (index : Nat) := value[index]? = some '-'.toUInt8
  let lowerHexAt (start count : Nat) := (substr value start count).all isLowerHex
  let zeroAt (start count : Nat) := (substr value start count).all (· = '0'.toUInt8)
  let version := substr value 0 2
  if value.length < 55 || !dashAt 2 || !dashAt 35 || !dashAt 52 then false
  else if !lowerHexAt 0 2 || !lowerHexAt 3 32 || !lowerHexAt 36 16 || !lowerHexAt 53 2 then false
  else if version = ascii "ff" then false
  else if (if version = ascii "00" then value.length ≠ 55 else 55 < value.length && !dashAt 55) then false
  else !zeroAt 3 32 && !zeroAt 36 16

/-! ### tracestate -/

def isKeyChar (c : UInt8) : Bool := isLowerAlpha c || isDigit c || (ascii "_-*/").contains c

/-- A first character, then up to `more` key characters. -/
def isKeyPart (part : Bytes) (firstMayBeDigit : Bool) (more : Nat) : Bool :=
  match part with
  | [] => false
  | first :: rest =>
      rest.length ≤ more && (isLowerAlpha first || (firstMayBeDigit && isDigit first)) && rest.all isKeyChar

/-- A simple key, or tenant@system. -/
def isTraceStateKey (key : Bytes) : Bool :=
  match cut key '@'.toUInt8 with
  | none => isKeyPart key true 255
  | some (tenant, system) => isKeyPart tenant true 240 && isKeyPart system false 13

/-- Printable ASCII but ',' and '=', not ending in a space. -/
def isTraceStateValue (value : Bytes) : Bool :=
  !(value.isEmpty || 256 < value.length || value.getLast? = some ' '.toUInt8) &&
    value.all fun c => !(c < 0x20 || 0x7e < c || c = ','.toUInt8 || c = '='.toUInt8)

/-- The keys of the entries beside the keys already read. An entry of nothing is passed over, and a key
stands only once. -/
def readKeys (keys : List Bytes) : List Bytes → Option (List Bytes)
  | [] => some keys
  | entry :: rest =>
      let member := trimmed entry
      if member = [] then readKeys keys rest
      else
        match cut member '='.toUInt8 with
        | none => none
        | some (key, value) =>
            if !isTraceStateKey key || !isTraceStateValue value || keys.contains key then none
            else readKeys (key :: keys) rest

def isValidTraceState (value : Bytes) : Bool :=
  match readKeys [] (split value ','.toUInt8) with
  | none => false
  | some keys => keys ≠ [] && keys.length ≤ 32

/-! ### baggage -/

def kMaxBaggageMembers : Nat := 64
def kMaxBaggageBytes : Nat := 8192

def isTokenChar (c : UInt8) : Bool :=
  isLowerAlpha c || ('A'.toUInt8 ≤ c && c ≤ 'Z'.toUInt8) || isDigit c || (ascii "!#$%&'*+-.^_`|~").contains c

def isToken (value : Bytes) : Bool := !value.isEmpty && value.all isTokenChar

/-- Printable ASCII but space, '"', ',', ';' and '\'. A '%' only starts a percent-encoded octet. -/
def isBaggageValue : Bytes → Bool
  | [] => true
  | c :: rest =>
      if c < 0x21 || 0x7e < c || (ascii "\",;\\").contains c then false
      else if c = '%'.toUInt8 then
        match rest with
        | high :: low :: after => isHex high && isHex low && isBaggageValue after
        | _ => false
      else isBaggageValue rest

/-- key OWS "=" OWS value, with the value allowed absent only when optional. -/
def isKeyValue (text : Bytes) (valueOptional : Bool) : Bool :=
  match cut text '='.toUInt8 with
  | none => valueOptional && isToken (trimmed text)
  | some (key, value) => isToken (trimmed key) && isBaggageValue (trimmed value)

/-- A key with its value, then properties. -/
def isBaggageMember (member : Bytes) : Bool :=
  match split member ';'.toUInt8 with
  | [] => false
  | first :: properties => isKeyValue first false && properties.all (isKeyValue · true)

def isValidBaggage (value : Bytes) : Bool :=
  if value.isEmpty || kMaxBaggageBytes < value.length then false
  else
    let members := split value ','.toUInt8
    if kMaxBaggageMembers < members.length then false else members.all isBaggageMember

/-! ### What a tracestate that is accepted has -/

end Trace

end GopherMcp
