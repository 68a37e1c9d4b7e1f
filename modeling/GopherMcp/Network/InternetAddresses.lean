import GopherMcp.Http.KeptHeads
import GopherMcp.Http.RequestReader
import GopherMcp.Lib.Delimited

/-!
# Internet addresses

An address with its port is written in one of two forms, and read back by where the colons and the brackets stand. The
port is read by `std::stoi`, which stops where the digits end, and is narrowed to 16 bits: where anything but a port is
written there, some other port may be read.
-/

namespace GopherMcp

open MirroredHeaders (isDigit numberOf)
open HttpRequest (readNumber)

abbrev Ipv4Address := { bytes : Bytes // bytes.length = 4 }

abbrev Ipv6Address := { bytes : Bytes // bytes.length = 16 }

/-- An address as the operating system takes it, in network order. -/
inductive AddressInstance
  | ipv4 (address : Ipv4Address) (port : UInt16)
  | ipv6 (address : Ipv6Address) (port : UInt16)
  | pipe (path : Bytes)
  deriving DecidableEq

/-- `inet_pton` and `inet_ntop`. -/
structure InternetText where
  pton4 : Bytes → Option Ipv4Address
  pton6 : Bytes → Option Ipv6Address
  ntop4 : Ipv4Address → Bytes
  ntop6 : Ipv6Address → Bytes

namespace AddressInstance

def kOpen : UInt8 := 91
def kClose : UInt8 := 93
def kDot : UInt8 := 46

def port : AddressInstance → UInt16
  | ipv4 _ port => port
  | ipv6 _ port => port
  | pipe _ => 0

/-- A C string ends at its first zero. -/
def cString (text : Bytes) : Bytes := text.takeWhile (· ≠ 0)

variable (net : InternetText)

def addressAsString : AddressInstance → Bytes
  | ipv4 address _ => net.ntop4 address
  | ipv6 address _ => net.ntop6 address
  | pipe path => if path.head? = some 0 then ascii "@" ++ path.drop 1 else path

def asString : AddressInstance → Bytes
  | ipv4 address port => net.ntop4 address ++ ascii ":" ++ toDecimal port.toNat
  | ipv6 address port =>
      if (net.ntop6 address).contains kColon then
        ascii "[" ++ net.ntop6 address ++ ascii "]:" ++ toDecimal port.toNat
      else net.ntop6 address ++ ascii ":" ++ toDecimal port.toNat
  | pipe path => addressAsString net (pipe path)

/-- `Ipv4Instance`; none where the constructor throws. -/
def makeIpv4 (address : Bytes) (port : UInt16) : Option AddressInstance :=
  (net.pton4 (cString address)).map fun bytes => ipv4 bytes port

/-- `Ipv6Instance`; none where the constructor throws. -/
def makeIpv6 (address : Bytes) (port : UInt16) : Option AddressInstance :=
  (net.pton6 (cString address)).map fun bytes => ipv6 bytes port

def parseInternetAddressNoPort (address : Bytes) (port : UInt16) : Option AddressInstance :=
  (makeIpv4 net address port).orElse fun _ => makeIpv6 net address port

/-- What stands before the first closing bracket, but for its first byte. -/
def insideBrackets (address : Bytes) : Bytes :=
  if address.head? = some kClose then address.drop 1 else (address.takeWhile (· ≠ kClose)).drop 1

/-- The address before the last colon, with a port. -/
def makeBefore (address before : Bytes) (port : UInt16) : Option AddressInstance :=
  if before.contains kClose then makeIpv6 net (insideBrackets address) port else makeIpv4 net before port

/-- The text is cut at its last colon. -/
def parseInternetAddress (address : Bytes) (defaultPort : UInt16) : Option AddressInstance :=
  match Delimited.cutLast address kColon with
  | none => parseInternetAddressNoPort net address defaultPort
  | some (before, portPart) =>
      if !before.contains kClose && before.contains kColon then makeIpv6 net address defaultPort
      else (stoi portPart).bind fun number => makeBefore net address before (UInt16.ofInt number)

/-! ### What is promised -/

/-- The text that is written for an address is read as it: digits and dots, or hexadecimal digits with colons. -/
def ReadBack : AddressInstance → Prop
  | ipv4 address _ => net.pton4 (net.ntop4 address) = some address ∧ ∀ c ∈ net.ntop4 address, isDigit c ∨ c = kDot
  | ipv6 address _ =>
      net.pton6 (net.ntop6 address) = some address ∧ kColon ∈ net.ntop6 address ∧
        ∀ c ∈ net.ntop6 address, isDigit c ∨ (97 ≤ c ∧ c ≤ 102) ∨ c = kColon ∨ c = kDot
  | pipe _ => False

/-- The text of the port: behind the last colon, if that is the only one or behind the brackets. -/
def portText (address : Bytes) : Option Bytes :=
  (Delimited.cutLast address kColon).bind fun parts =>
    if !parts.1.contains kClose && parts.1.contains kColon then none else some parts.2

/-- A port text is a decimal number that a port can be, and the port. -/
def PortRead (address : Bytes) (result : AddressInstance) : Prop :=
  ∀ text, portText address = some text → ∃ number, readNumber text = some number ∧ number ≤ 65535 ∧
    result.port.toNat = number

/-- Where there is an address, the text behind the colon is a decimal number that a port can be, or no number at all. -/
def PortPlain (address : Bytes) : Prop :=
  ∀ before text, Delimited.cutLast address kColon = some (before, text) → portText address = some text →
    (makeBefore net address before 0).isSome = true → (stoi text).isSome = true →
    ∃ number, readNumber text = some number ∧ number ≤ 65535

/-! ### Ports -/

variable {net} {address before text : Bytes} {port defaultPort : UInt16} {result : AddressInstance} {number : Nat}

theorem stoi_of_readNumber (h : readNumber text = some number) :
    stoi text = if number < 2 ^ 31 then some (number : Int) else none := by
  unfold readNumber at h
  split_ifs at h with hdigits
  rw [Bool.and_eq_true, List.all_eq_true] at hdigits
  obtain rfl := Option.some.inj h
  have hread := @stoi_of_digits text [] (by simpa using hdigits.1) hdigits.2 (by simp)
  rwa [List.append_nil] at hread

theorem toNat_ofInt (hnumber : number ≤ 65535) : (UInt16.ofInt (number : Int)).toNat = number := by
  rw [UInt16.ofInt, UInt16.toNat_ofNat']
  omega

theorem port_makeBefore (h : makeBefore net address before port = some result) : result.port = port := by
  unfold makeBefore makeIpv6 makeIpv4 at h
  split_ifs at h
  · obtain ⟨bytes, -, rfl⟩ := Option.map_eq_some_iff.mp h
    rfl
  · obtain ⟨bytes, -, rfl⟩ := Option.map_eq_some_iff.mp h
    rfl

theorem isSome_makeBefore (net : InternetText) (address before : Bytes) (port : UInt16) :
    (makeBefore net address before port).isSome = (makeBefore net address before 0).isSome := by
  unfold makeBefore makeIpv6 makeIpv4
  split_ifs
  · rw [Option.isSome_map, Option.isSome_map]
  · rw [Option.isSome_map, Option.isSome_map]

/-- An address with a port is what stands before the last colon. -/
theorem parseInternetAddress_of_portText (defaultPort : UInt16)
    (hcut : Delimited.cutLast address kColon = some (before, text)) (htext : portText address = some text) :
    parseInternetAddress net address defaultPort =
      (stoi text).bind fun number => makeBefore net address before (UInt16.ofInt number) := by
  unfold portText at htext
  rw [hcut, Option.bind_some] at htext
  unfold parseInternetAddress
  rw [hcut]
  split_ifs at htext with hplain
  exact if_neg hplain

/-- The port is read as it should be exactly if its text is a plain one. -/
theorem portRead_iff (net : InternetText) (address : Bytes) (defaultPort : UInt16) :
    (∀ result, parseInternetAddress net address defaultPort = some result → PortRead address result) ↔
      PortPlain net address := by
  constructor
  · intro hread before text hcut htext hmade hstoi
    obtain ⟨number, hnumber⟩ := Option.isSome_iff_exists.mp hstoi
    obtain ⟨result, hresult⟩ : ∃ result, makeBefore net address before (UInt16.ofInt number) = some result := by
      rw [← Option.isSome_iff_exists, isSome_makeBefore]
      exact hmade
    have hparsed : parseInternetAddress net address defaultPort = some result := by
      rw [parseInternetAddress_of_portText defaultPort hcut htext, hnumber, Option.bind_some, hresult]
    obtain ⟨decimal, hdecimal, hsmall, -⟩ := hread result hparsed text htext
    exact ⟨decimal, hdecimal, hsmall⟩
  · intro hplain result hparsed text htext
    obtain ⟨⟨before, behind⟩, hcut, hbehind⟩ := Option.bind_eq_some_iff.mp htext
    obtain rfl : behind = text := by
      split_ifs at hbehind
      exact Option.some.inj hbehind
    rw [parseInternetAddress_of_portText defaultPort hcut htext] at hparsed
    obtain ⟨read, hstoi, hmade⟩ := Option.bind_eq_some_iff.mp hparsed
    have hsome : (makeBefore net address before 0).isSome = true := by
      rw [← isSome_makeBefore net address before (UInt16.ofInt read), hmade]
      rfl
    obtain ⟨number, hnumber, hsmall⟩ := hplain before behind hcut htext hsome (by rw [hstoi]; rfl)
    rw [stoi_of_readNumber hnumber, if_pos (by omega), Option.some.injEq] at hstoi
    refine ⟨number, hnumber, hsmall, ?_⟩
    rw [port_makeBefore hmade, ← hstoi, toNat_ofInt hsmall]

/-! ### Reading back -/

theorem cString_of_not_mem (h : 0 ∉ text) : cString text = text := by
  unfold cString
  rw [List.takeWhile_eq_self_iff]
  intro c hc
  rw [decide_eq_true_eq]
  rintro rfl
  exact h hc

theorem not_mem_of_digits {c : UInt8} (hc : ¬ isDigit c) (number : Nat) : c ∉ toDecimal number :=
  fun hmem => hc (MirroredHeaders.isDigit_of_mem_toDecimal hmem)

theorem stoi_port (port : UInt16) : stoi (toDecimal port.toNat) = some (port.toNat : Int) := by
  have hport := port.toNat_lt
  exact stoi_toDecimal (by omega)

theorem ofInt_toNat (port : UInt16) : UInt16.ofInt (port.toNat : Int) = port := by
  have hport := port.toNat_lt
  exact UInt16.toNat_inj.mp (toNat_ofInt (by omega))

theorem parse_asString_ipv4 {bytes : Ipv4Address} (h : ReadBack net (ipv4 bytes port)) :
    parseInternetAddress net (asString net (ipv4 bytes port)) defaultPort = some (ipv4 bytes port) := by
  obtain ⟨hread, hplain⟩ := h
  have hfree (c : UInt8) (hc : ¬ (isDigit c ∨ c = kDot)) : c ∉ net.ntop4 bytes := fun hmem => hc (hplain c hmem)
  have hcut : Delimited.cutLast (asString net (ipv4 bytes port)) kColon =
      some (net.ntop4 bytes, toDecimal port.toNat) := by
    rw [asString, List.append_assoc]
    exact Delimited.cutLast_append (not_mem_of_digits (by decide) _) _
  unfold parseInternetAddress
  rw [hcut]
  dsimp only
  rw [if_neg (by simpa using fun _ => hfree kColon (by decide)), stoi_port, Option.bind_some, ofInt_toNat,
    makeBefore, if_neg (by simpa using hfree kClose (by decide)), makeIpv4,
    cString_of_not_mem (hfree 0 (by decide)), hread, Option.map_some]

theorem parse_asString_ipv6 {bytes : Ipv6Address} (h : ReadBack net (ipv6 bytes port)) :
    parseInternetAddress net (asString net (ipv6 bytes port)) defaultPort = some (ipv6 bytes port) := by
  obtain ⟨hread, hcolon, hplain⟩ := h
  have hfree (c : UInt8) (hc : ¬ (isDigit c ∨ (97 ≤ c ∧ c ≤ 102) ∨ c = kColon ∨ c = kDot)) :
      c ∉ net.ntop6 bytes := fun hmem => hc (hplain c hmem)
  have hstring : asString net (ipv6 bytes port) =
      (kOpen :: net.ntop6 bytes ++ [kClose]) ++ kColon :: toDecimal port.toNat := by
    have hopen : ascii "[" = [kOpen] := rfl
    have hclose : ascii "]:" = [kClose, kColon] := rfl
    rw [asString, if_pos (by simpa using hcolon), hopen, hclose]
    simp
  have hinside : insideBrackets (asString net (ipv6 bytes port)) = net.ntop6 bytes := by
    have hbytes : ∀ c ∈ kOpen :: net.ntop6 bytes, decide (c ≠ kClose) = true := by
      intro c hc
      rw [decide_eq_true_eq]
      rintro rfl
      exact (List.mem_cons.mp hc).elim (by decide) (hfree kClose (by decide))
    rw [hstring, insideBrackets, if_neg (by simp [kOpen, kClose]), List.append_assoc,
      List.takeWhile_append_of_pos hbytes]
    simp
  unfold parseInternetAddress
  rw [hstring, Delimited.cutLast_append (not_mem_of_digits (by decide) _), ← hstring]
  dsimp only
  rw [if_neg (by simp), stoi_port, Option.bind_some, ofInt_toNat, makeBefore, if_pos (by simp), hinside, makeIpv6,
    cString_of_not_mem (hfree 0 (by decide)), hread, Option.map_some]

theorem parse_asString (h : ReadBack net result) (defaultPort : UInt16) :
    parseInternetAddress net (asString net result) defaultPort = some result := by
  cases result with
  | ipv4 bytes port => exact parse_asString_ipv4 h
  | ipv6 bytes port => exact parse_asString_ipv6 h
  | pipe path => exact absurd h id

/-- **Addresses parse back.** An address is read from what is written for it, and a text with a port is read as it
should be exactly if the port is plain. -/
theorem parseInternetAddress_iff (h : ReadBack net result) (address : Bytes) (defaultPort : UInt16) :
    parseInternetAddress net (asString net result) defaultPort = some result ∧
      ((∀ parsed, parseInternetAddress net address defaultPort = some parsed → PortRead address parsed) ↔
        PortPlain net address) :=
  ⟨parse_asString h defaultPort, portRead_iff net address defaultPort⟩

/-- The text of the address of the host itself, in both families. -/
def loopbackText : InternetText where
  pton4 text := if text = ascii "127.0.0.1" then some ⟨[127, 0, 0, 1], rfl⟩ else none
  pton6 text := if text = ascii "::1" then some ⟨[0, 0, 0, 0, 0, 0, 0, 0, 0, 0, 0, 0, 0, 0, 0, 1], rfl⟩ else none
  ntop4 _ := ascii "127.0.0.1"
  ntop6 _ := ascii "::1"

theorem readBack_loopback (port : UInt16) :
    ReadBack loopbackText (ipv4 ⟨[127, 0, 0, 1], rfl⟩ port) ∧
      ReadBack loopbackText (ipv6 ⟨[0, 0, 0, 0, 0, 0, 0, 0, 0, 0, 0, 0, 0, 0, 0, 1], rfl⟩ port) :=
  ⟨⟨rfl, by decide +kernel⟩, rfl, by decide +kernel, by decide +kernel⟩

theorem parseInternetAddress_iff_loopback :
    (parseInternetAddress loopbackText (asString loopbackText (ipv4 ⟨[127, 0, 0, 1], rfl⟩ 80)) 0 =
        some (ipv4 ⟨[127, 0, 0, 1], rfl⟩ 80) ∧
      ((∀ parsed, parseInternetAddress loopbackText (ascii "127.0.0.1:80") 0 = some parsed →
          PortRead (ascii "127.0.0.1:80") parsed) ↔
        PortPlain loopbackText (ascii "127.0.0.1:80"))) ∧
      parseInternetAddress loopbackText
          (asString loopbackText (ipv6 ⟨[0, 0, 0, 0, 0, 0, 0, 0, 0, 0, 0, 0, 0, 0, 0, 1], rfl⟩ 80)) 0 =
        some (ipv6 ⟨[0, 0, 0, 0, 0, 0, 0, 0, 0, 0, 0, 0, 0, 0, 0, 1], rfl⟩ 80) :=
  ⟨parseInternetAddress_iff (readBack_loopback 80).1 _ _,
    (parseInternetAddress_iff (readBack_loopback 80).2 [] 0).1⟩

/-- 65616 is port 80. -/
theorem not_portRead :
    ¬ ∀ (net : InternetText) (address : Bytes) (defaultPort : UInt16) (parsed : AddressInstance),
      parseInternetAddress net address defaultPort = some parsed → PortRead address parsed := by
  intro h
  have hparsed : parseInternetAddress loopbackText (ascii "127.0.0.1:65616") 0 =
      some (ipv4 ⟨[127, 0, 0, 1], rfl⟩ 80) := by decide +kernel
  obtain ⟨number, hnumber, hsmall, -⟩ := h _ _ _ _ hparsed (ascii "65616") (by decide +kernel)
  have hlarge : readNumber (ascii "65616") = some 65616 := by decide +kernel
  rw [hlarge, Option.some.injEq] at hnumber
  omega

end AddressInstance

end GopherMcp
