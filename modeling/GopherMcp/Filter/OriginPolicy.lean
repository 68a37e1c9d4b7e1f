import GopherMcp.Http.WireWriter

/-!
# Which origins may reach a server

An origin is a scheme and a host, with a port or without. Where no set of origins is configured, those of
this machine are allowed, on whatever port; where one is, those in it. A request without an origin comes from
no browser.
-/

namespace GopherMcp

open WireWriter (toLower lowercase toLower_eq_iff mem_lowercase_iff lowercase_append)

namespace OriginPolicy

/-! ### Taking an origin apart -/

def mark : Bytes := ascii "://"

/-- Where the first `://` is. -/
def findMark : Bytes → Option Nat
  | [] => none
  | byte :: rest => if (byte :: rest).take 3 = mark then some 0 else (findMark rest).map (· + 1)

/-- A byte that no host has: of a path, a query, a fragment or credentials. -/
def endsHost (byte : UInt8) : Bool := byte == 47 || byte == 63 || byte == 35 || byte == 64

/-- The scheme, and the host with its port. -/
def parseOrigin (origin : Bytes) : Option (Bytes × Bytes) :=
  match findMark origin with
  | none => none
  | some place =>
      if place = 0 then none
      else if (origin.drop (place + 3)).isEmpty || (origin.drop (place + 3)).any endsHost then none
      else some (lowercase (origin.take place), lowercase (origin.drop (place + 3)))

/-- Only a colon after the closing bracket separates a port. -/
def splitPort (hostAndPort : Bytes) : Bytes × Bytes :=
  let searchFrom := if hostAndPort.head? = some 91 then hostAndPort.findIdx? (· == 93) else some 0
  match searchFrom with
  | none => (hostAndPort, [])
  | some place =>
      match (hostAndPort.drop place).findIdx? (· == kColon) with
      | none => (hostAndPort, [])
      | some colon => (hostAndPort.take (place + colon), hostAndPort.drop (place + colon + 1))

def isDigit (byte : UInt8) : Bool := 48 ≤ byte && byte ≤ 57

def isAllDigits (text : Bytes) : Bool := !text.isEmpty && text.all isDigit

/-- This machine, over http or https. -/
def matchesLocalDefault (origin : Bytes) : Bool :=
  match parseOrigin origin with
  | none => false
  | some (scheme, hostAndPort) =>
      if scheme ≠ ascii "http" && scheme ≠ ascii "https" then false
      else if !(splitPort hostAndPort).2.isEmpty && !isAllDigits (splitPort hostAndPort).2 then false
      else
        (splitPort hostAndPort).1 == ascii "localhost" || (splitPort hostAndPort).1 == ascii "127.0.0.1" ||
          (splitPort hostAndPort).1 == ascii "[::1]"

/-- Whether a request with this origin may be served, with the origins that are configured. -/
def originAllowed (allowedOrigins : List Bytes) (origin : Bytes) : Bool :=
  if origin.isEmpty then true
  else if allowedOrigins.isEmpty then matchesLocalDefault origin
  else allowedOrigins.any fun allowed => allowed == ascii "*" || lowercase allowed == lowercase origin

/-! ### The origins of this machine -/

def schemes : List Bytes := [ascii "http", ascii "https"]

def localHosts : List Bytes := [ascii "localhost", ascii "127.0.0.1", ascii "[::1]"]

/-- A scheme and a host of this machine, ignoring case, and what follows them. -/
def OnThisMachine (origin port : Bytes) : Prop :=
  ∃ scheme ∈ schemes, ∃ host ∈ localHosts, lowercase origin = scheme ++ mark ++ host ++ port

/-- The same with a numeric port or none. -/
def LocalOrigin (origin : Bytes) : Prop :=
  OnThisMachine origin [] ∨ ∃ port, isAllDigits port ∧ OnThisMachine origin (kColon :: port)

/-- The same with a colon and no port. -/
def BareColon (origin : Bytes) : Prop := OnThisMachine origin [kColon]

/-! ### Reading and lowering -/

/-- A text that lowers to the mark is the mark. -/
theorem eq_mark_of_lowercase {text : Bytes} (h : lowercase text = mark) : text = mark := by
  have hlength : text.length = 3 := by
    rw [← List.length_map (f := toLower)]
    exact congrArg List.length h
  match text, hlength with
  | [first, second, third], _ =>
      have hbytes : [toLower first, toLower second, toLower third] = [58, 47, 47] := h
      obtain ⟨h1, h2, h3⟩ : toLower first = 58 ∧ toLower second = 47 ∧ toLower third = 47 := by
        simpa using hbytes
      rw [toLower_eq_iff (by decide) (by decide)] at h1 h2 h3
      rw [h1, h2, h3]
      rfl

/-! ### The mark and the port -/

theorem findMark_spec {origin : Bytes} {place : Nat} (h : findMark origin = some place) :
    origin = origin.take place ++ mark ++ origin.drop (place + 3) := by
  induction origin generalizing place with
  | nil => cases h
  | cons byte rest ih =>
      unfold findMark at h
      split at h
      case isTrue hmark =>
        obtain rfl := Option.some.inj h
        rw [List.take_zero, List.nil_append, ← hmark, List.take_append_drop]
      case isFalse =>
        obtain ⟨place', hplace, rfl⟩ := Option.map_eq_some_iff.mp h
        rw [List.take_succ_cons, List.cons_append, List.cons_append, Nat.succ_add, List.drop_succ_cons,
          ← ih hplace]

theorem findMark_append {before after : Bytes} (h : kColon ∉ before) :
    findMark (before ++ mark ++ after) = some before.length := by
  induction before with
  | nil => rfl
  | cons byte rest ih =>
      rw [List.mem_cons, not_or] at h
      unfold findMark
      rw [List.cons_append, List.cons_append]
      dsimp only
      rw [if_neg, ih h.2]
      · rfl
      · intro hmark
        rw [List.take_succ_cons] at hmark
        exact h.1 (List.cons.inj hmark).1.symm

/-- A host is split from its port at its first colon, where no colon is before. -/
theorem splitPort_spec {hostAndPort : Bytes} :
    hostAndPort = (splitPort hostAndPort).1 ∧ (splitPort hostAndPort).2 = [] ∨
      hostAndPort = (splitPort hostAndPort).1 ++ kColon :: (splitPort hostAndPort).2 := by
  unfold splitPort
  dsimp only
  split
  case h_1 => exact .inl ⟨rfl, rfl⟩
  case h_2 place _ =>
    split
    case h_1 => exact .inl ⟨rfl, rfl⟩
    case h_2 colon hcolon =>
      refine .inr ?_
      obtain ⟨hlt, hat, _⟩ := List.findIdx?_eq_some_iff_getElem.mp hcolon
      have hdrop : (hostAndPort.drop (place + colon)) = kColon :: hostAndPort.drop (place + colon + 1) := by
        have hcons := List.drop_eq_getElem_cons hlt
        rw [beq_iff_eq.mp hat, List.drop_drop, List.drop_drop] at hcons
        exact hcons
      rw [← hdrop, List.take_append_drop]

/-- The hosts of this machine, with and without a port. -/
theorem splitPort_localHost {host : Bytes} (h : host ∈ localHosts) :
    splitPort host = (host, []) ∧ ∀ port, splitPort (host ++ kColon :: port) = (host, port) := by
  simp only [localHosts, List.mem_cons, List.not_mem_nil, or_false] at h
  obtain rfl | rfl | rfl := h
  · exact ⟨by decide, fun port => rfl⟩
  · exact ⟨by decide, fun port => rfl⟩
  · exact ⟨by decide, fun port => rfl⟩

/-! ### What the default set allows -/

theorem not_mem_kColon_of_lowercase {text : Bytes} {scheme : Bytes} (h : lowercase text = scheme)
    (hscheme : scheme ∈ schemes) : kColon ∉ text := by
  rw [← mem_lowercase_iff (by decide) (by decide), h]
  simp only [schemes, List.mem_cons, List.not_mem_nil, or_false] at hscheme
  obtain rfl | rfl := hscheme <;> decide

theorem parseOrigin_of_onThisMachine {origin scheme host port : Bytes} (hscheme : scheme ∈ schemes)
    (hhost : host ∈ localHosts) (hport : port.any endsHost = false)
    (h : lowercase origin = scheme ++ mark ++ host ++ port) :
    parseOrigin origin = some (scheme, host ++ port) := by
  have hmap := h
  unfold lowercase at hmap
  rw [List.append_assoc, List.map_eq_append_iff] at hmap
  obtain ⟨before, rest, rfl, hbefore, hrest⟩ := hmap
  rw [List.map_eq_append_iff] at hbefore
  obtain ⟨first, middle, rfl, hfirst, hmiddle⟩ := hbefore
  obtain rfl := eq_mark_of_lowercase hmiddle
  have hplace := @findMark_append first rest (not_mem_kColon_of_lowercase hfirst hscheme)
  have hnonempty : first.length ≠ 0 := by
    rw [← List.length_map (f := toLower), hfirst]
    simp only [schemes, List.mem_cons, List.not_mem_nil, or_false] at hscheme
    obtain rfl | rfl := hscheme <;> decide
  have hdrop : (first ++ mark ++ rest).drop (first.length + 3) = rest :=
    List.drop_left' (by rw [List.length_append]; rfl)
  have htake : (first ++ mark ++ rest).take first.length = first := by
    rw [List.append_assoc, List.take_left']
    rfl
  have hempty : rest.isEmpty = false := by
    have hlength : rest.length = (host ++ port).length := by
      rw [← hrest, List.length_map]
    cases rest with
    | nil =>
        simp only [localHosts, List.mem_cons, List.not_mem_nil, or_false] at hhost
        obtain rfl | rfl | rfl := hhost <;> simp [ascii] at hlength
    | cons _ _ => rfl
  have hclean : rest.any endsHost = false := by
    rw [List.any_eq_false] at hport ⊢
    intro byte hbyte hends
    have hlowered : toLower byte ∈ host ++ port := hrest ▸ List.mem_map_of_mem hbyte
    have hsame : toLower byte = byte := by
      unfold endsHost at hends
      simp only [Bool.or_eq_true, beq_iff_eq] at hends
      obtain ((rfl | rfl) | rfl) | rfl := hends <;> rfl
    rw [hsame] at hlowered
    rcases List.mem_append.mp hlowered with hin | hin
    · have hhostClean : host.any endsHost = false := by
        simp only [localHosts, List.mem_cons, List.not_mem_nil, or_false] at hhost
        obtain rfl | rfl | rfl := hhost <;> decide
      exact List.any_eq_false.mp hhostClean byte hin hends
    · exact hport byte hin hends
  unfold parseOrigin
  rw [hplace]
  dsimp only
  rw [if_neg hnonempty, hdrop, htake, hempty, hclean]
  exact congrArg some (Prod.ext hfirst hrest)

theorem lowercase_of_parseOrigin {origin scheme hostAndPort : Bytes}
    (h : parseOrigin origin = some (scheme, hostAndPort)) :
    lowercase origin = scheme ++ mark ++ hostAndPort := by
  unfold parseOrigin at h
  split at h
  case h_1 => cases h
  case h_2 place hplace =>
    split_ifs at h
    · obtain ⟨hscheme, hrest⟩ := Prod.mk.inj (Option.some.inj h)
      rw [findMark_spec hplace, lowercase_append, lowercase_append, hscheme, hrest]
      rfl

/-- The parts the default set asks for. -/
theorem matchesLocalDefault_iff_parts (origin : Bytes) :
    matchesLocalDefault origin = true ↔
      ∃ scheme ∈ schemes, ∃ hostAndPort, parseOrigin origin = some (scheme, hostAndPort) ∧
        (splitPort hostAndPort).1 ∈ localHosts ∧
        ((splitPort hostAndPort).2 = [] ∨ isAllDigits (splitPort hostAndPort).2 = true) := by
  unfold matchesLocalDefault
  cases hparse : parseOrigin origin with
  | none => simp
  | some parts =>
      obtain ⟨scheme, hostAndPort⟩ := parts
      have hone : (∃ scheme' ∈ schemes, ∃ hostAndPort', some (scheme, hostAndPort) = some (scheme', hostAndPort') ∧
          (splitPort hostAndPort').1 ∈ localHosts ∧
          ((splitPort hostAndPort').2 = [] ∨ isAllDigits (splitPort hostAndPort').2 = true)) ↔
          scheme ∈ schemes ∧ (splitPort hostAndPort).1 ∈ localHosts ∧
            ((splitPort hostAndPort).2 = [] ∨ isAllDigits (splitPort hostAndPort).2 = true) := by
        constructor
        · rintro ⟨_, hscheme, _, heq, hrest⟩
          obtain ⟨rfl, rfl⟩ := Prod.mk.inj (Option.some.inj heq)
          exact ⟨hscheme, hrest⟩
        · rintro ⟨hscheme, hrest⟩
          exact ⟨scheme, hscheme, hostAndPort, rfl, hrest⟩
      rw [hone]
      dsimp only
      generalize splitPort hostAndPort = parts
      split_ifs with hscheme hport
      · have hnot : scheme ∉ schemes := by simpa [schemes] using hscheme
        simp [hnot]
      · rw [Bool.and_eq_true, Bool.not_eq_true', Bool.not_eq_true', List.isEmpty_eq_false_iff] at hport
        simp [hport.1, hport.2]
      · have hin : scheme ∈ schemes := by simpa [schemes, or_iff_not_imp_left] using hscheme
        have hdigits : parts.2 = [] ∨ isAllDigits parts.2 = true := by
          simpa [or_iff_not_imp_left] using hport
        simp only [hin, hdigits, and_true, true_and]
        simp [localHosts, or_assoc]

/-- What the default set allows: a host of this machine, with digits after a colon or nothing after it, or
with nothing at all. -/
theorem matchesLocalDefault_iff (origin : Bytes) :
    matchesLocalDefault origin = true ↔ LocalOrigin origin ∨ BareColon origin := by
  rw [matchesLocalDefault_iff_parts]
  constructor
  · rintro ⟨scheme, hscheme, hostAndPort, hparse, hhost, hport⟩
    have hlow := lowercase_of_parseOrigin hparse
    rcases @splitPort_spec hostAndPort with ⟨hsplit, _⟩ | hsplit
    · refine .inl (.inl ⟨scheme, hscheme, _, hhost, ?_⟩)
      rw [hlow, ← hsplit, List.append_nil]
    · have hwhole : lowercase origin =
          scheme ++ mark ++ (splitPort hostAndPort).1 ++ kColon :: (splitPort hostAndPort).2 := by
        rw [hlow, List.append_assoc _ (splitPort hostAndPort).1, ← hsplit]
      rcases hport with hnone | hdigits
      · rw [hnone] at hwhole
        exact .inr ⟨scheme, hscheme, _, hhost, hwhole⟩
      · exact .inl (.inr ⟨_, hdigits, scheme, hscheme, _, hhost, hwhole⟩)
  · rintro ((⟨scheme, hscheme, host, hhost, hlow⟩ | ⟨port, hdigits, scheme, hscheme, host, hhost, hlow⟩) |
      ⟨scheme, hscheme, host, hhost, hlow⟩)
    · have hsplit := (splitPort_localHost hhost).1
      refine ⟨scheme, hscheme, _, parseOrigin_of_onThisMachine hscheme hhost rfl hlow, ?_⟩
      rw [List.append_nil, hsplit]
      exact ⟨hhost, .inl rfl⟩
    · have hsplit := (splitPort_localHost hhost).2 port
      have hclean : (kColon :: port).any endsHost = false := by
        rw [List.any_cons, show endsHost kColon = false from rfl, Bool.false_or, List.any_eq_false]
        intro byte hbyte hends
        unfold isAllDigits at hdigits
        rw [Bool.and_eq_true, List.all_eq_true] at hdigits
        have hdigit := hdigits.2 byte hbyte
        unfold endsHost at hends
        simp only [Bool.or_eq_true, beq_iff_eq] at hends
        obtain ((rfl | rfl) | rfl) | rfl := hends <;> exact absurd hdigit (by decide)
      refine ⟨scheme, hscheme, _, parseOrigin_of_onThisMachine hscheme hhost hclean hlow, ?_⟩
      rw [hsplit]
      exact ⟨hhost, .inr hdigits⟩
    · have hsplit := (splitPort_localHost hhost).2 []
      refine ⟨scheme, hscheme, _, parseOrigin_of_onThisMachine hscheme hhost rfl hlow, ?_⟩
      rw [hsplit]
      exact ⟨hhost, .inl rfl⟩

/-- An origin does not have both a port and only a colon. -/
theorem not_localOrigin_of_bareColon {origin : Bytes} (h : BareColon origin) : ¬ LocalOrigin origin := by
  obtain ⟨scheme, hscheme, host, hhost, hlow⟩ := h
  have hlast : (lowercase origin).getLast? = some kColon := by rw [hlow]; simp
  rintro (⟨scheme', _, host', hhost', hlow'⟩ | ⟨port, hdigits, scheme', _, host', _, hlow'⟩)
  · rw [hlow'] at hlast
    simp only [localHosts, List.mem_cons, List.not_mem_nil, or_false] at hhost'
    obtain rfl | rfl | rfl := hhost' <;> simp [List.getLast?_append, ascii] at hlast <;> revert hlast <;> decide
  · unfold isAllDigits at hdigits
    rw [Bool.and_eq_true, List.all_eq_true] at hdigits
    have hne : port ≠ [] := by
      intro hnil
      rw [hnil] at hdigits
      exact absurd hdigits.1 (by decide)
    rw [hlow', ← List.singleton_append, ← List.append_assoc, List.getLast?_append_of_ne_nil _ hne] at hlast
    exact absurd (hdigits.2 kColon (List.mem_of_getLast? hlast)) (by decide)

theorem ne_nil_of_bareColon {origin : Bytes} (h : BareColon origin) : origin ≠ [] := by
  rintro rfl
  obtain ⟨scheme, _, host, _, hlow⟩ := h
  exact List.append_ne_nil_of_right_ne_nil _ (List.cons_ne_nil _ _) hlow.symm

theorem originAllowed_default_iff (origin : Bytes) :
    originAllowed [] origin = true ↔ origin = [] ∨ LocalOrigin origin ∨ BareColon origin := by
  rw [← matchesLocalDefault_iff]
  unfold originAllowed
  cases origin with
  | nil => simp
  | cons byte rest => simp

end OriginPolicy

end GopherMcp
