import GopherMcp.Lib.Scanning
import GopherMcp.Protocol.TraceGrammar

/-!
# Scanning trace context by index

The formats as they are checked on the text itself, one index at a time. A scanner has no result where it reads
an index that is not there; none of them does, and each says yes just to what its grammar has.
-/

namespace GopherMcp

namespace Trace

namespace Indexed

open Scanning

/-- `value[index] != letter`. -/
def differs (value : Bytes) (index : Nat) (letter : UInt8) : Option Bool := do
  return (← value[index]?) ≠ letter

def isLowerHex (value : Bytes) (start count : Nat) : Option Bool :=
  allFrom (fun c => some (Trace.isLowerHex c)) value start count

def allZero (value : Bytes) (start count : Nat) : Option Bool :=
  allFrom (fun c => some (c = '0'.toUInt8)) value start count

def isValidTraceParent (value : Bytes) : Option Bool := do
  if ← some (decide (value.length < 55)) <||> differs value 2 '-'.toUInt8 <||> differs value 35 '-'.toUInt8 <||>
      differs value 52 '-'.toUInt8 then
    return false
  if ← notM (isLowerHex value 0 2) <||> notM (isLowerHex value 3 32) <||> notM (isLowerHex value 36 16) <||>
      notM (isLowerHex value 53 2) then
    return false
  let version ← Scanning.substr value 0 2
  if version = ascii "ff" then return false
  if ← if version = ascii "00" then some (decide (value.length ≠ 55))
      else some (decide (55 < value.length)) <&&> differs value 55 '-'.toUInt8 then
    return false
  notM (allZero value 3 32) <&&> notM (allZero value 36 16)

/-! ### tracestate -/

def isKeyPart (part : Bytes) (firstMayBeDigit : Bool) (more : Nat) : Option Bool := do
  if part.isEmpty || more + 1 < part.length then return false
  let first ← part[0]?
  if !isLowerAlpha first && !(firstMayBeDigit && isDigit first) then return false
  allFrom (fun c => some (isKeyChar c)) part 1 (part.length - 1)

def isTraceStateKey (key : Bytes) : Option Bool :=
  match find key '@'.toUInt8 0 with
  | none => isKeyPart key true 255
  | some index =>
      (do isKeyPart (← Scanning.substr key 0 index) true 240) <&&>
        do isKeyPart (← Scanning.substr key (index + 1) key.length) false 13

def isTraceStateValue (value : Bytes) : Option Bool := do
  if ← some (value.isEmpty || 256 < value.length) <||> do return (← value.getLast?) = ' '.toUInt8 then return false
  return value.all fun c => !(c < 0x20 || 0x7e < c || c = ','.toUInt8 || c = '='.toUInt8)

/-- The keys read, or nothing if an entry is refused. -/
def readKeys (keys : List Bytes) : List Bytes → Option (Option (List Bytes))
  | [] => some (some keys)
  | entry :: rest => do
      let member ← Scanning.trimmed isOws entry
      if member.isEmpty then readKeys keys rest
      else
        match find member '='.toUInt8 0 with
        | none => return none
        | some index =>
            let key ← Scanning.substr member 0 index
            if ← notM (isTraceStateKey key) <||>
                notM (do isTraceStateValue (← Scanning.substr member (index + 1) member.length)) <||>
                some (keys.contains key) then
              return none
            readKeys (key :: keys) rest

def isValidTraceState (value : Bytes) : Option Bool := do
  let entries ← splitFrom value ','.toUInt8 0
  match ← readKeys [] entries with
  | none => return false
  | some keys => return keys ≠ [] && keys.length ≤ 32

/-! ### baggage -/

/-- The letters from an index on; an encoded octet is three of them. -/
def isBaggageValue (value : Bytes) (index : Nat) : Option Bool :=
  if index < value.length then do
    let c ← value[index]?
    if c < 0x21 || 0x7e < c || (ascii "\",;\\").contains c then return false
    if c = '%'.toUInt8 then
      if ← some (decide (value.length ≤ index + 2)) <||> (do return !isHex (← value[index + 1]?)) <||>
          do return !isHex (← value[index + 2]?) then
        return false
      isBaggageValue value (index + 3)
    else isBaggageValue value (index + 1)
  else some true
termination_by value.length - index

def isKeyValue (text : Bytes) (valueOptional : Bool) : Option Bool :=
  match find text '='.toUInt8 0 with
  | none => some valueOptional <&&> do return isToken (← Scanning.trimmed isOws text)
  | some index =>
      (do return isToken (← Scanning.trimmed isOws (← Scanning.substr text 0 index))) <&&>
        do isBaggageValue (← Scanning.trimmed isOws (← Scanning.substr text (index + 1) text.length)) 0

def isBaggageMember (member : Bytes) : Option Bool := do
  let parts ← splitFrom member ';'.toUInt8 0
  if !(← isKeyValue (← parts[0]?) false) then return false
  allFrom (isKeyValue · true) parts 1 (parts.length - 1)

def isValidBaggage (value : Bytes) : Option Bool := do
  if value.isEmpty || kMaxBaggageBytes < value.length then return false
  let members ← splitFrom value ','.toUInt8 0
  if kMaxBaggageMembers < members.length then return false
  members.allM isBaggageMember

/-! ### No index is out of range -/

theorem differs_eq {value : Bytes} {index : Nat} (h : index < value.length) (letter : UInt8) :
    differs value index letter = some (!decide (value[index]? = some letter)) := by
  rw [differs, List.getElem?_eq_getElem h]
  change some (decide (value[index] ≠ letter)) = _
  simp

theorem isLowerHex_eq {value : Bytes} {start count : Nat} (h : start + count ≤ value.length) :
    isLowerHex value start count = some ((Trace.substr value start count).all Trace.isLowerHex) :=
  allFrom_eq (fun _ => rfl) h

theorem allZero_eq {value : Bytes} {start count : Nat} (h : start + count ≤ value.length) :
    allZero value start count = some ((Trace.substr value start count).all fun c => decide (c = '0'.toUInt8)) :=
  allFrom_eq (fun _ => rfl) h

theorem isValidTraceParent_eq (value : Bytes) : isValidTraceParent value = some (Trace.isValidTraceParent value) := by
  rw [isValidTraceParent, Trace.isValidTraceParent]
  by_cases hshort : value.length < 55
  · rw [decide_eq_true hshort, some_true_or]
    rfl
  · have hend : (some (decide (55 < value.length)) <&&> differs value 55 '-'.toUInt8) =
        some (decide (55 < value.length) && !decide (value[55]? = some '-'.toUInt8)) := by
      by_cases hmore : 55 < value.length
      · rw [differs_eq hmore, some_and_some]
      · rw [decide_eq_false hmore, some_false_and, Bool.false_and]
    have hversion : Scanning.substr value 0 2 = some (Trace.substr value 0 2) := substr_eq (Nat.zero_le _) 2
    rw [hend, differs_eq (by omega), differs_eq (by omega), differs_eq (by omega), isLowerHex_eq (by omega),
      isLowerHex_eq (by omega), isLowerHex_eq (by omega), isLowerHex_eq (by omega), allZero_eq (by omega),
      allZero_eq (by omega), hversion]
    simp only [notM_some, some_or_some, some_and_some, Option.bind_eq_bind, Option.bind_some, Bool.or_assoc,
      decide_eq_true_eq]
    split_ifs <;> rfl

/-! ### tracestate and baggage -/

theorem isKeyPart_eq (part : Bytes) (firstMayBeDigit : Bool) (more : Nat) :
    isKeyPart part firstMayBeDigit more = some (Trace.isKeyPart part firstMayBeDigit more) := by
  cases part with
  | nil => rfl
  | cons first rest =>
      have hrest : allFrom (fun c => some (isKeyChar c)) (first :: rest) 1 ((first :: rest).length - 1) =
          some (rest.all isKeyChar) := by
        rw [allFrom_eq (fun _ => rfl)]
        · rw [List.length_cons, Nat.add_sub_cancel, List.drop_one, List.tail_cons, List.take_length]
        · rw [List.length_cons]
          omega
      rw [isKeyPart, Trace.isKeyPart, hrest]
      by_cases hlength : rest.length ≤ more
      · have hfits : ¬more + 1 < (first :: rest).length := by
          rw [List.length_cons]
          omega
        rw [decide_eq_false hfits, decide_eq_true hlength]
        change (if (!isLowerAlpha first && !(firstMayBeDigit && isDigit first)) = true then some false
          else some (rest.all isKeyChar)) = _
        cases isLowerAlpha first <;> cases firstMayBeDigit && isDigit first <;> rfl
      · have hlong : more + 1 < (first :: rest).length := by
          rw [List.length_cons]
          omega
        rw [decide_eq_true hlong, decide_eq_false hlength]
        rfl

theorem take_length_drop (word : Bytes) (position : Nat) : (word.drop position).take word.length = word.drop position := by
  apply List.take_of_length_le
  rw [List.length_drop]
  omega

theorem isTraceStateKey_eq (key : Bytes) : isTraceStateKey key = some (Trace.isTraceStateKey key) := by
  rw [isTraceStateKey, Trace.isTraceStateKey, cut_eq, cut_eq_find]
  cases hfind : find key '@'.toUInt8 0 with
  | none => exact isKeyPart_eq key true 255
  | some index =>
      have hindex := find_lt hfind
      change ((Scanning.substr key 0 index).bind _ <&&> (Scanning.substr key (index + 1) key.length).bind _) = _
      rw [substr_eq (by omega), substr_eq (by omega), take_length_drop]
      change (isKeyPart (key.take index) true 240 <&&> isKeyPart (key.drop (index + 1)) false 13) = _
      rw [isKeyPart_eq, isKeyPart_eq, some_and_some]
      rfl

theorem isTraceStateValue_eq (value : Bytes) : isTraceStateValue value = some (Trace.isTraceStateValue value) := by
  rw [isTraceStateValue, Trace.isTraceStateValue]
  cases hlast : value.getLast? with
  | none =>
      rw [List.getLast?_eq_none_iff.mp hlast]
      rfl
  | some last =>
      change ((some (value.isEmpty || decide (256 < value.length)) <||> some (decide (last = ' '.toUInt8))).bind _) = _
      rw [some_or_some, Option.bind_some]
      simp only [Option.some.injEq]
      cases value.isEmpty || decide (256 < value.length) || decide (last = ' '.toUInt8) <;> rfl

theorem readKeys_eq (keys entries : List Bytes) : readKeys keys entries = some (Trace.readKeys keys entries) := by
  induction entries generalizing keys with
  | nil => rfl
  | cons entry rest ih =>
      rw [readKeys, Trace.readKeys, Scanning.trimmed_eq, ← Trace.trimmed_eq]
      change (if (trimmed entry).isEmpty = true then _ else _) = some (if trimmed entry = [] then _ else _)
      by_cases hnone : trimmed entry = []
      · rw [if_pos (List.isEmpty_iff.mpr hnone), if_pos hnone]
        exact ih keys
      · rw [if_neg (fun hempty => hnone (List.isEmpty_iff.mp hempty)), if_neg hnone, cut_eq, cut_eq_find]
        cases hfind : find (trimmed entry) '='.toUInt8 0 with
        | none => rfl
        | some index =>
            have hindex := find_lt hfind
            have hvalue : (Scanning.substr (trimmed entry) (index + 1) (trimmed entry).length).bind isTraceStateValue =
                some (Trace.isTraceStateValue ((trimmed entry).drop (index + 1))) := by
              rw [substr_eq (by omega), take_length_drop]
              exact isTraceStateValue_eq _
            change (Scanning.substr (trimmed entry) 0 index).bind _ = _
            rw [substr_eq (by omega), List.drop_zero, Option.bind_some]
            change ((notM (isTraceStateKey _) <||>
              notM ((Scanning.substr (trimmed entry) (index + 1) (trimmed entry).length).bind isTraceStateValue) <||>
              some (keys.contains _)).bind _ = _)
            rw [hvalue, isTraceStateKey_eq, notM_some, notM_some, some_or_some, some_or_some, Option.bind_some,
              ← Bool.or_assoc, ih]
            change (if _ then some none else some _) = some (if _ then none else _)
            split_ifs <;> rfl

theorem isValidTraceState_eq (value : Bytes) : isValidTraceState value = some (Trace.isValidTraceState value) := by
  rw [isValidTraceState, splitFrom_eq (Nat.zero_le _), List.drop_zero]
  change (readKeys [] (Trace.split value ','.toUInt8)).bind _ = _
  rw [readKeys_eq, Option.bind_some, Trace.isValidTraceState]
  cases Trace.readKeys [] (split value ','.toUInt8) <;> rfl

theorem isBaggageValue_eq (value : Bytes) (index : Nat) :
    isBaggageValue value index = some (Trace.isBaggageValue (value.drop index)) := by
  induction index using isBaggageValue.induct value with
  | case1 index hlt hencoded hletter =>
      rw [isBaggageValue, if_pos hlt, List.drop_eq_getElem_cons hlt, Trace.isBaggageValue.eq_def,
        List.getElem?_eq_getElem hlt]
      dsimp only
      change (if _ then some false else if value[index] = '%'.toUInt8 then _ else _) = some (if _ then _ else _)
      by_cases hbad : (decide (value[index] < 0x21) || decide (0x7e < value[index]) ||
          (ascii "\",;\\").contains value[index]) = true
      · rw [if_pos hbad, if_pos hbad]
      · rw [if_neg hbad, if_neg hbad]
        by_cases hpercent : value[index] = '%'.toUInt8
        · rw [if_pos hpercent, if_pos hpercent, hencoded]
          by_cases hshort : value.length ≤ index + 2
          · have hrest : (value.drop (index + 1)).length ≤ 1 := by
              rw [List.length_drop]
              omega
            rw [decide_eq_true hshort, some_true_or]
            split
            · next high low after hthree =>
                rw [hthree] at hrest
                simp at hrest
            · rfl
          · have hhigh : index + 1 < value.length := by omega
            have hlow : index + 2 < value.length := by omega
            rw [decide_eq_false hshort, List.drop_eq_getElem_cons hhigh, List.drop_eq_getElem_cons hlow,
              List.getElem?_eq_getElem hhigh, List.getElem?_eq_getElem hlow]
            change ((some false <||> some (!isHex value[index + 1]) <||> some (!isHex value[index + 2])).bind _) =
              some (isHex value[index + 1] && isHex value[index + 2] && _)
            rw [some_or_some, some_or_some, Option.bind_some]
            cases isHex value[index + 1] <;> cases isHex value[index + 2] <;> rfl
        · rw [if_neg hpercent, if_neg hpercent]
          exact hletter
  | case2 index hge =>
      rw [isBaggageValue, if_neg hge, List.drop_eq_nil_of_le (by omega)]
      rfl

theorem isKeyValue_eq (text : Bytes) (valueOptional : Bool) :
    isKeyValue text valueOptional = some (Trace.isKeyValue text valueOptional) := by
  rw [isKeyValue, Trace.isKeyValue, cut_eq, cut_eq_find]
  cases hfind : find text '='.toUInt8 0 with
  | none =>
      change (some valueOptional <&&> (Scanning.trimmed isOws text).bind _) = _
      rw [Scanning.trimmed_eq]
      exact some_and_some valueOptional (isToken (trimmed text))
  | some index =>
      have hindex := find_lt hfind
      have hkey : Scanning.substr text 0 index = some (text.take index) := substr_eq (Nat.zero_le _) index
      have hvalue : Scanning.substr text (index + 1) text.length = some (text.drop (index + 1)) := by
        rw [substr_eq (by omega), take_length_drop]
      simp only [hkey, hvalue, Scanning.trimmed_eq, Option.bind_eq_bind, Option.bind_some, isBaggageValue_eq,
        List.drop_zero]
      exact some_and_some _ _

theorem isBaggageMember_eq (member : Bytes) : isBaggageMember member = some (Trace.isBaggageMember member) := by
  rw [isBaggageMember, splitFrom_eq (Nat.zero_le _), List.drop_zero, Trace.isBaggageMember]
  cases hparts : member.splitOn ';'.toUInt8 with
  | nil => exact absurd hparts (List.splitOn_ne_nil ';'.toUInt8 member)
  | cons first properties =>
      have hproperties : allFrom (isKeyValue · true) (first :: properties) 1 ((first :: properties).length - 1) =
          some (properties.all (Trace.isKeyValue · true)) := by
        rw [allFrom_eq fun text => isKeyValue_eq text true]
        · rw [List.length_cons, Nat.add_sub_cancel, List.drop_one, List.tail_cons, List.take_length]
        · rw [List.length_cons]
          omega
      have hsplit : Trace.split member ';'.toUInt8 = first :: properties := hparts
      rw [hsplit]
      change (isKeyValue first false).bind _ =
        some (Trace.isKeyValue first false && properties.all (Trace.isKeyValue · true))
      rw [isKeyValue_eq, Option.bind_some, hproperties]
      cases Trace.isKeyValue first false <;> rfl

theorem isValidBaggage_eq (value : Bytes) : isValidBaggage value = some (Trace.isValidBaggage value) := by
  rw [isValidBaggage, splitFrom_eq (Nat.zero_le _), List.drop_zero, Trace.isValidBaggage]
  simp only [Option.bind_eq_bind, Option.bind_some, allM_eq isBaggageMember_eq]
  change (if _ then some false else if kMaxBaggageMembers < (split value _).length then some false else _) =
    some (if _ then false else if _ then false else _)
  split_ifs <;> rfl

end Indexed

end Trace

end GopherMcp
