import GopherMcp.Http.WireWriter
import GopherMcp.Lib.OrdMap
import GopherMcp.Lib.Pieces
import GopherMcp.Transport.EventId
import Mathlib.Data.List.Forall2

/-!
# Message heads

The parser hands a head to the codec token by token, and a token that lies across several reads in several
spans. The codec puts the spans of a value together; of a URL, of a reason phrase and of a field name it keeps
the span that came last.
-/

namespace GopherMcp

open WireWriter (lowercase mem_lowercase_iff)
open Pieces (Cut whole cutAt last)

inductive HttpMethod
  | get | post | put | delete | head | options | patch | connect | trace | unknown
  deriving DecidableEq

def HttpMethod.name : HttpMethod → Bytes
  | get => ascii "GET"
  | post => ascii "POST"
  | put => ascii "PUT"
  | delete => ascii "DELETE"
  | head => ascii "HEAD"
  | options => ascii "OPTIONS"
  | patch => ascii "PATCH"
  | connect => ascii "CONNECT"
  | trace => ascii "TRACE"
  | unknown => ascii "UNKNOWN"

/-- The head of a message: the URL of a request or the reason phrase of a response, and the fields. -/
structure MessageHead where
  method : HttpMethod
  statusCode : UInt16
  start : Bytes
  fields : List (Bytes × Bytes)
  names : ∀ field ∈ fields, field.1 ≠ [] ∧ kColon ∉ field.1

/-- How the tokens of a head were cut into spans. -/
structure HeadDivision where
  start : List Bytes
  fields : List (List Bytes × List Bytes)

/-- What the parser reports of a head. -/
inductive HeadSpan
  | url (data : Bytes)
  | status (data : Bytes)
  | headerField (data : Bytes)
  | headerValue (data : Bytes)

/-- What the codec keeps while a head is read. -/
structure ParserCallbacks where
  isServer : Bool
  currentHeaderField : Bytes
  currentHeaderValue : Bytes
  url : Bytes
  path : Bytes
  status : Bytes
  method : Bytes
  headers : OrdMap Bytes Bytes

namespace ParserCallbacks

/-- The context of the stream is reset, and what was left of a field. -/
def onMessageBegin (s : ParserCallbacks) : ParserCallbacks :=
  { s with
    currentHeaderField := []
    currentHeaderValue := []
    url := []
    path := []
    status := []
    method := []
    headers := .empty }

def onUrl (s : ParserCallbacks) (data : Bytes) : ParserCallbacks :=
  if s.isServer then { s with url := data, headers := s.headers.insert (ascii "url") data, path := data } else s

def onStatus (s : ParserCallbacks) (data : Bytes) : ParserCallbacks :=
  if !s.isServer then { s with status := data, headers := s.headers.insert (ascii "status") data } else s

/-- The headers with the pending field, which is stored unless its name or its value is empty. -/
def stored (s : ParserCallbacks) : OrdMap Bytes Bytes :=
  if !s.currentHeaderField.isEmpty && !s.currentHeaderValue.isEmpty then
    s.headers.insert (lowercase s.currentHeaderField) s.currentHeaderValue
  else s.headers

def onHeaderField (s : ParserCallbacks) (data : Bytes) : ParserCallbacks :=
  { s with
    headers := s.stored
    currentHeaderValue :=
      if !s.currentHeaderField.isEmpty && !s.currentHeaderValue.isEmpty then [] else s.currentHeaderValue
    currentHeaderField := data }

def onHeaderValue (s : ParserCallbacks) (data : Bytes) : ParserCallbacks :=
  { s with currentHeaderValue := s.currentHeaderValue ++ data }

/-- The headers as they are passed on. -/
def onHeadersComplete (s : ParserCallbacks) (method : HttpMethod) (statusCode : UInt16) : ParserCallbacks :=
  if s.isServer then
    { s with headers := s.stored.insert (ascii ":method") method.name, method := method.name }
  else { s with headers := s.stored.insert (ascii ":status") (toDecimal statusCode.toNat) }

def step (s : ParserCallbacks) : HeadSpan → ParserCallbacks
  | .url data => s.onUrl data
  | .status data => s.onStatus data
  | .headerField data => s.onHeaderField data
  | .headerValue data => s.onHeaderValue data

/-- A request has a URL, a response a reason phrase. -/
def startSpan (isServer : Bool) (data : Bytes) : HeadSpan := if isServer then .url data else .status data

def spans (isServer : Bool) (division : HeadDivision) : List HeadSpan :=
  division.start.map (startSpan isServer) ++
    division.fields.flatMap fun field => field.1.map .headerField ++ field.2.map .headerValue

/-- The headers that are passed on of a head that was read so. -/
def readHead (s : ParserCallbacks) (head : MessageHead) (division : HeadDivision) : OrdMap Bytes Bytes :=
  ((Runs.run step s.onMessageBegin (spans s.isServer division)).onHeadersComplete head.method
    head.statusCode).headers

/-- The spans make the tokens. Whether the parser reports an empty span as well is left open. -/
def Divides (empties : Prop) (head : MessageHead) (division : HeadDivision) : Prop :=
  Cut empties head.start division.start ∧
    List.Forall₂ (fun field cut => Cut empties field.1 cut.1 ∧ Cut empties field.2 cut.2) head.fields
      division.fields

/-- No token that the codec keeps in one span is long enough to be cut. -/
def Uncut (head : MessageHead) : Prop :=
  head.start.length ≤ 1 ∧ ∀ field ∈ head.fields, field.2 ≠ [] → field.1.length ≤ 1

/-! ### Storing fields -/

/-- Fields stored one after another, those without a value left out. -/
def storeAll (m : OrdMap Bytes Bytes) (fields : List (Bytes × Bytes)) : OrdMap Bytes Bytes :=
  fields.foldl (fun m field => if field.2.isEmpty then m else m.insert (lowercase field.1) field.2) m

/-- The value that is stored last under a name. -/
def lastValue (fields : List (Bytes × Bytes)) (name : Bytes) : Option Bytes :=
  (fields.filter fun field => lowercase field.1 = name ∧ field.2 ≠ []).getLast?.map Prod.snd

theorem lastValue_cons (field : Bytes × Bytes) (fields : List (Bytes × Bytes)) (name : Bytes) :
    lastValue (field :: fields) name =
      (lastValue fields name).or (if lowercase field.1 = name ∧ field.2 ≠ [] then some field.2 else none) := by
  unfold lastValue
  by_cases hstored : lowercase field.1 = name ∧ field.2 ≠ []
  · rw [List.filter_cons_of_pos (by simpa using hstored), if_pos hstored, List.getLast?_cons]
    cases (fields.filter fun field => decide (lowercase field.1 = name ∧ field.2 ≠ [])).getLast? with
    | none => rfl
    | some other => rfl
  · rw [List.filter_cons_of_neg (by simpa using hstored), if_neg hstored, Option.or_none]

theorem lastValue_eq_none {fields : List (Bytes × Bytes)} {name : Bytes}
    (h : ∀ field ∈ fields, field.2 ≠ [] → lowercase field.1 ≠ name) : lastValue fields name = none := by
  unfold lastValue
  rw [List.filter_eq_nil_iff.mpr]
  · rfl
  · intro field hfield
    rw [decide_eq_true_eq]
    exact fun hstored => h field hfield hstored.2 hstored.1

/-- Under a name stands the value that was stored last, or what stood there before. -/
theorem find?_storeAll (m : OrdMap Bytes Bytes) (fields : List (Bytes × Bytes)) (key : Bytes) :
    (storeAll m fields).find? key = (lastValue fields key).or (m.find? key) := by
  induction fields generalizing m with
  | nil => rfl
  | cons field rest ih =>
      rw [lastValue_cons, Option.or_assoc]
      unfold storeAll at ih ⊢
      rw [List.foldl_cons, ih]
      congr 1
      by_cases hvalue : field.2 = []
      · rw [if_pos (by simpa using hvalue), if_neg (by simp [hvalue]), Option.none_or]
      · rw [if_neg (by simpa using hvalue), OrdMap.find?_insert]
        by_cases hname : key = lowercase field.1
        · rw [if_pos hname, if_pos ⟨hname.symm, hvalue⟩, Option.some_or]
        · rw [if_neg hname, if_neg fun h => hname h.1.symm, Option.none_or]

theorem find?_storeAll_of_ne {fields : List (Bytes × Bytes)} {key : Bytes}
    (h : ∀ field ∈ fields, field.2 ≠ [] → lowercase field.1 ≠ key) (m : OrdMap Bytes Bytes) :
    (storeAll m fields).find? key = m.find? key := by
  rw [find?_storeAll, lastValue_eq_none h, Option.none_or]

theorem find?_storeAll_isSome {fields : List (Bytes × Bytes)} {key : Bytes} (m : OrdMap Bytes Bytes)
    (h : ∃ field ∈ fields, field.2 ≠ [] ∧ lowercase field.1 = key) : ((storeAll m fields).find? key).isSome := by
  obtain ⟨field, hfield, hvalue, hname⟩ := h
  have hmem : field ∈ fields.filter fun field => lowercase field.1 = key ∧ field.2 ≠ [] :=
    List.mem_filter.mpr ⟨hfield, decide_eq_true ⟨hname, hvalue⟩⟩
  rw [find?_storeAll, lastValue, List.getLast?_eq_some_getLast (List.ne_nil_of_mem hmem)]
  rfl

/-! ### What is read -/

/-- A pending value belongs to a pending name. -/
def Ready (s : ParserCallbacks) : Prop := s.currentHeaderField ≠ [] ∨ s.currentHeaderValue = []

theorem stored_of_value_nil {s : ParserCallbacks} (h : s.currentHeaderValue = []) : s.stored = s.headers := by
  unfold stored
  rw [h, if_neg (by simp)]

theorem stored_of_field {s : ParserCallbacks} (h : s.currentHeaderField ≠ []) :
    s.stored = storeAll s.headers [(s.currentHeaderField, s.currentHeaderValue)] := by
  unfold stored storeAll
  rw [List.foldl_cons, List.foldl_nil]
  cases hvalue : s.currentHeaderValue with
  | nil => simp
  | cons byte rest => simp [h]

theorem onHeaderField_of_ready {s : ParserCallbacks} (h : s.Ready) (data : Bytes) :
    s.onHeaderField data =
      { s with headers := s.stored, currentHeaderValue := [], currentHeaderField := data } := by
  unfold onHeaderField
  congr 1
  split_ifs with hboth
  · rfl
  · rcases h with hfield | hvalue
    · simpa [hfield] using hboth
    · exact hvalue

/-- The pending field is stored, and of the name the last span is kept. -/
theorem run_headerFields {s : ParserCallbacks} (h : s.Ready) {pieces : List Bytes} (hpieces : pieces ≠ []) :
    Runs.run step s (pieces.map .headerField) =
      { s with headers := s.stored, currentHeaderValue := [], currentHeaderField := last pieces } := by
  induction pieces generalizing s with
  | nil => exact absurd rfl hpieces
  | cons piece rest ih =>
      rw [List.map_cons, Runs.run_cons]
      show Runs.run step (s.onHeaderField piece) _ = _
      rw [onHeaderField_of_ready h]
      cases rest with
      | nil => rfl
      | cons second rest =>
          have hpending := @stored_of_value_nil
            { s with headers := s.stored, currentHeaderValue := [], currentHeaderField := piece } rfl
          rw [ih (.inr rfl) (List.cons_ne_nil _ _), hpending]
          rfl

theorem run_headerValues (s : ParserCallbacks) (pieces : List Bytes) :
    Runs.run step s (pieces.map .headerValue) =
      { s with currentHeaderValue := s.currentHeaderValue ++ pieces.flatten } := by
  induction pieces generalizing s with
  | nil =>
      show s = _
      rw [List.flatten_nil, List.append_nil]
  | cons piece rest ih =>
      rw [List.map_cons, Runs.run_cons]
      show Runs.run step (s.onHeaderValue piece) _ = _
      rw [ih, List.flatten_cons, ← List.append_assoc]
      rfl

/-- The names that are kept, with their values. -/
def kept (fields : List (List Bytes × List Bytes)) : List (Bytes × Bytes) :=
  fields.map fun cut => (last cut.1, cut.2.flatten)

theorem run_fields {s : ParserCallbacks} (h : s.Ready) {fields : List (List Bytes × List Bytes)}
    (hfields : ∀ cut ∈ fields, cut.1 ≠ [] ∧ last cut.1 ≠ []) :
    (Runs.run step s (fields.flatMap fun cut => cut.1.map .headerField ++ cut.2.map .headerValue)).stored =
      storeAll s.stored (kept fields) := by
  induction fields generalizing s with
  | nil => rfl
  | cons cut rest ih =>
      obtain ⟨hname, hlast⟩ := hfields cut List.mem_cons_self
      rw [List.flatMap_cons, Runs.run_append, Runs.run_append, run_headerFields h hname, run_headerValues,
        ih (.inl hlast) fun other hother => hfields other (List.mem_cons_of_mem _ hother)]
      rw [stored_of_field hlast]
      rfl

/-- Where the URL or the reason phrase is kept. -/
def startKey (isServer : Bool) : Bytes := if isServer then ascii "url" else ascii "status"

/-- Where the method or the status code is kept. -/
def endKey (isServer : Bool) : Bytes := if isServer then ascii ":method" else ascii ":status"

def startMap (isServer : Bool) (m : OrdMap Bytes Bytes) (pieces : List Bytes) : OrdMap Bytes Bytes :=
  if pieces.isEmpty then m else m.insert (startKey isServer) (last pieces)

/-- Of the URL or the reason phrase the last span is kept. -/
theorem run_start (s : ParserCallbacks) (pieces : List Bytes) :
    let t := Runs.run step s (pieces.map (startSpan s.isServer))
    t.headers = startMap s.isServer s.headers pieces ∧ t.currentHeaderValue = s.currentHeaderValue := by
  induction pieces generalizing s with
  | nil => exact ⟨rfl, rfl⟩
  | cons piece rest ih =>
      obtain ⟨hserver, hheaders, hvalue⟩ : (step s (startSpan s.isServer piece)).isServer = s.isServer ∧
          (step s (startSpan s.isServer piece)).headers = s.headers.insert (startKey s.isServer) piece ∧
          (step s (startSpan s.isServer piece)).currentHeaderValue = s.currentHeaderValue := by
        cases hmode : s.isServer <;> simp [step, startSpan, onUrl, onStatus, startKey, hmode]
      have hrest := ih (step s (startSpan s.isServer piece))
      rw [hserver, hheaders, hvalue] at hrest
      dsimp only
      rw [List.map_cons, Runs.run_cons]
      refine ⟨hrest.1.trans ?_, hrest.2⟩
      cases rest with
      | nil => rfl
      | cons second rest =>
          show (s.headers.insert _ piece).insert _ (last (second :: rest)) = _
          rw [OrdMap.insert_insert_self]
          rfl

theorem isServer_step (s : ParserCallbacks) (span : HeadSpan) : (step s span).isServer = s.isServer := by
  cases span with
  | url data =>
      show (s.onUrl data).isServer = _
      unfold onUrl
      split <;> rfl
  | status data =>
      show (s.onStatus data).isServer = _
      unfold onStatus
      split <;> rfl
  | headerField data => rfl
  | headerValue data => rfl

theorem isServer_run (s : ParserCallbacks) (spans : List HeadSpan) :
    (Runs.run step s spans).isServer = s.isServer :=
  @Runs.related _ _ step (fun s t => t.isServer = s.isServer) (fun _ => rfl)
    (fun _ _ _ hfirst hsecond => hsecond.trans hfirst) isServer_step s spans

theorem headers_onHeadersComplete (s : ParserCallbacks) (method : HttpMethod) (statusCode : UInt16) :
    (s.onHeadersComplete method statusCode).headers =
      s.stored.insert (endKey s.isServer) (if s.isServer then method.name else toDecimal statusCode.toNat) := by
  unfold onHeadersComplete endKey
  cases s.isServer with
  | true => rfl
  | false => rfl

/-- What is passed on of a head, where no name ends in an empty span. -/
theorem readHead_eq (s : ParserCallbacks) (head : MessageHead) {division : HeadDivision}
    (hfields : ∀ cut ∈ division.fields, cut.1 ≠ [] ∧ last cut.1 ≠ []) :
    readHead s head division =
      (storeAll (startMap s.isServer .empty division.start) (kept division.fields)).insert (endKey s.isServer)
        (if s.isServer then head.method.name else toDecimal head.statusCode.toNat) := by
  obtain ⟨hheaders, hvalue⟩ := run_start s.onMessageBegin division.start
  have hrun := run_fields (.inr hvalue) hfields
  rw [stored_of_value_nil hvalue, hheaders] at hrun
  have hserver := isServer_run s.onMessageBegin (spans s.isServer division)
  unfold readHead
  rw [headers_onHeadersComplete, hserver]
  unfold spans
  rw [Runs.run_append]
  exact congrArg (OrdMap.insert · _ _) hrun

/-! ### Divisions that cut the names -/

theorem last_ne_nil_of_cut {word : Bytes} {pieces : List Bytes} (h : Cut False word pieces) (hword : word ≠ []) :
    pieces ≠ [] ∧ last pieces ≠ [] := by
  have hpieces := Pieces.ne_nil_of_cut h hword
  exact ⟨hpieces, Pieces.last_ne_nil hpieces (h.2.resolve_left id)⟩

/-- Every name cut once, after as many letters as are said of it. -/
def cutNames (start : List Bytes) (k : Bytes → Nat) (head : MessageHead) : HeadDivision :=
  ⟨start, head.fields.map fun field => (cutAt (k field.1) field.1, whole field.2)⟩

theorem divides_cutNames {empties : Prop} {head : MessageHead} {start : List Bytes}
    (hstart : Cut empties head.start start) (k : Bytes → Nat) :
    Divides empties head (cutNames start k head) := by
  refine ⟨hstart, List.forall₂_map_right_iff.mpr (List.forall₂_same.mpr fun field _ => ?_)⟩
  exact ⟨Pieces.cut_cutAt empties _ _, Pieces.cut_whole empties _⟩

/-- The names that the cuts leave. -/
def leftNames (k : Bytes → Nat) (head : MessageHead) : List (Bytes × Bytes) :=
  head.fields.map fun field => (last (cutAt (k field.1) field.1), field.2)

theorem readHead_cutNames (s : ParserCallbacks) (head : MessageHead) (start : List Bytes) (k : Bytes → Nat) :
    readHead s head (cutNames start k head) =
      (storeAll (startMap s.isServer .empty start) (leftNames k head)).insert (endKey s.isServer)
        (if s.isServer then head.method.name else toDecimal head.statusCode.toNat) := by
  have hkept : kept (cutNames start k head).fields = leftNames k head := by
    unfold kept leftNames cutNames
    rw [List.map_map]
    apply List.map_congr_left
    intro field _
    exact congrArg (Prod.mk _) (Pieces.cut_whole False field.2).1
  rw [readHead_eq, hkept]
  · rfl
  · intro cut hcut
    obtain ⟨field, hfield, rfl⟩ := List.mem_map.mp hcut
    exact last_ne_nil_of_cut (Pieces.cut_cutAt False (k field.1) field.1) (head.names field hfield).1

variable {s : ParserCallbacks} {head : MessageHead} {start : List Bytes} {k : Bytes → Nat} {key : Bytes}

theorem ne_endKey_of_not_mem (h : kColon ∉ key) (isServer : Bool) : key ≠ endKey isServer := by
  rintro rfl
  cases isServer with
  | true => exact h (by decide)
  | false => exact h (by decide)

theorem find?_cutNames_of_ne (hkey : kColon ∉ key)
    (h : ∀ field ∈ leftNames k head, field.2 ≠ [] → lowercase field.1 ≠ key) :
    (readHead s head (cutNames start k head)).find? key = (startMap s.isServer .empty start).find? key := by
  rw [readHead_cutNames, OrdMap.find?_insert_of_ne _ (ne_endKey_of_not_mem hkey s.isServer),
    find?_storeAll_of_ne h]

theorem find?_cutNames_isSome (hkey : kColon ∉ key)
    (h : ∃ field ∈ leftNames k head, field.2 ≠ [] ∧ lowercase field.1 = key) :
    ((readHead s head (cutNames start k head)).find? key).isSome := by
  rw [readHead_cutNames, OrdMap.find?_insert_of_ne _ (ne_endKey_of_not_mem hkey s.isServer)]
  exact find?_storeAll_isSome _ h

theorem find?_startMap (isServer : Bool) (key : Bytes) (pieces : List Bytes) :
    (startMap isServer .empty pieces).find? key =
      if pieces.isEmpty ∨ key ≠ startKey isServer then none else some (last pieces) := by
  unfold startMap
  cases pieces with
  | nil => rfl
  | cons piece rest =>
      rw [List.isEmpty_cons, if_neg Bool.false_ne_true, OrdMap.find?_insert]
      by_cases h : key = startKey isServer
      · simp [h]
      · simp [h]

/-- Cut before its last letter, a name is left with at most that. -/
theorem length_leftNames_le {field : Bytes × Bytes}
    (h : field ∈ leftNames (fun name => name.length - 1) head) : (lowercase field.1).length ≤ 1 := by
  obtain ⟨⟨name, value⟩, _, rfl⟩ := List.mem_map.mp h
  unfold lowercase
  rw [List.length_map]
  by_cases hcut : 0 < name.length - 1 ∧ name.length - 1 < name.length
  · dsimp only
    rw [Pieces.last_cutAt hcut.1 hcut.2, List.length_drop]
    omega
  · dsimp only
    rw [Pieces.cutAt_of_not_lt hcut, Pieces.last_whole]
    omega

theorem three_le_length_startKey (isServer : Bool) : 3 ≤ (startKey isServer).length := by
  cases isServer with
  | true => decide
  | false => decide

/-- If the headers are the same for all divisions, no name with a value can be cut. -/
theorem length_name_le_of_same {empties : Prop}
    (hsame : ∀ first second, Divides empties head first → Divides empties head second →
      readHead s head first = readHead s head second)
    {field : Bytes × Bytes} (hfield : field ∈ head.fields) (hvalue : field.2 ≠ []) : field.1.length ≤ 1 := by
  by_contra hlong
  have hdivides (k : Bytes → Nat) := @divides_cutNames empties head _ (Pieces.cut_whole empties head.start) k
  -- a key of two letters or more that one division gives is missing where all names are cut to one letter
  have habsent : ∀ (k : Bytes → Nat) (key : Bytes), kColon ∉ key → 2 ≤ key.length → key ≠ startKey s.isServer →
      ¬ ∃ field ∈ leftNames k head, field.2 ≠ [] ∧ lowercase field.1 = key := by
    intro k key hcolon hlength hstart hpresent
    have hsome := @find?_cutNames_isSome s head (whole head.start) k key hcolon hpresent
    rw [hsame _ _ (hdivides k) (hdivides fun name => name.length - 1), find?_cutNames_of_ne hcolon,
      find?_startMap, if_pos (.inr hstart)] at hsome
    · cases hsome
    · rintro other hother _ rfl
      have := length_leftNames_le hother
      omega
  have hcolon : kColon ∉ lowercase field.1 := by
    rw [mem_lowercase_iff (by decide) (by decide)]
    exact (head.names field hfield).2
  have hlength : (lowercase field.1).length = field.1.length := List.length_map _
  by_cases hstart : lowercase field.1 = startKey s.isServer
  · have hthree := three_le_length_startKey s.isServer
    rw [← hstart, hlength] at hthree
    have hdrop : lowercase (field.1.drop 1) = (lowercase field.1).drop 1 := List.map_drop
    refine habsent (fun _ => 1) (lowercase (field.1.drop 1)) ?_ ?_ ?_ ⟨_, List.mem_map_of_mem hfield, hvalue, ?_⟩
    · rw [hdrop]
      exact fun hin => hcolon (List.mem_of_mem_drop hin)
    · rw [hdrop, List.length_drop]
      omega
    · intro heq
      have := congrArg List.length heq
      rw [← hstart, hdrop, List.length_drop] at this
      omega
    · exact congrArg lowercase (Pieces.last_cutAt Nat.one_pos (show 1 < field.1.length by omega))
  · refine habsent (fun _ => 0) (lowercase field.1) hcolon (by omega) hstart
      ⟨_, List.mem_map_of_mem hfield, hvalue, ?_⟩
    dsimp only
    rw [Pieces.cutAt_of_not_lt (by omega), Pieces.last_whole]

/-- Then no URL and no reason phrase can be cut either. -/
theorem last_start_of_same {empties : Prop}
    (hsame : ∀ first second, Divides empties head first → Divides empties head second →
      readHead s head first = readHead s head second)
    {start : List Bytes} (hcut : Cut empties head.start start) :
    (if start.isEmpty then none else some (last start)) =
      if head.start.isEmpty then none else some head.start := by
  have hread : ∀ {start : List Bytes}, Cut empties head.start start →
      (readHead s head (cutNames start (fun _ => 0) head)).find? (startKey s.isServer) =
        if start.isEmpty then none else some (last start) := by
    intro start _
    rw [find?_cutNames_of_ne, find?_startMap]
    · by_cases hempty : start.isEmpty = true
      · rw [if_pos (.inl hempty), if_pos hempty]
      · rw [if_neg (by simp [hempty]), if_neg hempty]
    · cases s.isServer with
      | true => decide
      | false => decide
    · intro left hleft hvalue heq
      obtain ⟨field, hfield, rfl⟩ := List.mem_map.mp hleft
      have hshort := length_name_le_of_same hsame hfield hvalue
      dsimp only at heq
      rw [Pieces.cutAt_of_not_lt (by omega), Pieces.last_whole] at heq
      have hlength := congrArg List.length heq
      unfold lowercase at hlength
      rw [List.length_map] at hlength
      have := three_le_length_startKey s.isServer
      omega
  have hwhole := Pieces.cut_whole empties head.start
  rw [← hread hcut, hsame _ _ (divides_cutNames hcut _) (divides_cutNames hwhole _), hread hwhole,
    Pieces.last_whole]
  cases head.start with
  | nil => rfl
  | cons byte rest => rfl

/-! ### Heads that are not cut -/

/-- Fields whose names are left something of have names that are kept. -/
theorem named_of_forall₂ {R : Bytes × Bytes → List Bytes × List Bytes → Prop} {fields : List (Bytes × Bytes)}
    {cuts : List (List Bytes × List Bytes)} (h : List.Forall₂ R fields cuts)
    (hnamed : ∀ field cut, field.1 ≠ [] → R field cut → cut.1 ≠ [] ∧ last cut.1 ≠ [])
    (hnames : ∀ field ∈ fields, field.1 ≠ []) : ∀ cut ∈ cuts, cut.1 ≠ [] ∧ last cut.1 ≠ [] := by
  induction h with
  | nil => exact fun cut hcut => absurd hcut List.not_mem_nil
  | @cons field cut _ _ hcut _ ih =>
      intro other hother
      rcases List.mem_cons.mp hother with rfl | hrest
      · exact hnamed field other (hnames field List.mem_cons_self) hcut
      · exact ih (fun other hother => hnames other (List.mem_cons_of_mem _ hother)) other hrest

theorem storeAll_kept {fields : List (Bytes × Bytes)} {cuts : List (List Bytes × List Bytes)}
    (h : List.Forall₂ (fun field cut => Cut False field.1 cut.1 ∧ Cut False field.2 cut.2) fields cuts)
    (hshort : ∀ field ∈ fields, field.2 ≠ [] → field.1.length ≤ 1) (m : OrdMap Bytes Bytes) :
    storeAll m (kept cuts) = storeAll m fields := by
  induction h generalizing m with
  | nil => rfl
  | @cons field cut fields cuts hcut _ ih =>
      have hrest := ih fun other hother => hshort other (List.mem_cons_of_mem _ hother)
      unfold storeAll kept at hrest ⊢
      rw [List.map_cons, List.foldl_cons, List.foldl_cons, hrest, hcut.2.1]
      by_cases hvalue : field.2 = []
      · rw [if_pos (by rw [hvalue]; rfl), if_pos (by rw [hvalue]; rfl)]
      · have hlength := hshort field List.mem_cons_self hvalue
        rw [Pieces.eq_whole_of_length_le_one hcut.1.1 (hcut.1.2.resolve_left id) hlength, Pieces.last_whole]

/-- A head whose tokens cannot be cut is read in one way. -/
theorem readHead_of_uncut (s : ParserCallbacks) {head : MessageHead} (h : Uncut head)
    {division : HeadDivision} (hdivides : Divides False head division) :
    readHead s head division =
      (storeAll (startMap s.isServer .empty (whole head.start)) head.fields).insert (endKey s.isServer)
        (if s.isServer then head.method.name else toDecimal head.statusCode.toNat) := by
  obtain ⟨hstart, hfields⟩ := hdivides
  have hnamed := named_of_forall₂ hfields (fun _ _ hname hcut => last_ne_nil_of_cut hcut.1 hname)
    fun field hfield => (head.names field hfield).1
  rw [readHead_eq s head hnamed, storeAll_kept hfields h.2,
    Pieces.eq_whole_of_length_le_one hstart.1 (hstart.2.resolve_left id) h.1]

/-- **Heads in reads.** The headers that are passed on of a head are the same for every two divisions of it
exactly if the parser reports no empty spans and neither the URL or reason phrase nor the name of a field
with a value has two bytes that a read could part. -/
theorem same_headers_iff (s : ParserCallbacks) (head : MessageHead) (empties : Prop) :
    (∀ first second, Divides empties head first → Divides empties head second →
      readHead s head first = readHead s head second) ↔ ¬ empties ∧ Uncut head := by
  constructor
  · intro hsame
    have hstart := @last_start_of_same s head empties hsame
    refine ⟨fun hempties => ?_, ?_, fun field => length_name_le_of_same hsame⟩
    · have hblank : some ([] : Bytes) = if head.start.isEmpty then none else some head.start :=
        hstart (Pieces.cut_concat_nil hempties head.start)
      split at hblank
      case isTrue => cases hblank
      case isFalse hfull => exact hfull (List.isEmpty_iff.mpr (Option.some.inj hblank).symm)
    · by_contra hlong
      have hcut := hstart (Pieces.cut_cutAt empties 1 head.start)
      rw [Pieces.cutAt_of_lt Nat.one_pos (by omega), List.isEmpty_cons, if_neg Bool.false_ne_true,
        if_neg] at hcut
      · have hlength := congrArg List.length (Option.some.inj hcut)
        change (head.start.drop 1).length = _ at hlength
        rw [List.length_drop] at hlength
        omega
      · intro hempty
        rw [List.isEmpty_iff.mp hempty] at hlong
        exact hlong (Nat.zero_le _)
  · rintro ⟨hempties, huncut⟩ first second hfirst hsecond
    obtain rfl : empties = False := eq_false hempties
    rw [readHead_of_uncut s huncut hfirst, readHead_of_uncut s huncut hsecond]

/-- A request for one byte with a host, whose name is cut by a read. -/
theorem headers_not_always_same :
    ¬ ∀ (s : ParserCallbacks) (head : MessageHead) (first second : HeadDivision),
      Divides False head first → Divides False head second →
        readHead s head first = readHead s head second := by
  intro hsame
  let head : MessageHead := ⟨.get, 0, ascii "/", [(ascii "Host", ascii "h")], by decide⟩
  have hboth := hsame ⟨true, [], [], [], [], [], [], .empty⟩ head
    ⟨[ascii "/"], [([ascii "Host"], [ascii "h"])]⟩ ⟨[ascii "/"], [([ascii "Ho", ascii "st"], [ascii "h"])]⟩
    ⟨⟨rfl, .inr (by decide)⟩, .cons ⟨⟨rfl, .inr (by decide)⟩, ⟨rfl, .inr (by decide)⟩⟩ .nil⟩
    ⟨⟨rfl, .inr (by decide)⟩, .cons ⟨⟨rfl, .inr (by decide)⟩, ⟨rfl, .inr (by decide)⟩⟩ .nil⟩
  have hfind := congrArg (OrdMap.find? · (ascii "host")) hboth
  revert hfind
  decide

end ParserCallbacks

end GopherMcp
