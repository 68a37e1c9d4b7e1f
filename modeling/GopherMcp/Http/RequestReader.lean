import GopherMcp.Http.WrittenResponses
import GopherMcp.Lib.Delimited
import GopherMcp.Lib.Fallible
import GopherMcp.Protocol.MirroredHeaders

/-!
# Reading a request

A request is a line with its method and its target, the lines of its fields, an empty line and the body that the fields
tell the length of. The white space around the value of a field is no part of it. What is read has a method and names
that are names, a target without blanks and values on one line, so a request that was put together from parts is read
as these parts exactly if each of them is such.
-/

namespace GopherMcp

open WireWriter (Headers headerLine lowercase)

structure HttpRequest where
  method : Bytes
  target : Bytes
  headers : Headers
  body : Bytes
  deriving DecidableEq

namespace HttpRequest

/-! ### Writing -/

def version : Bytes := ascii "HTTP/1.1"

def requestLine (method target : Bytes) : Bytes := method ++ kSpace :: (target ++ kSpace :: version)

/-- The lines of the head, before the empty one. -/
def lines (request : HttpRequest) : List Bytes :=
  requestLine request.method request.target :: request.headers.map fun header => headerLine header.1 header.2

def render (request : HttpRequest) : Bytes :=
  request.lines.flatMap (· ++ Chunking.crlf) ++ (Chunking.crlf ++ request.body)

/-! ### Reading -/

def isName (text : Bytes) : Bool := !text.isEmpty && text.all DesignatedParams.isTokenChar

/-- Neither blanks nor controls. -/
def isTarget (text : Bytes) : Bool := !text.isEmpty && text.all fun byte => 32 < byte && byte != 127

def isFieldText (text : Bytes) : Bool := text.all fun byte => byte != kCR && byte != kLF && byte != 0

def isBlank (byte : UInt8) : Bool := byte == kSpace || byte == 9

def readRequestLine (line : Bytes) : Option (Bytes × Bytes) :=
  (Delimited.cut line kSpace).bind fun first =>
    (Delimited.cut first.2 kSpace).bind fun second =>
      if isName first.1 && isTarget second.1 && second.2 == version then some (first.1, second.1) else none

def readField (line : Bytes) : Option (Bytes × Bytes) :=
  (Delimited.cut line kColon).bind fun parts =>
    if isName parts.1 && isFieldText parts.2 then some (parts.1, Delimited.trim isBlank parts.2) else none

/-- What the fields of a name say. -/
def valuesOf (headers : Headers) (name : Bytes) : List Bytes :=
  (headers.filter fun header => lowercase header.1 = name).map Prod.snd

def readNumber (text : Bytes) : Option Nat :=
  if !text.isEmpty && text.all MirroredHeaders.isDigit then some (MirroredHeaders.numberOf text) else none

/-- The body the fields tell of, and what is behind it. A body in a coding is not read here. -/
def readBody (headers : Headers) (rest : Bytes) : Option (Bytes × Bytes) :=
  if valuesOf headers (ascii "transfer-encoding") ≠ [] then none
  else
    match valuesOf headers (ascii "content-length") with
    | [] => some ([], rest)
    | [text] =>
        (readNumber text).bind fun length =>
          if length ≤ rest.length then some (rest.take length, rest.drop length) else none
    | _ => none

/-- The request, and what is behind it. -/
def read (bytes : Bytes) : Option (HttpRequest × Bytes) :=
  (Chunking.readLines bytes).bind fun head =>
    (readRequestLine (head.1.headD [])).bind fun line =>
      (head.1.tail.mapM readField).bind fun headers =>
        (readBody headers head.2).map fun parts => (⟨line.1, line.2, headers, parts.1⟩, parts.2)

/-- The fields as they are read. -/
def seen (headers : Headers) : Headers := headers.map fun header => (header.1, Delimited.trim isBlank header.2)

/-! ### What is read is in order -/

variable {line text name value method target body : Bytes} {headers : Headers}

theorem not_mem_of_isName {byte : UInt8} (h : isName text = true) (hbyte : DesignatedParams.isTokenChar byte = false) :
    byte ∉ text := by
  rw [isName, Bool.and_eq_true, List.all_eq_true] at h
  intro hmem
  rw [h.2 byte hmem] at hbyte
  cases hbyte

theorem not_mem_of_isTarget {byte : UInt8} (h : isTarget text = true) (hbyte : ¬ (32 < byte ∧ byte ≠ 127)) :
    byte ∉ text := by
  rw [isTarget, Bool.and_eq_true, List.all_eq_true] at h
  intro hmem
  have hboth := h.2 byte hmem
  rw [Bool.and_eq_true, decide_eq_true_eq, bne_iff_ne] at hboth
  exact hbyte hboth

theorem not_mem_of_isFieldText (h : isFieldText text = true) : kCR ∉ text := by
  rw [isFieldText, List.all_eq_true] at h
  intro hmem
  exact absurd (h kCR hmem) (by decide)

/-- The white space around a text does not matter for what it holds. -/
theorem isFieldText_trim_iff : isFieldText (Delimited.trim isBlank text) = true ↔ isFieldText text = true := by
  have hpadded := Delimited.padded_trim isBlank text
  unfold isFieldText
  rw [List.all_eq_true, List.all_eq_true]
  constructor
  · intro h byte hmem
    obtain hblank | hcore := hpadded.mem hmem
    · rw [isBlank, Bool.or_eq_true, beq_iff_eq, beq_iff_eq] at hblank
      obtain rfl | rfl := hblank <;> decide
    · exact h byte hcore
  · intro h byte hmem
    obtain ⟨left, right, -, -, heq⟩ := hpadded
    apply h byte
    rw [heq]
    exact List.mem_append_left _ (List.mem_append_right _ hmem)

theorem readRequestLine_requestLine (hmethod : isName method = true) (htarget : isTarget target = true) :
    readRequestLine (requestLine method target) = some (method, target) := by
  unfold readRequestLine requestLine
  rw [Delimited.cut_append (not_mem_of_isName hmethod (by decide)), Option.bind_some,
    Delimited.cut_append (not_mem_of_isTarget htarget (by decide)), Option.bind_some]
  rw [if_pos (by rw [hmethod, htarget]; rfl)]

theorem isName_of_readRequestLine (h : readRequestLine line = some (method, target)) :
    isName method = true ∧ isTarget target = true := by
  obtain ⟨first, -, h⟩ := Option.bind_eq_some_iff.mp h
  obtain ⟨second, -, h⟩ := Option.bind_eq_some_iff.mp h
  split_ifs at h with hboth
  rw [Bool.and_eq_true, Bool.and_eq_true] at hboth
  cases h
  exact hboth.1

theorem readField_headerLine (hname : isName name = true) (hvalue : isFieldText value = true) :
    readField (headerLine name value) = some (name, Delimited.trim isBlank value) := by
  have hline : headerLine name value = name ++ kColon :: kSpace :: value := by
    rw [headerLine, List.append_assoc]
    rfl
  have htext : isFieldText (kSpace :: value) = true := hvalue
  have htrim : Delimited.trim isBlank (kSpace :: value) = Delimited.trim isBlank value := rfl
  unfold readField
  rw [hline, Delimited.cut_append (not_mem_of_isName hname (by decide)), Option.bind_some, if_pos (by rw [hname, htext]; rfl),
    htrim]

theorem isName_of_readField (h : readField line = some (name, value)) : isName name = true ∧ isFieldText value = true := by
  obtain ⟨parts, -, h⟩ := Option.bind_eq_some_iff.mp h
  split_ifs at h with hboth
  rw [Bool.and_eq_true] at hboth
  cases h
  exact ⟨hboth.1, isFieldText_trim_iff.mpr hboth.2⟩

theorem mapM_headerLines (h : ∀ header ∈ headers, isName header.1 = true ∧ isFieldText header.2 = true) :
    (headers.map fun header => headerLine header.1 header.2).mapM readField = some (seen headers) := by
  rw [Option.mapM_eq_some_iff, List.forall₂_map_left_iff, seen, List.forall₂_map_right_iff, List.forall₂_same]
  exact fun header hheader => readField_headerLine (h header hheader).1 (h header hheader).2

/-- The parts of what is read. -/
structure Plain (request : HttpRequest) : Prop where
  method : isName request.method = true
  target : isTarget request.target = true
  headers : ∀ header ∈ request.headers, isName header.1 = true ∧ isFieldText header.2 = true

theorem plain_of_read {bytes rest : Bytes} {request : HttpRequest} (h : read bytes = some (request, rest)) :
    request.Plain := by
  obtain ⟨head, -, h⟩ := Option.bind_eq_some_iff.mp h
  obtain ⟨⟨method, target⟩, hline, h⟩ := Option.bind_eq_some_iff.mp h
  obtain ⟨headers, hheaders, h⟩ := Option.bind_eq_some_iff.mp h
  obtain ⟨parts, -, h⟩ := Option.map_eq_some_iff.mp h
  cases h
  obtain ⟨hmethod, htarget⟩ := isName_of_readRequestLine hline
  refine ⟨hmethod, htarget, fun header hheader => ?_⟩
  obtain ⟨line, -, hfield⟩ := Option.exists_of_mem_mapM hheaders hheader
  exact isName_of_readField hfield

/-! ### What is written is read -/

theorem lines_plain (hmethod : isName method = true) (htarget : isTarget target = true)
    (hheaders : ∀ header ∈ headers, kCR ∉ header.1 ∧ kCR ∉ header.2) :
    ∀ line ∈ lines ⟨method, target, headers, body⟩, line ≠ [] ∧ kCR ∉ line := by
  intro line hline
  obtain rfl | hline := List.mem_cons.mp hline
  · refine ⟨by simp [requestLine], ?_⟩
    simp only [requestLine, List.mem_append, List.mem_cons, not_or]
    exact ⟨not_mem_of_isName hmethod (by decide), by decide, not_mem_of_isTarget htarget (by decide), by decide,
      by decide⟩
  · obtain ⟨header, hheader, rfl⟩ := List.mem_map.mp hline
    obtain ⟨hname, hvalue⟩ := hheaders header hheader
    refine ⟨by simp [headerLine, ascii], ?_⟩
    rw [headerLine, List.mem_append, List.mem_append, not_or, not_or]
    exact ⟨⟨hname, by decide⟩, hvalue⟩

/-- Lines that are single lines are read one by one. -/
theorem read_render (hmethod : isName method = true) (htarget : isTarget target = true)
    (hheaders : ∀ header ∈ headers, kCR ∉ header.1 ∧ kCR ∉ header.2) :
    read (render ⟨method, target, headers, body⟩) =
      ((headers.map fun header => headerLine header.1 header.2).mapM readField).bind fun fields =>
        (readBody fields body).map fun parts => (⟨method, target, fields, parts.1⟩, parts.2) := by
  unfold read render
  rw [Chunking.readLines_lines (lines_plain hmethod htarget hheaders), Option.bind_some]
  show (readRequestLine (requestLine method target)).bind _ = _
  rw [readRequestLine_requestLine hmethod htarget, Option.bind_some]
  rfl

/-- The fields that have a name to be read by. -/
def named (headers : Headers) : Headers := headers.filter fun header => isName header.1

/-- **A request put together from parts** is read as these parts, without the fields that have no name, exactly if the
parts are such and every field has a name. -/
theorem read_render_iff {given sent : Headers} {expected : Bytes} (hgiven : ∀ header ∈ given, isName header.1 = true)
    (hsent : ∀ header ∈ sent, isFieldText header.1 = true ∧ isFieldText header.2 = true)
    (hbody : readBody (seen (given ++ named sent)) body = some (body, [])) :
    read (render ⟨method, target, given ++ sent, body⟩) =
        some (⟨method, target, seen (given ++ named sent), expected⟩, []) ↔
      body = expected ∧ isName method = true ∧ isTarget target = true ∧
        (∀ header ∈ given, isFieldText header.2 = true) ∧ ∀ header ∈ sent, isName header.1 = true := by
  have hlines (htexts : ∀ header ∈ given, isFieldText header.2 = true) :
      ∀ header ∈ given ++ sent, kCR ∉ header.1 ∧ kCR ∉ header.2 := by
    intro header hheader
    obtain hheader | hheader := List.mem_append.mp hheader
    · exact ⟨not_mem_of_isName (hgiven header hheader) (by decide), not_mem_of_isFieldText (htexts header hheader)⟩
    · exact ⟨not_mem_of_isFieldText (hsent header hheader).1, not_mem_of_isFieldText (hsent header hheader).2⟩
  constructor
  · intro hread
    obtain ⟨hmethod, htarget, hfields⟩ := plain_of_read hread
    have htexts : ∀ header ∈ given, isFieldText header.2 = true := by
      intro header hheader
      apply isFieldText_trim_iff.mp
      exact (hfields _ (List.mem_map.mpr ⟨header, List.mem_append_left _ hheader, rfl⟩)).2
    rw [read_render hmethod htarget (hlines htexts)] at hread
    obtain ⟨fields, hmapped, hread⟩ := Option.bind_eq_some_iff.mp hread
    obtain ⟨parts, hparts, hrequest⟩ := Option.map_eq_some_iff.mp hread
    obtain ⟨hrequest, -⟩ := Prod.mk.inj hrequest
    obtain ⟨-, -, hseen, hexpected⟩ := HttpRequest.mk.inj hrequest
    rw [hseen, hbody, Option.some.injEq] at hparts
    refine ⟨by rw [← hexpected, ← hparts], hmethod, htarget, htexts, ?_⟩
    -- as many fields are read as there are lines, so none was left out
    have hlength := (Option.mapM_eq_some_iff.mp hmapped).length_eq
    rw [hseen, seen, List.length_map, List.length_map, List.length_append, List.length_append,
      Nat.add_left_cancel_iff] at hlength
    exact List.length_filter_eq_length_iff.mp hlength.symm
  · rintro ⟨rfl, hmethod, htarget, htexts, hnames⟩
    have hall : named sent = sent := List.filter_eq_self.mpr hnames
    rw [hall] at hbody ⊢
    rw [read_render hmethod htarget (hlines htexts), mapM_headerLines, Option.bind_some, hbody, Option.map_some]
    intro header hheader
    obtain hheader | hheader := List.mem_append.mp hheader
    · exact ⟨hgiven header hheader, htexts header hheader⟩
    · exact ⟨hnames header hheader, (hsent header hheader).2⟩

/-! ### Bodies -/

theorem valuesOf_append (left right : Headers) (name : Bytes) :
    valuesOf (left ++ right) name = valuesOf left name ++ valuesOf right name := by
  unfold valuesOf
  rw [List.filter_append, List.map_append]

theorem valuesOf_eq_nil (h : ∀ header ∈ headers, lowercase header.1 ≠ name) : valuesOf headers name = [] := by
  unfold valuesOf
  rw [List.map_eq_nil_iff, List.filter_eq_nil_iff]
  intro header hheader
  rw [decide_eq_true_eq]
  exact h header hheader

/-- Under names that differ each field says its own. -/
theorem valuesOf_of_mem {header : Bytes × Bytes} (hnodup : (headers.map fun header => lowercase header.1).Nodup)
    (hheader : header ∈ headers) : valuesOf headers (lowercase header.1) = [header.2] := by
  obtain ⟨before, after, rfl⟩ := List.append_of_mem hheader
  rw [List.map_append, List.map_cons, List.nodup_append] at hnodup
  obtain ⟨-, hafter, hapart⟩ := hnodup
  have hbefore : valuesOf before (lowercase header.1) = [] := by
    apply valuesOf_eq_nil
    intro other hother heq
    exact hapart _ (List.mem_map_of_mem hother) _ List.mem_cons_self heq
  have hnone : valuesOf after (lowercase header.1) = [] := by
    apply valuesOf_eq_nil
    intro other hother heq
    apply (List.nodup_cons.mp hafter).1
    rw [← heq]
    exact List.mem_map_of_mem hother
  rw [valuesOf_append, hbefore, List.nil_append]
  unfold valuesOf at hnone ⊢
  rw [List.filter_cons_of_pos (by simp), List.map_cons, hnone]

theorem valuesOf_seen (headers : Headers) (name : Bytes) :
    valuesOf (seen headers) name = (valuesOf headers name).map (Delimited.trim isBlank) := by
  unfold valuesOf seen
  rw [List.filter_map, List.map_map, List.map_map]
  rfl

theorem readNumber_toDecimal (number : Nat) : readNumber (toDecimal number) = some number := by
  have hdigits : (toDecimal number).all MirroredHeaders.isDigit = true := by
    rw [List.all_eq_true]
    exact fun byte => MirroredHeaders.isDigit_of_mem_toDecimal
  unfold readNumber
  rw [hdigits, if_pos (by simp [toDecimal]), MirroredHeaders.numberOf_toDecimal]

theorem readBody_of_length (hcoding : valuesOf headers (ascii "transfer-encoding") = [])
    (hlength : valuesOf headers (ascii "content-length") = [toDecimal body.length]) :
    readBody headers body = some (body, []) := by
  unfold readBody
  rw [hcoding, hlength]
  simp [readNumber_toDecimal]

theorem readBody_of_none (hcoding : valuesOf headers (ascii "transfer-encoding") = [])
    (hlength : valuesOf headers (ascii "content-length") = []) : readBody headers [] = some ([], []) := by
  unfold readBody
  rw [hcoding, hlength]
  simp

theorem trim_toDecimal (length : Nat) : Delimited.trim isBlank (toDecimal length) = toDecimal length := by
  refine Delimited.trim_of_padded (Delimited.bare_of_forall fun byte hbyte => ?_) ⟨[], [], by simp, by simp, by simp⟩
  have hdigit := MirroredHeaders.isDigit_of_mem_toDecimal hbyte
  rw [MirroredHeaders.isDigit, Bool.and_eq_true, decide_eq_true_eq, decide_eq_true_eq] at hdigit
  unfold isBlank
  rw [Bool.or_eq_false_iff, beq_eq_false_iff_ne, beq_eq_false_iff_ne]
  constructor
  · rintro rfl
    exact absurd hdigit.1 (by decide)
  · rintro rfl
    exact absurd hdigit.1 (by decide)

/-! ### Something is read -/

theorem length_of_readBody {rest : Bytes} {parts : Bytes × Bytes} (h : readBody headers rest = some parts) :
    parts.1.length ≤ rest.length := by
  unfold readBody at h
  split_ifs at h
  split at h
  · cases h
    exact Nat.zero_le _
  · obtain ⟨length, -, h⟩ := Option.bind_eq_some_iff.mp h
    split_ifs at h
    cases h
    rw [List.length_take]
    exact Nat.min_le_right _ _
  · cases h

/-- A body is shorter than its request. -/
theorem length_of_read {bytes rest : Bytes} {request : HttpRequest} (h : read bytes = some (request, rest)) :
    request.body.length < bytes.length := by
  obtain ⟨head, hhead, h⟩ := Option.bind_eq_some_iff.mp h
  obtain ⟨_, -, h⟩ := Option.bind_eq_some_iff.mp h
  obtain ⟨_, -, h⟩ := Option.bind_eq_some_iff.mp h
  obtain ⟨parts, hparts, hrequest⟩ := Option.map_eq_some_iff.mp h
  cases hrequest
  exact (length_of_readBody hparts).trans_lt (Chunking.length_of_readLines hhead)

end HttpRequest

end GopherMcp
