import GopherMcp.Filter.CodecWrites
import GopherMcp.Http.KeptHeads
import GopherMcp.Http.RequestReader

/-!
# What a head says of the body

A message has a body if its head tells a length that is not zero, or if the last of its transfer codings is the chunked
one, however that is spelled. The codec tells its state machine of a body from the headers it has put together: it reads
the length into an `int`, and what does not fit in one is thrown through the parser; without a length it looks for the
word chunked in the last codings it kept, in lower case and anywhere. So the state machine is told what the head says
exactly if no length is 2^31 or more and the word stands in the last field of codings just where the message is chunked.
-/

namespace GopherMcp

open HttpRequest (valuesOf readNumber isBlank)
open MirroredHeaders (isDigit numberOf)
open ParserCallbacks (endKey kept readHead startMap startKey storeAll)
open Pieces (Cut last)
open ProtocolDetection (contains isSpace)
open WireWriter (Headers lowercase)

namespace MessageHead

/-! ### What a head means -/

/-- The white space around a length is no part of it. -/
def lengthOf (text : Bytes) : Option Nat := readNumber (Delimited.trim isBlank text)

/-- The transfer codings, in the order in which they were applied. -/
def codings (fields : Headers) : List Bytes :=
  (((valuesOf fields (ascii "transfer-encoding")).flatMap (·.splitOn ','.toUInt8)).map fun coding =>
    lowercase (Delimited.trim isBlank coding)).filter fun coding => !coding.isEmpty

def isChunked (fields : Headers) : Bool := (codings fields).getLast? == some (ascii "chunked")

def hasBody (fields : Headers) : Bool :=
  ((valuesOf fields (ascii "content-length")).filterMap lengthOf).any (0 < ·) || isChunked fields

/-- Every name comes in one span. Values and the URL or reason phrase may be cut. -/
def NamesWhole (head : MessageHead) (division : HeadDivision) : Prop :=
  List.Forall₂ (fun field cut => cut.1 = [field.1] ∧ cut.2.flatten = field.2) head.fields division.fields

end MessageHead

/-- A head that the parser accepts: one length at most, of digits that 64 bits hold, and no transfer coding beside
it. -/
structure AcceptedHead extends MessageHead where
  length_alone : valuesOf fields (ascii "content-length") = [] ∨
    ∃ text, valuesOf fields (ascii "content-length") = [text] ∧ valuesOf fields (ascii "transfer-encoding") = []
  length_read : ∀ text ∈ valuesOf fields (ascii "content-length"),
    ∃ number < 2 ^ 64, MessageHead.lengthOf text = some number

namespace ParserCallbacks

/-! ### What the codec announces -/

/-- What the headers say of a body. -/
def hasBody (headers : OrdMap Bytes Bytes) : Option Bool :=
  match headers.find? (ascii "content-length") with
  | some value => (stoi value).map fun contentLength => decide (0 < contentLength)
  | none =>
      some ((headers.find? (ascii "transfer-encoding")).any fun value =>
        contains value (ascii "chunked"))

/-- What the end of a head is to the codec and its state machine, or nothing where the callback throws. -/
def headersComplete (s : ParserCallbacks) (head : MessageHead) (division : HeadDivision)
    (http11 keepAlive : Bool) : Option CodecOp :=
  (hasBody (readHead s head division)).map (.headersComplete http11 keepAlive)

/-- The callback returns, and a body is announced if and only if the message has one. -/
def AnnouncesBody (s : ParserCallbacks) (head : MessageHead) (division : HeadDivision)
    (http11 keepAlive : Bool) : Prop :=
  s.headersComplete head division http11 keepAlive =
    some (CodecOp.headersComplete http11 keepAlive (MessageHead.hasBody head.fields))

/-- What was kept of the names tells of a body as the head does. -/
def FramedAlike (headers : OrdMap Bytes Bytes) (fields : Headers) : Prop :=
  match headers.find? (ascii "content-length") with
  | some text => ∃ number, stoi text = some number ∧ (0 < number ↔ MessageHead.hasBody fields = true)
  | none =>
      (∃ coding ∈ headers.find? (ascii "transfer-encoding"),
        contains coding (ascii "chunked") = true) ↔ MessageHead.hasBody fields = true

/-- No length is too long for an `int`, and the last codings have the word just where the message is chunked. -/
def FramedPlainly (fields : Headers) : Prop :=
  (∀ text ∈ valuesOf fields (ascii "content-length"), ∀ number ∈ MessageHead.lengthOf text, number < 2 ^ 31) ∧
    ((∃ coding ∈ lastValue fields (ascii "transfer-encoding"),
      contains coding (ascii "chunked") = true) ↔ MessageHead.isChunked fields = true)

instance (fields : Headers) : Decidable (FramedPlainly fields) := inferInstanceAs (Decidable (_ ∧ _))

/-! ### What is found -/

variable {s : ParserCallbacks} {head : MessageHead} {division : HeadDivision} {fields : Headers}
  {key text : Bytes} {number : Nat}

theorem kept_of_whole {cuts : List (List Bytes × List Bytes)}
    (h : List.Forall₂ (fun field cut => cut.1 = [field.1] ∧ cut.2.flatten = field.2) fields cuts) :
    kept cuts = fields := by
  induction h with
  | nil => rfl
  | @cons field cut fields cuts hcut _ ih =>
      unfold kept at ih ⊢
      rw [List.map_cons, ih, hcut.1, hcut.2]
      rfl

/-- Where the names are whole, the last value that is not empty stands under each name. -/
theorem find?_readHead (hwhole : head.NamesWhole division) (hcolon : kColon ∉ key)
    (hstart : key ≠ startKey s.isServer) :
    (readHead s head division).find? key = lastValue head.fields key := by
  have hnamed : ∀ cut ∈ division.fields, cut.1 ≠ [] ∧ last cut.1 ≠ [] := by
    refine named_of_forall₂ hwhole (fun field cut hname hcut => ?_) fun field hfield => (head.names field hfield).1
    rw [hcut.1]
    exact ⟨List.cons_ne_nil _ _, hname⟩
  rw [readHead_eq s head hnamed,
    OrdMap.find?_insert_of_ne _ (ne_endKey_of_not_mem hcolon s.isServer), kept_of_whole hwhole, find?_storeAll,
    find?_startMap, if_pos (.inr hstart), Option.or_none]

theorem lastValue_eq_of_values (fields : Headers) (key : Bytes) :
    lastValue fields key = ((valuesOf fields key).filter fun value => !value.isEmpty).getLast? := by
  unfold lastValue valuesOf
  rw [List.filter_map, List.getLast?_map, List.filter_filter]
  congr 3
  funext field
  rw [Bool.eq_iff_iff, Bool.and_eq_true]
  simp [and_comm]

theorem lastValue_of_nil (h : valuesOf fields key = []) : lastValue fields key = none := by
  rw [lastValue_eq_of_values, h]
  rfl

theorem lastValue_of_single (h : valuesOf fields key = [text]) (htext : text ≠ []) :
    lastValue fields key = some text := by
  rw [lastValue_eq_of_values, h, List.filter_cons_of_pos (by simpa using htext)]
  rfl

/-! ### Lengths -/

theorem readNumber_eq_some_iff :
    readNumber text = some number ↔ (text ≠ [] ∧ ∀ c ∈ text, isDigit c = true) ∧ numberOf text = number := by
  unfold readNumber
  rw [Option.ite_none_right_eq_some]
  simp

/-- A length is read where an `int` holds it. -/
theorem stoi_of_lengthOf (h : MessageHead.lengthOf text = some number) :
    stoi text = if number < 2 ^ 31 then some (number : Int) else none := by
  obtain ⟨⟨hne, hdigits⟩, hnumber⟩ := readNumber_eq_some_iff.mp h
  obtain ⟨left, right, hleft, hright, htext⟩ := Delimited.padded_trim isBlank text
  have hspace : ∀ c, isBlank c = true → isSpace c = true ∧ isDigit c = false := by
    intro c hc
    rw [isBlank, Bool.or_eq_true, beq_iff_eq, beq_iff_eq] at hc
    obtain rfl | rfl := hc <;> decide
  rw [htext, List.append_assoc, stoi_append_of_spaces fun c hc => (hspace c (hleft c hc)).1,
    stoi_of_digits hne hdigits fun c hc => (hspace c (hright c (List.mem_of_mem_head? hc))).2, hnumber]

theorem ne_nil_of_lengthOf (h : MessageHead.lengthOf text = some number) : text ≠ [] := by
  rintro rfl
  cases h

/-! ### What is announced -/

theorem announcesBody_iff_hasBody (http11 keepAlive : Bool) :
    s.AnnouncesBody head division http11 keepAlive ↔
      hasBody (readHead s head division) = some (MessageHead.hasBody head.fields) := by
  unfold AnnouncesBody headersComplete
  rw [Option.map_eq_some_iff]
  constructor
  · rintro ⟨body, hbody, heq⟩
    cases heq
    exact hbody
  · exact fun hbody => ⟨_, hbody, rfl⟩

theorem hasBody_eq_some_iff (headers : OrdMap Bytes Bytes) (fields : Headers) :
    hasBody headers = some (MessageHead.hasBody fields) ↔ FramedAlike headers fields := by
  unfold hasBody FramedAlike
  cases headers.find? (ascii "content-length") with
  | some text =>
      dsimp only
      rw [Option.map_eq_some_iff]
      refine exists_congr fun number => and_congr_right fun _ => ?_
      rw [Bool.eq_iff_iff, decide_eq_true_iff]
  | none =>
      dsimp only
      rw [Option.some_inj, Bool.eq_iff_iff, Option.any_eq_true]
      exact Iff.rfl

theorem hasBody_readHead_of_length (hwhole : head.NamesWhole division)
    (htext : valuesOf head.fields (ascii "content-length") = [text])
    (hnumber : MessageHead.lengthOf text = some number) :
    hasBody (readHead s head division) = if number < 2 ^ 31 then some (decide (0 < number)) else none := by
  unfold hasBody
  rw [find?_readHead hwhole (by decide) (by cases s.isServer <;> decide),
    lastValue_of_single htext (ne_nil_of_lengthOf hnumber)]
  dsimp only
  rw [stoi_of_lengthOf hnumber]
  split_ifs
  · simp
  · rfl

theorem hasBody_readHead_of_nil (hwhole : head.NamesWhole division)
    (hnone : valuesOf head.fields (ascii "content-length") = []) :
    hasBody (readHead s head division) =
      some ((lastValue head.fields (ascii "transfer-encoding")).any fun value =>
        contains value (ascii "chunked")) := by
  unfold hasBody
  rw [find?_readHead hwhole (by decide) (by cases s.isServer <;> decide), lastValue_of_nil hnone,
    find?_readHead hwhole (by decide) (by cases s.isServer <;> decide)]

theorem isChunked_of_nil (h : valuesOf fields (ascii "transfer-encoding") = []) :
    MessageHead.isChunked fields = false := by
  unfold MessageHead.isChunked MessageHead.codings
  rw [h]
  rfl

/-- Of a head with whole names the codec is told by the length it can read, or by the word in the last codings. -/
theorem hasBody_readHead_iff {head : AcceptedHead} (hwhole : head.NamesWhole division) :
    hasBody (readHead s head.toMessageHead division) = some (MessageHead.hasBody head.fields) ↔
      FramedPlainly head.fields := by
  unfold FramedPlainly
  obtain hnone | ⟨text, htext, halone⟩ := head.length_alone
  · rw [hasBody_readHead_of_nil hwhole hnone]
    have hbody : MessageHead.hasBody head.fields = MessageHead.isChunked head.fields := by
      unfold MessageHead.hasBody
      rw [hnone]
      rfl
    rw [hbody, hnone, Option.some_inj, Bool.eq_iff_iff, Option.any_eq_true]
    exact (and_iff_right fun text htext => absurd htext List.not_mem_nil).symm
  · obtain ⟨number, -, hnumber⟩ := head.length_read text (by rw [htext]; exact List.mem_cons_self)
    rw [hasBody_readHead_of_length hwhole htext hnumber]
    have hbody : MessageHead.hasBody head.fields = decide (0 < number) := by
      unfold MessageHead.hasBody
      rw [htext, isChunked_of_nil halone]
      simp [hnumber]
    have hcodings : ¬ ∃ coding ∈ lastValue head.fields (ascii "transfer-encoding"),
        contains coding (ascii "chunked") = true := by
      rw [lastValue_of_nil halone]
      simp
    rw [hbody, htext, isChunked_of_nil halone, Option.ite_none_right_eq_some]
    constructor
    · rintro ⟨hfits, -⟩
      refine ⟨fun other hother found hfound => ?_, iff_of_false hcodings Bool.false_ne_true⟩
      rw [List.mem_singleton.mp hother, hnumber] at hfound
      rwa [← Option.some.inj hfound]
    · rintro ⟨hfits, -⟩
      exact ⟨hfits text List.mem_cons_self number hnumber, rfl⟩

/-- **Bodies announced.** However a head came, the end of it returns and announces a body exactly if the message has
one, just where what was kept of its names tells of a body as the head does. Where the names came whole, that is where
no length is 2^31 or more and the last field of codings has the word chunked, in lower case, exactly if the message is
chunked. -/
theorem announcesBody_iff (s : ParserCallbacks) (head : AcceptedHead) (division : HeadDivision)
    (http11 keepAlive : Bool) :
    (s.AnnouncesBody head.toMessageHead division http11 keepAlive ↔
      FramedAlike (readHead s head.toMessageHead division) head.fields) ∧
    (head.NamesWhole division →
      (s.AnnouncesBody head.toMessageHead division http11 keepAlive ↔ FramedPlainly head.fields)) := by
  rw [announcesBody_iff_hasBody]
  exact ⟨hasBody_eq_some_iff _ _, hasBody_readHead_iff⟩

/-! ### Heads of one field -/

/-- A request with one field, of which every token comes in one span. -/
def post (name value : Bytes) (hname : name ≠ [] ∧ kColon ∉ name) : MessageHead :=
  ⟨.post, 0, ascii "/", [(name, value)], by simpa using hname⟩

def onlyLength (value : Bytes) (number : Nat) (hnumber : number < 2 ^ 64)
    (hread : MessageHead.lengthOf value = some number) : AcceptedHead where
  toMessageHead := post (ascii "Content-Length") value (by decide)
  length_alone := .inr ⟨value, rfl, rfl⟩
  length_read := by
    intro text htext
    rw [List.mem_singleton.mp htext]
    exact ⟨number, hnumber, hread⟩

def onlyCodings (value : Bytes) : AcceptedHead where
  toMessageHead := post (ascii "Transfer-Encoding") value (by decide)
  length_alone := .inl rfl
  length_read := by
    intro text htext
    cases htext

def inOneRead (name value : Bytes) : HeadDivision := ⟨[ascii "/"], [([name], [value])]⟩

theorem namesWhole_inOneRead (name value : Bytes) (hname : name ≠ [] ∧ kColon ∉ name) :
    (post name value hname).NamesWhole (inOneRead name value) :=
  .cons ⟨rfl, List.flatten_singleton⟩ .nil

theorem divides_inOneRead {name value : Bytes} (hname : name ≠ [] ∧ kColon ∉ name) (hvalue : value ≠ []) :
    Divides False (post name value hname) (inOneRead name value) := by
  have hsingle : ∀ word : Bytes, word ≠ [] → Cut False word [word] := by
    intro word hword
    exact ⟨List.flatten_singleton, .inr (by simpa using hword.symm)⟩
  exact ⟨hsingle (ascii "/") (by decide), .cons ⟨hsingle name hname.1, hsingle value hvalue⟩ .nil⟩

/-- A server that waits for a request. -/
def server : ParserCallbacks := ⟨true, [], [], [], [], [], [], .empty⟩

/-- A length of two digits and a blank behind them. -/
theorem announcesBody_twelve :
    server.AnnouncesBody (onlyLength (ascii "12 ") 12 (by decide) (by decide)).toMessageHead
      (inOneRead (ascii "Content-Length") (ascii "12 ")) true true := by
  have hboth := announcesBody_iff server (onlyLength (ascii "12 ") 12 (by decide) (by decide))
    (inOneRead (ascii "Content-Length") (ascii "12 ")) true true
  exact (hboth.2 (namesWhole_inOneRead _ _ (by decide))).mpr (by decide)

/-- A length of 3000000000 makes the callback throw, and a coding that is spelled Chunked announces no body. -/
theorem not_announcesBody :
    (¬ ∀ (s : ParserCallbacks) (head : AcceptedHead) (division : HeadDivision) (http11 keepAlive : Bool),
      Divides False head.toMessageHead division → head.NamesWhole division →
        s.headersComplete head.toMessageHead division http11 keepAlive ≠ none) ∧
    ¬ ∀ (s : ParserCallbacks) (head : AcceptedHead) (division : HeadDivision) (http11 keepAlive : Bool),
      Divides False head.toMessageHead division → head.NamesWhole division →
        s.headersComplete head.toMessageHead division http11 keepAlive ≠ none →
          s.AnnouncesBody head.toMessageHead division http11 keepAlive := by
  constructor
  · intro hreturns
    refine hreturns server (onlyLength (ascii "3000000000") 3000000000 (by decide) (by decide))
      (inOneRead (ascii "Content-Length") (ascii "3000000000")) true true (divides_inOneRead (by decide) (by decide))
      (namesWhole_inOneRead _ _ (by decide)) ?_
    decide
  · intro hannounces
    have hbody := hannounces server (onlyCodings (ascii "Chunked"))
      (inOneRead (ascii "Transfer-Encoding") (ascii "Chunked")) true true
      (divides_inOneRead (by decide) (by decide)) (namesWhole_inOneRead _ _ (by decide)) (by decide)
    rw [announcesBody_iff_hasBody] at hbody
    revert hbody
    decide

end ParserCallbacks

end GopherMcp
