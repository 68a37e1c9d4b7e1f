import GopherMcp.Filter.Framing
import GopherMcp.Lib.Pieces

/-!
# The bodies of a client's answers

A client hands each piece of an answer's body to the reader of newline-delimited messages as it comes, with a line
feed behind it that the piece may not have had. The reader keeps what is not ended by one, and so keeps nothing: no
answer's bytes are read with another's. But a body that comes in two pieces is read as two lines.
-/

namespace GopherMcp

/-- `kMaxHttpBodyChunkSize`. -/
def kMaxHttpBodyChunkSize : Nat := 16 * 1024 * 1024

/-- What is made of a body: of a line, a message or a protocol error; or an HTTP error where the codec rejects a
piece. -/
inductive BodyOutcome (μ : Type)
  | parsed (outcome : μ)
  | rejected
  deriving DecidableEq

/-- What the client's filters keep from piece to piece. -/
structure ClientBodies where
  partialMessage : Bytes
  rejected : Bool

/-- The body of an answer, a message without a line feed, and the pieces it comes in. -/
structure AnswerBody where
  text : Bytes
  pieces : List Bytes
  nonempty : text ≠ []
  line : kLF ∉ text
  cut : Pieces.Cut False text pieces

namespace ClientBodies

variable {μ : Type} (parseMessage : Bytes → μ)

def new : ClientBodies := ⟨[], false⟩

/-- A line feed is added to a piece that has none at its end. -/
def terminated (data : Bytes) : Bytes :=
  if data ≠ [] ∧ data.getLast? ≠ some kLF then data ++ [kLF] else data

/-- The reader takes its lines, each turn of its loop at least a byte. -/
def onData (s : ClientBodies) (data : Bytes) : ClientBodies × List (BodyOutcome μ) :=
  match JsonRpcProtocolFilter.parseMessages false ((s.partialMessage ++ data).length + 1) s.partialMessage data with
  | none => (s, [])
  | some (lines, rest) => ({ s with partialMessage := rest }, lines.map fun line => .parsed (parseMessage line))

/-- A piece as the HTTP parser reports it: nothing is reported behind one that was rejected. -/
def onBody (s : ClientBodies) (data : Bytes) : ClientBodies × List (BodyOutcome μ) :=
  if s.rejected ∨ data = [] then (s, [])
  else if data.length > kMaxHttpBodyChunkSize then ({ s with rejected := true }, [.rejected])
  else s.onData parseMessage (terminated data)

/-- The pieces of a body. -/
def readBody : ClientBodies → List Bytes → ClientBodies × List (BodyOutcome μ)
  | s, [] => (s, [])
  | s, piece :: pieces =>
      let done := s.onBody parseMessage piece
      let later := readBody done.1 pieces
      (later.1, done.2 ++ later.2)

/-- Bodies one after another: what is made of each. -/
def readBodies : ClientBodies → List (List Bytes) → List (List (BodyOutcome μ))
  | _, [] => []
  | s, pieces :: bodies =>
      let done := s.readBody parseMessage pieces
      done.2 :: readBodies done.1 bodies

/-! ### A piece -/

/-- A piece without a line feed is a line of its own, and nothing is left of it. -/
theorem onBody_line {piece : Bytes} (hne : piece ≠ []) (hline : kLF ∉ piece)
    (hsmall : piece.length ≤ kMaxHttpBodyChunkSize) :
    onBody parseMessage new piece = (new, [.parsed (parseMessage piece)]) := by
  have hlast : piece.getLast? ≠ some kLF := fun hlast => hline (List.mem_of_getLast? hlast)
  have hfits : ∀ message ∈ [piece], JsonRpcProtocolFilter.Fits false message := by
    intro message hmessage
    rw [List.mem_singleton.mp hmessage]
    exact hline
  have hcode : Draining.ReadsCode JsonRpcProtocolFilter.lineTurn (JsonRpcProtocolFilter.encode false) [piece] :=
    JsonRpcProtocolFilter.readsCode_lines (by simpa using hne) hfits
  have hturn := hcode.whole piece List.mem_cons_self []
  rw [List.append_nil] at hturn
  have hlines : JsonRpcProtocolFilter.parseMessages false ((piece ++ [kLF]).length + 1) [] (piece ++ [kLF]) =
      some ([piece], []) := by
    have hdrain := Draining.drain_of_turn hturn (piece.length + 1)
    rw [Draining.drain_of_waits hcode.empty] at hdrain
    rw [List.length_append]
    exact hdrain
  have hterminated : terminated piece = piece ++ [kLF] := if_pos ⟨hne, hlast⟩
  rw [onBody, if_neg (by simp [new, hne]), if_neg (by omega), hterminated]
  simp only [onData, new, List.nil_append, hlines, List.map_cons, List.map_nil]

/-! ### A body -/

/-- What is made of pieces that are lines: each is parsed, up to the first that is too long. -/
def outcomesOf : List Bytes → List (BodyOutcome μ)
  | [] => []
  | piece :: pieces =>
      if piece.length ≤ kMaxHttpBodyChunkSize then .parsed (parseMessage piece) :: outcomesOf pieces else [.rejected]

theorem readBody_rejected (partialMessage : Bytes) (pieces : List Bytes) :
    readBody parseMessage ⟨partialMessage, true⟩ pieces = (⟨partialMessage, true⟩, []) := by
  induction pieces with
  | nil => rfl
  | cons piece pieces ih =>
      have hbody : onBody parseMessage ⟨partialMessage, true⟩ piece = (⟨partialMessage, true⟩, []) :=
        if_pos (Or.inl rfl)
      rw [readBody, hbody, ih]
      rfl

/-- Nothing is kept between pieces, so that each body is read by itself. -/
theorem readBody_eq {pieces : List Bytes} (hlines : ∀ piece ∈ pieces, piece ≠ [] ∧ kLF ∉ piece) :
    readBody parseMessage new pieces =
      (⟨[], decide (∃ piece ∈ pieces, kMaxHttpBodyChunkSize < piece.length)⟩,
        outcomesOf parseMessage pieces) := by
  induction pieces with
  | nil => rfl
  | cons piece pieces ih =>
      obtain ⟨hne, hline⟩ := hlines piece List.mem_cons_self
      have hbehind := ih fun other hother => hlines other (List.mem_cons_of_mem _ hother)
      by_cases hsmall : piece.length ≤ kMaxHttpBodyChunkSize
      · rw [readBody, onBody_line parseMessage hne hline hsmall, hbehind, outcomesOf, if_pos hsmall]
        simp [Nat.not_lt.mpr hsmall]
      · have hlong : onBody parseMessage new piece = (⟨[], true⟩, [.rejected]) := by
          rw [onBody, if_neg (by simp [new, hne]), if_pos (by omega)]
          rfl
        rw [readBody, hlong, readBody_rejected, outcomesOf, if_neg hsmall]
        simp [Nat.lt_of_not_le hsmall]

theorem outcomesOf_ne_nil (piece : Bytes) (pieces : List Bytes) : outcomesOf parseMessage (piece :: pieces) ≠ [] := by
  rw [outcomesOf]
  split_ifs <;> simp

/-- A body is read as its message exactly if it comes in one piece that the codec takes. -/
theorem outcomesOf_eq_iff (answer : AnswerBody) :
    outcomesOf parseMessage answer.pieces = [.parsed (parseMessage answer.text)] ↔
      answer.pieces = [answer.text] ∧ answer.text.length ≤ kMaxHttpBodyChunkSize := by
  obtain ⟨text, pieces, hnonempty, hline, hflatten, hpieces⟩ := answer
  show outcomesOf parseMessage pieces = [.parsed (parseMessage text)] ↔
    pieces = [text] ∧ text.length ≤ kMaxHttpBodyChunkSize
  constructor
  · intro hread
    cases pieces with
    | nil => exact absurd hflatten.symm hnonempty
    | cons piece rest =>
        by_cases hsmall : piece.length ≤ kMaxHttpBodyChunkSize
        · rw [outcomesOf, if_pos hsmall, List.cons.injEq] at hread
          cases rest with
          | nil =>
              obtain rfl : piece = text := by simpa using hflatten
              exact ⟨rfl, hsmall⟩
          | cons second rest => exact absurd hread.2 (outcomesOf_ne_nil parseMessage second rest)
        · rw [outcomesOf, if_neg hsmall] at hread
          exact absurd (List.singleton_inj.mp hread) (by simp)
  · intro hwhole
    obtain ⟨rfl, hsmall⟩ := hwhole
    rw [outcomesOf, if_pos hsmall]
    rfl

theorem answer_lines (answer : AnswerBody) : ∀ piece ∈ answer.pieces, piece ≠ [] ∧ kLF ∉ piece := by
  intro piece hpiece
  obtain ⟨hflatten, hsome⟩ := answer.cut
  constructor
  · intro hempty
    rw [hempty] at hpiece
    exact hsome.resolve_left id hpiece
  · intro hline
    apply answer.line
    rw [← hflatten]
    exact List.mem_flatten_of_mem hpiece hline

/-- **The bodies of answers.** Of bodies that come one after another each is read as its message and as nothing else
exactly if each comes in one piece that the codec takes. -/
theorem readBodies_iff (answers : List AnswerBody) :
    readBodies parseMessage new (answers.map AnswerBody.pieces) =
        answers.map (fun answer => [.parsed (parseMessage answer.text)]) ↔
      ∀ answer ∈ answers, answer.pieces = [answer.text] ∧ answer.text.length ≤ kMaxHttpBodyChunkSize := by
  induction answers with
  | nil => simp [readBodies]
  | cons answer answers ih =>
      have hbody := readBody_eq parseMessage (answer_lines answer)
      rw [List.map_cons, List.map_cons, readBodies, hbody, List.cons.injEq, outcomesOf_eq_iff, List.forall_mem_cons]
      apply and_congr_right
      intro hwhole
      have hnone : ¬ ∃ piece ∈ answer.pieces, kMaxHttpBodyChunkSize < piece.length := by
        rw [hwhole.1]
        simp [Nat.not_lt.mpr hwhole.2]
      rw [decide_eq_false hnone]
      exact ih

/-- An answer whose body is cut in the middle. -/
def cutAnswer : AnswerBody where
  text := ascii "\x7b\"id\":1,\"result\":0\x7d"
  pieces := [ascii "\x7b\"id\":1,", ascii "\"result\":0\x7d"]
  nonempty := by decide
  line := by decide
  cut := ⟨by decide, Or.inr (by decide)⟩

/-- Of its text and its pieces, what the reader knows for a message. -/
def knownMessage (line : Bytes) : Option Bytes := if line = cutAnswer.text then some line else none

/-- It is read as two lines, neither of which is the message. -/
theorem not_readBodies_cut :
    readBodies knownMessage new [cutAnswer.pieces] = [[.parsed none, .parsed none]] ∧
      readBodies knownMessage new [cutAnswer.pieces] ≠ [[.parsed (knownMessage cutAnswer.text)]] := by
  have hread : readBodies knownMessage new [cutAnswer.pieces] = [[.parsed none, .parsed none]] := by decide
  refine ⟨hread, ?_⟩
  rw [hread]
  decide

end ClientBodies

end GopherMcp
