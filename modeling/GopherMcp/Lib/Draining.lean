import Mathlib

/-!
# Readers that drain a buffer

A reader is given a stream in chunks. It appends each to what it holds and takes turns at the front of
that until a turn finds nothing to take. A turn hands on some messages and leaves fewer bytes, or
it waits. The reader of an encoding takes whole codewords and waits inside one, and then it hands on
what was encoded, however the stream is cut.
-/

namespace Draining

variable {β μ : Type} (turn : List β → Option (List μ × List β))

/-! ### The loop -/

/-- Take turns until one waits; none when the fuel runs out first. -/
def drain : Nat → List β → Option (List μ × List β)
  | 0, _ => none
  | fuel + 1, held =>
      match turn held with
      | none => some ([], held)
      | some (handedOn, rest) =>
          (drain fuel rest).map fun (later, left) => (handedOn ++ later, left)

/-- One turn leads from what is held to what it leaves. -/
def Turns (held rest : List β) : Prop := ∃ handedOn, turn held = some (handedOn, rest)

/-- What is held at the start of some turn of the loop. -/
def Reaches : List β → List β → Prop := Relation.ReflTransGen (Turns turn)

variable {turn}

theorem drain_of_waits {held : List β} (hwait : turn held = none) (fuel : Nat) :
    drain turn (fuel + 1) held = some ([], held) := by
  rw [drain, hwait]

theorem drain_of_turn {held rest : List β} {handedOn : List μ}
    (hturn : turn held = some (handedOn, rest)) (fuel : Nat) :
    drain turn (fuel + 1) held =
      (drain turn fuel rest).map fun (later, left) => (handedOn ++ later, left) := by
  rw [drain, hturn]

theorem Reaches.head {held rest final : List β} {handedOn : List μ}
    (hturn : turn held = some (handedOn, rest)) (hreach : Reaches turn rest final) :
    Reaches turn held final :=
  Relation.ReflTransGen.head ⟨handedOn, hturn⟩ hreach

/-- A loop whose every turn takes something ends. -/
theorem drain_ends {held : List β}
    (hshrinks : ∀ s handedOn rest, Reaches turn held s → turn s = some (handedOn, rest) →
      rest.length < s.length) :
    ∃ result, drain turn (held.length + 1) held = some result := by
  suffices h : ∀ fuel (s : List β), Reaches turn held s → s.length < fuel →
      ∃ result, drain turn fuel s = some result from
    h _ held Relation.ReflTransGen.refl (Nat.lt_succ_self _)
  intro fuel
  induction fuel with
  | zero => exact fun s _ hfuel => absurd hfuel (Nat.not_lt_zero _)
  | succ fuel ih =>
      intro s hreach hfuel
      cases hturn : turn s with
      | none => exact ⟨_, drain_of_waits hturn fuel⟩
      | some next =>
          obtain ⟨handedOn, rest⟩ := next
          have hless := hshrinks s handedOn rest hreach hturn
          obtain ⟨⟨later, left⟩, hresult⟩ :=
            ih rest (hreach.tail ⟨handedOn, hturn⟩) (by omega)
          exact ⟨_, by rw [drain_of_turn hturn, hresult]; rfl⟩

/-! ### The reader of an encoding -/

variable (turn)

/-- Append each chunk to what is held and take turns. -/
def readChunks (fuel : Nat) : List β → List (List β) → Option (List μ × List β)
  | held, [] => some ([], held)
  | held, chunk :: chunks =>
      (drain turn fuel (held ++ chunk)).bind fun (handedOn, left) =>
        (readChunks fuel left chunks).map fun (later, final) => (handedOn ++ later, final)

/-- The turns read an encoding: they take a whole codeword at the front and hand on its message, and
they wait inside one. -/
structure ReadsCode (encode : μ → List β) (messages : List μ) : Prop where
  whole : ∀ message ∈ messages, ∀ rest, turn (encode message ++ rest) = some ([message], rest)
  inside : ∀ message ∈ messages, ∀ held, held <+: encode message → held ≠ encode message →
    turn held = none
  nonempty : ∀ message ∈ messages, encode message ≠ []
  empty : turn [] = none

variable {turn} {encode : μ → List β}

theorem ReadsCode.tail {message : μ} {messages : List μ}
    (h : ReadsCode turn encode (message :: messages)) : ReadsCode turn encode messages where
  whole m hm := h.whole m (List.mem_cons_of_mem _ hm)
  inside m hm := h.inside m (List.mem_cons_of_mem _ hm)
  nonempty m hm := h.nonempty m (List.mem_cons_of_mem _ hm)
  empty := h.empty

/-- Draining the front of an encoded list hands on the messages whose codewords are whole, and holds the
start of the rest. -/
theorem drain_front (messages : List μ) (h : ReadsCode turn encode messages) (held ahead : List β)
    (hwire : held ++ ahead = messages.flatMap encode) (fuel : Nat) (hfuel : held.length < fuel) :
    ∃ done waiting left, messages = done ++ waiting ∧
      drain turn fuel held = some (done, left) ∧ left ++ ahead = waiting.flatMap encode ∧
      turn left = none := by
  induction messages generalizing held fuel with
  | nil =>
      obtain ⟨rfl, rfl⟩ := List.append_eq_nil_iff.mp hwire
      cases fuel with
      | zero => exact absurd hfuel (Nat.not_lt_zero _)
      | succ fuel => exact ⟨[], [], [], rfl, drain_of_waits h.empty fuel, rfl, h.empty⟩
  | cons message messages ih =>
      obtain ⟨fuel, rfl⟩ : ∃ n, fuel = n + 1 := ⟨fuel - 1, by omega⟩
      rw [List.flatMap_cons] at hwire
      by_cases hwhole : encode message <+: held
      · obtain ⟨rest, rfl⟩ := hwhole
        rw [List.append_assoc, List.append_cancel_left_eq] at hwire
        have hpos := List.length_pos_iff.mpr (h.nonempty message List.mem_cons_self)
        rw [List.length_append] at hfuel
        obtain ⟨done, later, left, rfl, hdrain, hleft, hwait⟩ :=
          ih h.tail rest hwire fuel (by omega)
        refine ⟨message :: done, later, left, rfl, ?_, hleft, hwait⟩
        rw [drain_of_turn (h.whole message List.mem_cons_self rest), hdrain]
        rfl
      · have hinside : held <+: encode message := by
          have hheld : held <+: encode message ++ messages.flatMap encode := ⟨ahead, hwire⟩
          rcases List.prefix_or_prefix_of_prefix hheld (List.prefix_append _ _) with hin | hout
          · exact hin
          · exact absurd hout hwhole
        have hwait : turn held = none :=
          h.inside message List.mem_cons_self held hinside fun heq => hwhole (heq ▸ List.prefix_rfl)
        exact ⟨[], message :: messages, held, rfl, drain_of_waits hwait fuel,
          by rw [List.flatMap_cons]; exact hwire, hwait⟩

theorem ReadsCode.of_append {done later : List μ} (h : ReadsCode turn encode (done ++ later)) :
    ReadsCode turn encode later where
  whole m hm := h.whole m (List.mem_append_right _ hm)
  inside m hm := h.inside m (List.mem_append_right _ hm)
  nonempty m hm := h.nonempty m (List.mem_append_right _ hm)
  empty := h.empty

theorem readChunks_held (chunks : List (List β)) (messages : List μ)
    (h : ReadsCode turn encode messages) (held : List β) (hwait : turn held = none)
    (hwire : held ++ chunks.flatten = messages.flatMap encode) (fuel : Nat)
    (hfuel : (held ++ chunks.flatten).length < fuel) :
    readChunks turn fuel held chunks = some (messages, []) := by
  induction chunks generalizing messages held with
  | nil =>
      rw [List.flatten_nil, List.append_nil] at hwire
      cases messages with
      | nil => rw [hwire]; rfl
      | cons message messages =>
          rw [hwire, List.flatMap_cons, h.whole message List.mem_cons_self] at hwait
          exact absurd hwait (Option.some_ne_none _)
  | cons chunk chunks ih =>
      rw [List.flatten_cons, ← List.append_assoc] at hwire hfuel
      have hheld : (held ++ chunk).length < fuel := by
        rw [List.length_append] at hfuel
        omega
      obtain ⟨done, later, left, rfl, hdrain, hleft, hwait'⟩ :=
        drain_front messages h (held ++ chunk) chunks.flatten hwire fuel hheld
      have hshort : (left ++ chunks.flatten).length < fuel := by
        rw [hwire, List.flatMap_append, List.length_append, ← hleft] at hfuel
        omega
      have hrest := ih later h.of_append left hwait' hleft hshort
      simp only [readChunks, hdrain, Option.bind_some, hrest, Option.map_some]

/-- **Reading inverts writing under any cutting.** -/
theorem readChunks_flatMap {messages : List μ} (h : ReadsCode turn encode messages)
    {chunks : List (List β)} (hwire : chunks.flatten = messages.flatMap encode) {fuel : Nat}
    (hfuel : chunks.flatten.length < fuel) :
    readChunks turn fuel [] chunks = some (messages, []) :=
  readChunks_held chunks messages h [] h.empty hwire fuel hfuel

end Draining
