import GopherMcp.Transport.EventId

/-!
# Event stream formatting

A field is written as one line for each line of its value, so a value without lines writes nothing. A
line feed at the end of a value ends its last line and starts no other.
-/

namespace GopherMcp

/-- The lines `std::getline` reads. -/
def getlines : Bytes → List Bytes
  | [] => []
  | byte :: rest =>
      if byte = kLF then [] :: getlines rest
      else
        match getlines rest with
        | [] => [[byte]]
        | line :: lines => (byte :: line) :: lines

def formatLine (field line : Bytes) : Bytes := field ++ ascii ": " ++ line ++ [kLF]

def formatSseField (field value : Bytes) : Bytes := (getlines value).flatMap (formatLine field)

def formatSseEvent (event data : Bytes) (id : Option Bytes) : Bytes :=
  (if event ≠ [] then formatSseField (ascii "event") event else []) ++
    (match id with
      | some id => formatSseField (ascii "id") id
      | none => []) ++
    formatSseField (ascii "data") data ++ [kLF]

def formatSseComment (comment : Bytes) : Bytes := ascii ": " ++ comment ++ [kLF, kLF]

def formatSseRetry (retryMs : UInt32) : Bytes :=
  ascii "retry: " ++ toDecimal retryMs.toNat ++ [kLF, kLF]

/-! ### Lines -/

/-- Lines put together again, one line feed between two. -/
def rejoin : List Bytes → Bytes
  | [] => []
  | line :: lines => line ++ lines.flatMap (kLF :: ·)

/-- A value without the line feed that ends its last line. -/
def chomp (value : Bytes) : Bytes := if value.getLast? = some kLF then value.dropLast else value

theorem getlines_ne_nil {value : Bytes} (h : value ≠ []) : getlines value ≠ [] := by
  cases value with
  | nil => exact absurd rfl h
  | cons byte rest =>
      rw [getlines]
      split_ifs
      · exact List.cons_ne_nil _ _
      · cases getlines rest with
        | nil => exact List.cons_ne_nil _ _
        | cons line lines => exact List.cons_ne_nil _ _

theorem chomp_cons {byte : UInt8} {rest : Bytes} (h : rest ≠ []) :
    chomp (byte :: rest) = byte :: chomp rest := by
  rw [chomp, chomp, List.getLast?_cons_of_ne_nil h, List.dropLast_cons_of_ne_nil h]
  split_ifs <;> rfl

/-- **The lines of a value are the value**, but for the line feed at its end. -/
theorem rejoin_getlines (value : Bytes) : rejoin (getlines value) = chomp value := by
  induction value with
  | nil => rfl
  | cons byte rest ih =>
      by_cases hrest : rest = []
      · subst hrest
        by_cases hbyte : byte = kLF
        · simp [getlines, rejoin, chomp, hbyte]
        · simp [getlines, rejoin, chomp, hbyte]
      · obtain ⟨line, lines, hlines⟩ := List.exists_cons_of_ne_nil (getlines_ne_nil hrest)
        rw [chomp_cons hrest, ← ih, getlines, hlines]
        split_ifs with hbyte
        · simp [rejoin, hbyte]
        · rfl

/-- The bytes of the lines are bytes of the value, and none is a line feed. -/
theorem of_mem_getlines {value line : Bytes} (h : line ∈ getlines value) {byte : UInt8}
    (hbyte : byte ∈ line) : byte ∈ value ∧ byte ≠ kLF := by
  induction value generalizing line with
  | nil => exact absurd h List.not_mem_nil
  | cons first rest ih =>
      have hstep : byte ∈ rest ∧ byte ≠ kLF → byte ∈ first :: rest ∧ byte ≠ kLF :=
        fun hrest => ⟨List.mem_cons_of_mem _ hrest.1, hrest.2⟩
      rw [getlines] at h
      split_ifs at h with hfirst
      · obtain hline | hline := List.mem_cons.mp h
        · rw [hline] at hbyte
          exact absurd hbyte List.not_mem_nil
        · exact hstep (ih hline hbyte)
      · cases hlines : getlines rest with
        | nil =>
            rw [hlines, List.mem_singleton] at h
            rw [h, List.mem_singleton] at hbyte
            exact ⟨hbyte ▸ List.mem_cons_self, hbyte ▸ hfirst⟩
        | cons head lines =>
            rw [hlines] at h
            obtain hline | hline := List.mem_cons.mp h
            · rw [hline] at hbyte
              obtain hsame | hin := List.mem_cons.mp hbyte
              · exact ⟨hsame ▸ List.mem_cons_self, hsame ▸ hfirst⟩
              · exact hstep (ih (by rw [hlines]; exact List.mem_cons_self) hin)
            · exact hstep (ih (by rw [hlines]; exact List.mem_cons_of_mem _ hline) hbyte)

/-- A value on one line. -/
theorem getlines_of_not_mem {value : Bytes} (hvalue : value ≠ []) (h : kLF ∉ value) :
    getlines value = [value] := by
  induction value with
  | nil => exact absurd rfl hvalue
  | cons byte rest ih =>
      rw [List.mem_cons, not_or] at h
      rw [getlines, if_neg (Ne.symm h.1)]
      by_cases hrest : rest = []
      · rw [hrest]
        rfl
      · rw [ih hrest h.2]

/-- The first line is empty only where the value begins with a line feed. -/
theorem head_getlines_ne_nil {value line : Bytes} {lines : List Bytes} (h : value.head? ≠ some kLF)
    (hlines : getlines value = line :: lines) : line ≠ [] := by
  cases value with
  | nil => cases hlines
  | cons byte rest =>
      have hbyte : byte ≠ kLF := fun heq => h (congrArg some heq)
      rw [getlines, if_neg hbyte] at hlines
      cases hrest : getlines rest with
      | nil =>
          rw [hrest] at hlines
          exact (List.cons.inj hlines).1 ▸ List.cons_ne_nil _ _
      | cons head tail =>
          rw [hrest] at hlines
          exact (List.cons.inj hlines).1 ▸ List.cons_ne_nil _ _

end GopherMcp
