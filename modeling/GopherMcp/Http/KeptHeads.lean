import GopherMcp.Http.AsyncClient

/-!
# Heads that are kept whole

Of a head in spans the codec keeps the last span of the reason phrase and of each name, and no field without a value;
the client takes the field called status for the reason phrase. So the caller is given the head as it was sent where
none of that happens to it, and where no two values stand under one name.
-/

namespace GopherMcp

open WireWriter (lowercase mem_lowercase_iff)
open MirroredHeaders (isDigit numberOf kPlus kMinus afterSign numberOf_toDecimal isDigit_of_mem_toDecimal)
open ParserCallbacks (spans storeAll startMap kept readHead)
open Pieces (last)
open ProtocolDetection (isSpace)

/-! ### Numbers read back -/

theorem stoi_append_of_spaces {left : Bytes} (h : ∀ c ∈ left, isSpace c = true) (text : Bytes) :
    stoi (left ++ text) = stoi text := by
  unfold stoi
  rw [List.dropWhile_append_of_pos h]

/-- The number is read up to where the digits end. -/
theorem stoi_of_digits {digits rest : Bytes} (hne : digits ≠ []) (hdigits : ∀ c ∈ digits, isDigit c = true)
    (hrest : ∀ c ∈ rest.head?, isDigit c = false) :
    stoi (digits ++ rest) = if numberOf digits < 2 ^ 31 then some (numberOf digits : Int) else none := by
  obtain ⟨first, others, htext⟩ := List.exists_cons_of_ne_nil hne
  have hfirst : 48 ≤ first ∧ first ≤ 57 := by
    have hdigit := hdigits first (by rw [htext]; exact List.mem_cons_self)
    simpa [isDigit] using hdigit
  have hspace : isSpace first = false := by
    rw [isSpace, Bool.or_eq_false_iff, beq_eq_false_iff_ne, Bool.and_eq_false_iff]
    rw [UInt8.le_iff_toNat_le, UInt8.le_iff_toNat_le] at hfirst
    have hlow : 48 ≤ first.toNat := hfirst.1
    refine ⟨fun heq => ?_, .inr ?_⟩
    · rw [heq] at hlow
      exact absurd hlow (by decide)
    · rw [decide_eq_false_iff_not, UInt8.le_iff_toNat_le]
      show ¬ first.toNat ≤ 13
      omega
  have hsign : first ≠ kPlus ∧ first ≠ kMinus := by
    constructor <;> rintro rfl <;> exact absurd hfirst.1 (by decide)
  have hdrop : (digits ++ rest).dropWhile isSpace = digits ++ rest := by
    rw [htext, List.cons_append, List.dropWhile_cons_of_neg (by simp [hspace])]
  have hafter : afterSign (digits ++ rest) = digits ++ rest := by
    rw [htext, List.cons_append, afterSign, if_neg (by simp [hsign])]
  have htake : (digits ++ rest).takeWhile isDigit = digits := by
    rw [List.takeWhile_append_of_pos hdigits]
    cases rest with
    | nil => exact List.append_nil digits
    | cons next rest =>
        rw [List.takeWhile_cons_of_neg (by simp [hrest next rfl]), List.append_nil]
  have hhead : ¬ (digits ++ rest).head? = some kMinus := by
    rw [htext, List.cons_append]
    simpa using hsign.2
  have hrange : -2 ^ 31 ≤ (numberOf digits : Int) ∧ (numberOf digits : Int) < 2 ^ 31 ↔
      numberOf digits < 2 ^ 31 := by omega
  unfold stoi
  dsimp only
  rw [hdrop, hafter, htake, if_neg hne, if_neg hhead]
  exact if_congr hrange rfl rfl

theorem stoi_toDecimal {n : Nat} (h : n < 2 ^ 31) : stoi (toDecimal n) = some (n : Int) := by
  have hread := @stoi_of_digits (toDecimal n) [] (by simp [toDecimal]) (fun _ hc => isDigit_of_mem_toDecimal hc)
    (by simp)
  rwa [List.append_nil, numberOf_toDecimal, if_pos h] at hread

/-! ### The spans of a head -/

namespace HeadSoFar

theorem spans_addReason {h : HeadSoFar} (hfields : h.division.fields = []) (data : Bytes) :
    spans false (h.addReason data).division = spans false h.division ++ [.status data] := by
  have hsame : (h.addReason data).division.fields = [] := hfields
  unfold spans
  rw [hfields, hsame]
  simp [addReason, division, ParserCallbacks.startSpan]

theorem spans_addName (h : HeadSoFar) (data : Bytes) :
    spans false (h.addName data).division = spans false h.division ++ [.headerField data] := by
  obtain ⟨start, done, pending⟩ := h
  rcases pending with - | ⟨names, - | ⟨value, values⟩⟩
  · simp [addName, division, spans]
  · simp [addName, division, spans]
  · simp [addName, division, spans]

theorem spans_addValue {h : HeadSoFar} (hpending : h.pending.isSome = true) (data : Bytes) :
    spans false (h.addValue data).division = spans false h.division ++ [.headerValue data] := by
  obtain ⟨start, done, pending⟩ := h
  obtain ⟨field, rfl⟩ := Option.isSome_iff_exists.mp hpending
  simp [addValue, division, spans]

/-- No name has a colon in it. -/
def Plain (h : HeadSoFar) : Prop := ∀ field ∈ h.division.fields, kColon ∉ field.1.flatten

theorem plain_empty : Plain empty := fun _ hin => absurd hin List.not_mem_nil

theorem Plain.addReason {h : HeadSoFar} (plain : h.Plain) (data : Bytes) : (h.addReason data).Plain := plain

theorem Plain.addName {h : HeadSoFar} (plain : h.Plain) {data : Bytes} (hdata : kColon ∉ data) :
    (h.addName data).Plain := by
  obtain ⟨start, done, pending⟩ := h
  rcases pending with - | ⟨names, - | ⟨value, values⟩⟩
  all_goals
    intro field hfield
    simp only [HeadSoFar.addName, division, Option.toList_some, List.mem_append, List.mem_singleton] at hfield
  · obtain hdone | rfl := hfield
    · exact plain field (by simp [division, hdone])
    · simpa using hdata
  · obtain hdone | rfl := hfield
    · exact plain field (by simp [division, hdone])
    · have hnames := plain (names, []) (by simp [division])
      simpa [hdata] using hnames
  · obtain (hdone | rfl) | rfl := hfield
    · exact plain field (by simp [division, hdone])
    · exact plain (names, value :: values) (by simp [division])
    · simpa using hdata

theorem Plain.addValue {h : HeadSoFar} (plain : h.Plain) (data : Bytes) : (h.addValue data).Plain := by
  obtain ⟨start, done, pending⟩ := h
  cases pending with
  | none => exact plain
  | some field =>
      intro other hother
      simp only [HeadSoFar.addValue, division, Option.map_some, Option.toList_some, List.mem_append,
        List.mem_singleton] at hother
      obtain hdone | rfl := hother
      · exact plain other (by simp [division, hdone])
      · exact plain field (by simp [division])

/-- The head is kept whole: the reason phrase came in one span and so did each name, no field is without a value or
called status, and no two have one name and different values. -/
def KeptWhole (h : HeadSoFar) : Prop :=
  h.start.length ≤ 1 ∧
    (∀ field ∈ h.division.fields, field.1.length = 1 ∧ field.1.flatten ≠ [] ∧ field.2.flatten ≠ [] ∧
      lowercase field.1.flatten ≠ ascii "status") ∧
    ∀ field ∈ h.fields, ∀ other ∈ h.fields, lowercase field.1 = lowercase other.1 → field.2 = other.2

instance decidableKeptWhole (h : HeadSoFar) : Decidable h.KeptWhole :=
  inferInstanceAs (Decidable (_ ∧ _ ∧ _))

theorem last_of_length {pieces : List Bytes} (h : pieces.length ≤ 1) : last pieces = pieces.flatten := by
  cases pieces with
  | nil => rfl
  | cons piece rest =>
      obtain rfl : rest = [] := List.eq_nil_of_length_eq_zero (by simpa using h)
      simp [last]

/-- What the codec keeps of such a head are its fields. -/
theorem kept_of_keptWhole {h : HeadSoFar} (hwhole : h.KeptWhole) : kept h.division.fields = h.fields := by
  unfold kept fields
  apply List.map_congr_left
  intro field hfield
  rw [last_of_length (hwhole.2.1 field hfield).1.le]

/-! ### What the caller is given -/

/-- A map of headers that is looked through for one that is under several names in turn finds it wherever the maps
before it agree. -/
theorem find?_storeAll_congr {m other : OrdMap Bytes Bytes} {key : Bytes} (h : m.find? key = other.find? key)
    (fields : List (Bytes × Bytes)) : (storeAll m fields).find? key = (storeAll other fields).find? key := by
  induction fields generalizing m other with
  | nil => exact h
  | cons field rest ih =>
      unfold storeAll at ih ⊢
      rw [List.foldl_cons, List.foldl_cons]
      apply ih
      split_ifs
      · exact h
      · rw [OrdMap.find?_insert, OrdMap.find?_insert, h]

theorem storeAll_eq_headerMap {fields : List (Bytes × Bytes)} (h : ∀ field ∈ fields, field.2 ≠ []) :
    storeAll .empty fields = headerMap fields := by
  unfold storeAll headerMap
  apply List.foldl_ext
  intro m field hfield
  rw [if_neg (by simpa using h field hfield)]

end HeadSoFar

/-- A response is given as it was sent. Without a reason phrase it has the one that is usual. -/
structure Gives (m : ResponseMessage) (r : HttpResponse) : Prop where
  statusCode : r.statusCode = m.statusCode.toNat
  statusText : r.statusText = if m.reason = [] then statusTextForCode m.statusCode.toNat else m.reason
  headers : ∀ key value, r.headers.find? key = some value ↔
    ∃ field ∈ m.fields, lowercase field.1 = key ∧ field.2 = value
  body : r.body = m.body

/-- What is under a name is under it in a field, and the other way round where no two fields disagree. -/
theorem find?_headerMap {fields : List (Bytes × Bytes)} (alike : ∀ field ∈ fields, ∀ other ∈ fields,
    lowercase field.1 = lowercase other.1 → field.2 = other.2) (key value : Bytes) :
    (headerMap fields).find? key = some value ↔ ∃ field ∈ fields, lowercase field.1 = key ∧ field.2 = value := by
  induction fields using List.reverseRecOn with
  | nil =>
      constructor
      · intro hfind
        exact absurd hfind (by simp [headerMap])
      · rintro ⟨field, hin, -⟩
        cases hin
  | append_singleton rest field ih =>
      have hrest := ih fun one hone other hother =>
        alike one (List.mem_append_left _ hone) other (List.mem_append_left _ hother)
      have hmap : headerMap (rest ++ [field]) = (headerMap rest).insert (lowercase field.1) field.2 := by
        simp [headerMap]
      rw [hmap, OrdMap.find?_insert]
      split_ifs with hkey
      · subst hkey
        constructor
        · intro hvalue
          exact ⟨field, by simp, rfl, Option.some.inj hvalue⟩
        · rintro ⟨other, hin, hname, rfl⟩
          exact congrArg some (alike field (by simp) other hin hname.symm)
      · rw [hrest]
        constructor
        · rintro ⟨other, hin, hother⟩
          exact ⟨other, List.mem_append_left _ hin, hother⟩
        · rintro ⟨other, hin, hname, hvalue⟩
          obtain hin | hin := List.mem_append.mp hin
          · exact ⟨other, hin, hname, hvalue⟩
          · rw [List.mem_singleton.mp hin] at hname
            exact absurd hname.symm hkey

/-! ### Headers copied one by one -/

section Copying

open RequestContext (copyHeader)

variable (headers : OrdMap Bytes Bytes) (r : HttpResponse)

theorem body_copied : (headers.entries.foldl copyHeader r).body = r.body := by
  refine OrdMap.foldl_entries_of_untouched HttpResponse.body (fun s entry => ?_) headers r
  unfold copyHeader
  split_ifs <;> rfl

theorem statusCode_copied : (headers.entries.foldl copyHeader r).statusCode =
    (headers.find? (ascii ":status")).elim r.statusCode fun value => (stoi value).getD 0 := by
  refine OrdMap.foldl_entries_of_key HttpResponse.statusCode (fun s value => ?_) (fun s entry hother => ?_) headers r
  · exact congrArg HttpResponse.statusCode (if_pos rfl)
  · unfold copyHeader
    rw [if_neg hother]
    split_ifs <;> rfl

theorem statusText_copied : (headers.entries.foldl copyHeader r).statusText =
    (headers.find? (ascii "status")).elim r.statusText id := by
  refine OrdMap.foldl_entries_of_key HttpResponse.statusText (fun s value => ?_) (fun s entry hother => ?_) headers r
  · unfold copyHeader
    rw [if_neg (show ascii "status" ≠ ascii ":status" by decide), if_pos rfl]
    rfl
  · unfold copyHeader
    rw [if_neg hother]
    split_ifs <;> rfl

/-- A header under any other name is copied. -/
theorem header_copied {key : Bytes} (hcode : key ≠ ascii ":status") (htext : key ≠ ascii "status") :
    (headers.entries.foldl copyHeader r).headers.find? key = (headers.find? key).elim (r.headers.find? key) some := by
  refine OrdMap.foldl_entries_of_key (fun r : HttpResponse => r.headers.find? key) (fun s value => ?_)
    (fun s entry hother => ?_) headers r
  · unfold copyHeader
    rw [if_neg hcode, if_neg htext]
    exact OrdMap.find?_insert_self _ _ _
  · unfold copyHeader
    split_ifs
    · rfl
    · rfl
    · exact OrdMap.find?_insert_of_ne _ (Ne.symm hother) _

/-- The two names that are not headers are no headers afterwards. -/
theorem special_copied {key : Bytes} (h : key = ascii ":status" ∨ key = ascii "status") :
    (headers.entries.foldl copyHeader r).headers.find? key = r.headers.find? key := by
  refine OrdMap.foldl_entries_of_untouched (fun r : HttpResponse => r.headers.find? key) (fun s entry => ?_) headers r
  unfold copyHeader
  split_ifs with hcode htext
  · rfl
  · rfl
  · refine OrdMap.find?_insert_of_ne _ (fun heq => ?_) entry.2
    obtain rfl | rfl := h
    · exact hcode heq.symm
    · exact htext heq.symm

end Copying

/-! ### The head that the caller is given -/

open RequestContext (copyHeader withStatusText)

/-- What a context without a response makes of the headers of a head. -/
def heardHead (base : ParserCallbacks) (h : HeadSoFar) (statusCode : UInt16) : HttpResponse :=
  withStatusText ((readHead base ⟨.unknown, statusCode, [], [], by simp⟩ h.division).entries.foldl copyHeader
    ⟨0, [], .empty, []⟩)

theorem body_heardHead (base : ParserCallbacks) (h : HeadSoFar) (statusCode : UInt16) :
    (heardHead base h statusCode).body = [] := by
  unfold heardHead withStatusText
  split_ifs <;> exact body_copied _ _

section Whole

variable {h : HeadSoFar}

/-- No field is under one of the two names that are not headers. -/
theorem find?_headerMap_of_special (plain : h.Plain) (whole : h.KeptWhole) {key : Bytes}
    (hkey : key = ascii ":status" ∨ key = ascii "status") : (headerMap h.fields).find? key = none := by
  refine Option.eq_none_iff_forall_ne_some.mpr fun value hfind => ?_
  obtain ⟨field, hfield, hname, -⟩ := (find?_headerMap whole.2.2 key value).mp hfind
  obtain ⟨cut, hcut, rfl⟩ := List.mem_map.mp hfield
  obtain rfl | rfl := hkey
  · have hcolon : kColon ∈ lowercase cut.1.flatten := by
      rw [hname]
      decide
    exact plain cut hcut ((mem_lowercase_iff (by decide) (by decide) _).mp hcolon)
  · exact (whole.2.1 cut hcut).2.2.2 hname

/-- The headers of the stream, name by name. -/
theorem find?_readHead {base : ParserCallbacks} (hbase : base.isServer = false) (whole : h.KeptWhole)
    (head : MessageHead) (key : Bytes) :
    (readHead base head h.division).find? key =
      if key = ascii ":status" then some (toDecimal head.statusCode.toNat)
      else if key = ascii "status" then (if h.start = [] then none else some h.start.flatten)
      else (headerMap h.fields).find? key := by
  have hcuts : ∀ cut ∈ h.division.fields, cut.1 ≠ [] ∧ last cut.1 ≠ [] := by
    intro cut hcut
    obtain ⟨hlength, hname, -⟩ := whole.2.1 cut hcut
    refine ⟨List.ne_nil_of_length_pos (by omega), ?_⟩
    rwa [HeadSoFar.last_of_length hlength.le]
  have hvalues : ∀ field ∈ h.fields, field.2 ≠ [] := by
    intro field hfield
    obtain ⟨cut, hcut, rfl⟩ := List.mem_map.mp hfield
    exact (whole.2.1 cut hcut).2.2.1
  rw [ParserCallbacks.readHead_eq base head hcuts, HeadSoFar.kept_of_keptWhole whole, hbase, OrdMap.find?_insert,
    show ParserCallbacks.endKey false = ascii ":status" from rfl]
  by_cases hcode : key = ascii ":status"
  · rw [if_pos hcode, if_pos hcode]
    rfl
  by_cases htext : key = ascii "status"
  · have hrest : (storeAll (startMap false .empty h.start) h.fields).find? (ascii "status") =
        (startMap false .empty h.start).find? (ascii "status") := by
      refine ParserCallbacks.find?_storeAll_of_ne (fun field hfield _ => ?_) _
      obtain ⟨cut, hcut, rfl⟩ := List.mem_map.mp hfield
      exact (whole.2.1 cut hcut).2.2.2
    rw [if_neg hcode, if_neg hcode, if_pos htext, htext]
    refine hrest.trans ?_
    unfold startMap
    by_cases hstart : h.start = []
    · rw [if_pos hstart, if_pos (by simpa using hstart)]
      rfl
    · rw [if_neg hstart, if_neg (by simpa using hstart), HeadSoFar.last_of_length whole.1]
      exact OrdMap.find?_insert_self _ _ _
  · have hbefore : (startMap false .empty h.start).find? key = OrdMap.empty.find? key := by
      unfold startMap
      split_ifs
      · rfl
      · exact OrdMap.find?_insert_of_ne _ htext _
    rw [if_neg hcode, if_neg hcode, if_neg htext, ← HeadSoFar.storeAll_eq_headerMap hvalues]
    exact HeadSoFar.find?_storeAll_congr hbefore _

end Whole

/-- **A head that is kept whole is given as it was sent.** -/
theorem heardHead_of_keptWhole {base : ParserCallbacks} (hbase : base.isServer = false) {h : HeadSoFar}
    (plain : h.Plain) (whole : h.KeptWhole) (statusCode : UInt16) :
    heardHead base h statusCode =
      ⟨statusCode.toNat,
        if h.start.flatten = [] then statusTextForCode statusCode.toNat else h.start.flatten,
        headerMap h.fields, []⟩ := by
  have hfind := find?_readHead hbase whole ⟨.unknown, statusCode, [], [], by simp⟩
  unfold heardHead
  generalize readHead base _ h.division = headers at hfind ⊢
  have hcode : (headers.entries.foldl copyHeader ⟨0, [], .empty, []⟩).statusCode = statusCode.toNat := by
    have hlt : statusCode.toNat < 2 ^ 31 := lt_of_lt_of_le statusCode.toNat_lt (by norm_num)
    rw [statusCode_copied, hfind, if_pos rfl, Option.elim_some, stoi_toDecimal hlt, Option.getD_some]
  have htext : (headers.entries.foldl copyHeader ⟨0, [], .empty, []⟩).statusText = h.start.flatten := by
    rw [statusText_copied, hfind, if_neg (by decide), if_pos rfl]
    split_ifs with hstart
    · rw [hstart]
      rfl
    · rfl
  have hheaders : (headers.entries.foldl copyHeader ⟨0, [], .empty, []⟩).headers = headerMap h.fields := by
    apply OrdMap.eq_of_find?_eq
    intro key
    by_cases hspecial : key = ascii ":status" ∨ key = ascii "status"
    · rw [special_copied _ _ hspecial, find?_headerMap_of_special plain whole hspecial]
      rfl
    · obtain ⟨hcode, htext⟩ := not_or.mp hspecial
      rw [header_copied _ _ hcode htext, hfind, if_neg hcode, if_neg htext]
      cases (headerMap h.fields).find? key with
      | none => rfl
      | some value => rfl
  have hbody := body_copied headers ⟨0, [], .empty, []⟩
  generalize headers.entries.foldl copyHeader _ = filled at hcode htext hheaders hbody ⊢
  obtain ⟨code, text, map, body⟩ := filled
  dsimp only at hcode htext hheaders hbody
  subst hcode htext hheaders hbody
  unfold withStatusText
  by_cases hreason : h.start.flatten = []
  · rw [if_pos (by simpa using hreason), if_pos hreason]
  · rw [if_neg (by simpa using hreason), if_neg hreason]

end GopherMcp
