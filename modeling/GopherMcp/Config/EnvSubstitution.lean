import GopherMcp.Filter.ProtocolDetection
import GopherMcp.Lib.Delimited
import GopherMcp.Lib.Substitution
import GopherMcp.Protocol.MirroredHeaders

/-!
# Variables of the environment

A configuration file may refer to variables of the environment. The references are found on the text as it was read,
and then the last one is replaced first, where a search from the place it was found at meets it. What is behind a
reference has been replaced by then, and what is before it has not, so every reference is met where it was found, and
replacing them one by one is to replace them all at once.
-/

namespace GopherMcp

open MirroredHeaders (isDigit kMinus)
open ProtocolDetection (find)
open Substitution (Divides Segment)

structure EnvReference where
  name : Bytes
  defaultValue : Option Bytes

/-- Where a reference was found, as it is written, and what stands for it. -/
structure EnvReplacement where
  pos : Nat
  pattern : Bytes
  replacement : Bytes

namespace EnvSubstitution

def kDollar : UInt8 := 36
def kOpenBrace : UInt8 := 123
def kCloseBrace : UInt8 := 125
def kUnderscore : UInt8 := 95

def isNameStart (c : UInt8) : Bool := (65 ≤ c && c ≤ 90) || (97 ≤ c && c ≤ 122) || c == kUnderscore

def isNameChar (c : UInt8) : Bool := isNameStart c || isDigit c

/-! ### The grammar -/

/-- A letter or an underscore, and then digits as well. -/
def IsName (name : Bytes) : Prop :=
  ∃ first rest, name = first :: rest ∧ isNameStart first = true ∧ ∀ c ∈ rest, isNameChar c = true

/-- A name in braces behind a dollar, with a default behind a colon or behind a colon and a dash. A default that begins
with a dash stands behind a dash. -/
def Spells (reference : EnvReference) (word : Bytes) : Prop :=
  IsName reference.name ∧
    match reference.defaultValue with
    | none => word = kDollar :: kOpenBrace :: (reference.name ++ [kCloseBrace])
    | some value =>
        kCloseBrace ∉ value ∧
          (word = kDollar :: kOpenBrace :: (reference.name ++ kColon :: kMinus :: (value ++ [kCloseBrace])) ∨
            value.head? ≠ some kMinus ∧
              word = kDollar :: kOpenBrace :: (reference.name ++ kColon :: (value ++ [kCloseBrace])))

/-- What stands behind the colon, up to the brace. -/
def matchDefault (name behind : Bytes) : Option (EnvReference × Bytes) :=
  let dash := if behind.head? = some kMinus then [kMinus] else []
  (Delimited.cut (behind.drop dash.length) kCloseBrace).map fun parts =>
    (⟨name, some parts.1⟩, kDollar :: kOpenBrace :: (name ++ kColon :: (dash ++ (parts.1 ++ [kCloseBrace]))))

/-- What stands behind the name. -/
def matchName (name : Bytes) : Bytes → Option (EnvReference × Bytes)
  | [] => none
  | c :: behind =>
      if c = kCloseBrace then some (⟨name, none⟩, kDollar :: kOpenBrace :: (name ++ [kCloseBrace]))
      else if c = kColon then matchDefault name behind
      else none

/-- `env_regex` at the front of a text: the reference and what it matches. -/
def matchEnvRegex : Bytes → Option (EnvReference × Bytes)
  | dollar :: brace :: body =>
      if dollar = kDollar ∧ brace = kOpenBrace ∧ (body.head?.any isNameStart) = true then
        matchName (body.takeWhile isNameChar) (body.dropWhile isNameChar)
      else none
  | _ => none

variable {text word name value behind : Bytes} {reference : EnvReference}

/-- A name is read up to where it ends. -/
theorem matchEnvRegex_append (hname : IsName name) {c : UInt8} (hc : isNameChar c = false) (behind : Bytes) :
    matchEnvRegex (kDollar :: kOpenBrace :: (name ++ c :: behind)) = matchName name (c :: behind) := by
  obtain ⟨first, others, rfl, hfirst, hothers⟩ := hname
  have hall : ∀ letter ∈ first :: others, isNameChar letter = true := by
    intro letter hletter
    obtain rfl | hlater := List.mem_cons.mp hletter
    · rw [isNameChar, hfirst, Bool.true_or]
    · exact hothers letter hlater
  have hhead : ((first :: others ++ c :: behind).head?.any isNameStart) = true := hfirst
  rw [matchEnvRegex, if_pos ⟨rfl, rfl, hhead⟩, List.takeWhile_append_of_pos hall, List.dropWhile_append_of_pos hall,
    List.takeWhile_cons_of_neg (by simp [hc]), List.dropWhile_cons_of_neg (by simp [hc]), List.append_nil]

theorem matchEnvRegex_eq_some (h : matchEnvRegex text = some (reference, word)) :
    ∃ name behind, IsName name ∧ text = kDollar :: kOpenBrace :: (name ++ behind) ∧
      matchName name behind = some (reference, word) := by
  unfold matchEnvRegex at h
  split at h
  · split_ifs at h with hopen
    obtain ⟨rfl, rfl, hstart⟩ := hopen
    rename_i body
    refine ⟨body.takeWhile isNameChar, body.dropWhile isNameChar, ?_, by rw [List.takeWhile_append_dropWhile], h⟩
    cases body with
    | nil => cases hstart
    | cons first others =>
        have hfirst : isNameStart first = true := hstart
        have hchar : isNameChar first = true := by rw [isNameChar, hfirst, Bool.true_or]
        exact ⟨first, others.takeWhile isNameChar, List.takeWhile_cons_of_pos hchar, hfirst,
          fun c hc => List.mem_takeWhile_imp hc⟩
  · cases h

/-- Behind the colon stands the default, with its dash or without. -/
theorem matchDefault_eq_some_iff :
    matchDefault name behind = some (reference, word) ↔
      ∃ value after, kCloseBrace ∉ value ∧ reference = ⟨name, some value⟩ ∧
        (behind = kMinus :: (value ++ kCloseBrace :: after) ∧
            word = kDollar :: kOpenBrace :: (name ++ kColon :: kMinus :: (value ++ [kCloseBrace])) ∨
          behind = value ++ kCloseBrace :: after ∧ value.head? ≠ some kMinus ∧
            word = kDollar :: kOpenBrace :: (name ++ kColon :: (value ++ [kCloseBrace]))) := by
  unfold matchDefault
  rw [Option.map_eq_some_iff]
  by_cases hdash : behind.head? = some kMinus
  · obtain ⟨given, rfl⟩ := List.head?_eq_some_iff.mp hdash
    rw [if_pos hdash]
    constructor
    · rintro ⟨⟨value, after⟩, hcut, hparts⟩
      obtain ⟨hgiven, hfree⟩ := Delimited.cut_eq_some_iff.mp hcut
      obtain ⟨rfl, rfl⟩ := Prod.mk.inj hparts
      exact ⟨value, after, hfree, rfl, Or.inl ⟨congrArg (kMinus :: ·) hgiven, rfl⟩⟩
    · rintro ⟨value, after, hfree, rfl, ⟨hbehind, rfl⟩ | ⟨hbehind, hhead, -⟩⟩
      · exact ⟨(value, after), Delimited.cut_eq_some_iff.mpr ⟨(List.cons.inj hbehind).2, hfree⟩, rfl⟩
      · cases value with
        | nil => exact absurd (List.cons.inj hbehind).1 (by decide)
        | cons first others => exact absurd (congrArg some (List.cons.inj hbehind).1.symm) hhead
  · rw [if_neg hdash]
    constructor
    · rintro ⟨⟨value, after⟩, hcut, hparts⟩
      obtain ⟨rfl, hfree⟩ := Delimited.cut_eq_some_iff.mp hcut
      obtain ⟨rfl, rfl⟩ := Prod.mk.inj hparts
      refine ⟨value, after, hfree, rfl, Or.inr ⟨rfl, ?_, rfl⟩⟩
      intro hhead
      obtain ⟨others, rfl⟩ := List.head?_eq_some_iff.mp hhead
      exact hdash rfl
    · rintro ⟨value, after, hfree, rfl, ⟨rfl, -⟩ | ⟨rfl, -, rfl⟩⟩
      · exact absurd rfl hdash
      · exact ⟨(value, after), Delimited.cut_append hfree after, rfl⟩

/-- What a match leads with is a reference of the grammar. -/
theorem spells_of_matchEnvRegex (h : matchEnvRegex text = some (reference, word)) :
    Spells reference word ∧ word <+: text := by
  obtain ⟨name, behind, hname, rfl, hmatch⟩ := matchEnvRegex_eq_some h
  cases behind with
  | nil => cases hmatch
  | cons c behind =>
      rw [matchName] at hmatch
      split_ifs at hmatch with hclose hcolon
      · obtain ⟨rfl, rfl⟩ := Prod.mk.inj (Option.some.inj hmatch)
        exact ⟨⟨hname, rfl⟩, behind, by rw [hclose]; simp⟩
      · obtain ⟨value, after, hfree, rfl, ⟨rfl, rfl⟩ | ⟨rfl, hhead, rfl⟩⟩ := matchDefault_eq_some_iff.mp hmatch
        · exact ⟨⟨hname, hfree, Or.inl rfl⟩, after, by rw [hcolon]; simp⟩
        · exact ⟨⟨hname, hfree, Or.inr ⟨hhead, rfl⟩⟩, after, by rw [hcolon]; simp⟩

theorem matchEnvRegex_of_spells (h : Spells reference word) (after : Bytes) :
    matchEnvRegex (word ++ after) = some (reference, word) := by
  obtain ⟨name, defaultValue⟩ := reference
  obtain ⟨hname, h⟩ := h
  cases defaultValue with
  | none =>
      have hword : word = kDollar :: kOpenBrace :: (name ++ [kCloseBrace]) := h
      have htext : word ++ after = kDollar :: kOpenBrace :: (name ++ kCloseBrace :: after) := by simp [hword]
      rw [htext, matchEnvRegex_append hname (by decide), matchName, if_pos rfl, hword]
  | some value =>
      obtain ⟨hfree, hword | ⟨hhead, hword⟩⟩ := h
      · have htext : word ++ after =
            kDollar :: kOpenBrace :: (name ++ kColon :: kMinus :: (value ++ kCloseBrace :: after)) := by simp [hword]
        rw [htext, matchEnvRegex_append hname (by decide), matchName, if_neg (by decide), if_pos rfl]
        exact matchDefault_eq_some_iff.mpr ⟨value, after, hfree, rfl, Or.inl ⟨rfl, hword⟩⟩
      · have htext : word ++ after =
            kDollar :: kOpenBrace :: (name ++ kColon :: (value ++ kCloseBrace :: after)) := by simp [hword]
        rw [htext, matchEnvRegex_append hname (by decide), matchName, if_neg (by decide), if_pos rfl]
        exact matchDefault_eq_some_iff.mpr ⟨value, after, hfree, rfl, Or.inr ⟨rfl, hhead, hword⟩⟩

/-- The word a text begins with is a reference of the grammar, and every one is found. -/
theorem matchEnvRegex_eq_some_iff :
    matchEnvRegex text = some (reference, word) ↔ Spells reference word ∧ word <+: text := by
  refine ⟨spells_of_matchEnvRegex, ?_⟩
  rintro ⟨hspells, after, rfl⟩
  exact matchEnvRegex_of_spells hspells after

theorem ne_nil_of_spells (h : Spells reference word) : word ≠ [] := by
  obtain ⟨-, h⟩ := h
  rintro rfl
  split at h
  · cases h
  · obtain ⟨-, h | ⟨-, h⟩⟩ := h
    · cases h
    · cases h

def envReader : Substitution.Reader UInt8 EnvReference where
  Spells := Spells
  read := matchEnvRegex
  read_eq_some_iff := matchEnvRegex_eq_some_iff
  ne_nil := ne_nil_of_spells

/-! ### The loops -/

/-- The variable's value, or else the default. -/
def valueOf (env : Bytes → Option Bytes) (reference : EnvReference) : Option Bytes :=
  (env reference.name).orElse fun _ => reference.defaultValue

/-- The references from a place on, with what stands for them. -/
def replacementsFrom (env : Bytes → Option Bytes) (searchStart : Nat) (text : Bytes) :
    Except Bytes (List EnvReplacement) :=
  match _hsearch : Substitution.search envReader text with
  | none => .ok []
  | some (before, reference, pattern) =>
      match valueOf env reference with
      | none => .error (ascii "Undefined environment variable: " ++ reference.name)
      | some replacement =>
          (replacementsFrom env (searchStart + before.length + pattern.length)
              (text.drop (before.length + pattern.length))).map
            (⟨searchStart + before.length, pattern, replacement⟩ :: ·)
termination_by text.length
decreasing_by
  obtain ⟨after, rfl, hspells, -⟩ := Substitution.search_eq_some _hsearch
  have hpattern := List.length_pos_iff.mpr (ne_nil_of_spells hspells)
  simp only [List.length_drop, List.length_append]
  omega

/-- The pattern is searched from where it was found. -/
def applyReplacement (result : Bytes) (item : EnvReplacement) : Bytes :=
  match find item.pattern (result.drop item.pos) with
  | none => result
  | some offset =>
      result.take (item.pos + offset) ++ item.replacement ++ result.drop (item.pos + offset + item.pattern.length)

/-- The last replacement is made first. -/
def substituteEnvironmentVariables (env : Bytes → Option Bytes) (content : Bytes) : Except Bytes Bytes :=
  (replacementsFrom env 0 content).map fun replacements => replacements.reverse.foldl applyReplacement content

/-! ### What is promised -/

/-- The text with all its references replaced at once. -/
def substituted (env : Bytes → Option Bytes) (segments : List (Segment UInt8 EnvReference)) (rest : Bytes) : Bytes :=
  segments.flatMap (fun segment => segment.literal ++ (valueOf env segment.item).getD []) ++ rest

/-- The first reference that nothing stands for. -/
def firstUndefined (env : Bytes → Option Bytes) (segments : List (Segment UInt8 EnvReference)) : Option EnvReference :=
  (segments.map Segment.item).find? fun reference => (valueOf env reference).isNone

/-- The replacements for the items of a text that begins at a place. -/
def replacementsOf (env : Bytes → Option Bytes) : Nat → List (Segment UInt8 EnvReference) → List EnvReplacement
  | _, [] => []
  | start, segment :: segments =>
      ⟨start + segment.literal.length, segment.word, (valueOf env segment.item).getD []⟩ ::
        replacementsOf env (start + segment.literal.length + segment.word.length) segments

/-! ### Finding the references -/

variable {env : Bytes → Option Bytes} {rest : Bytes} {segments : List (Segment UInt8 EnvReference)}

theorem replacementsFrom_of_free (env : Bytes → Option Bytes) (start : Nat)
    (h : Substitution.search envReader text = none) : replacementsFrom env start text = .ok [] := by
  rw [replacementsFrom]
  split
  · rfl
  · rename_i hsome
    rw [h] at hsome
    cases hsome

theorem replacementsFrom_of_search (env : Bytes → Option Bytes) (start : Nat) {before pattern after : Bytes}
    (h : Substitution.search envReader (before ++ (pattern ++ after)) = some (before, reference, pattern)) :
    replacementsFrom env start (before ++ (pattern ++ after)) =
      (valueOf env reference).elim (.error (ascii "Undefined environment variable: " ++ reference.name))
        fun replacement =>
          (replacementsFrom env (start + before.length + pattern.length) after).map
            (⟨start + before.length, pattern, replacement⟩ :: ·) := by
  have hdrop : (before ++ (pattern ++ after)).drop (before.length + pattern.length) = after := by
    rw [← List.append_assoc, ← List.length_append, List.drop_left]
  rw [replacementsFrom]
  split
  · rename_i hnone
    rw [h] at hnone
    cases hnone
  · rename_i before' reference' pattern' hsome
    rw [h, Option.some.injEq, Prod.mk.injEq, Prod.mk.injEq] at hsome
    obtain ⟨rfl, rfl, rfl⟩ := hsome
    rw [hdrop]
    cases valueOf env reference with
    | none => rfl
    | some replacement => rfl

theorem firstUndefined_cons (env : Bytes → Option Bytes) (segment : Segment UInt8 EnvReference)
    (segments : List (Segment UInt8 EnvReference)) :
    firstUndefined env (segment :: segments) =
      if (valueOf env segment.item).isNone then some segment.item else firstUndefined env segments := by
  unfold firstUndefined
  rw [List.map_cons, List.find?_cons]
  cases valueOf env segment.item with
  | none => rfl
  | some value => rfl

/-- The loop stops at the first reference that nothing stands for. -/
theorem replacementsFrom_of_divides (env : Bytes → Option Bytes) (h : Divides envReader text segments rest)
    (start : Nat) :
    replacementsFrom env start text =
      (firstUndefined env segments).elim (.ok (replacementsOf env start segments)) fun reference =>
        .error (ascii "Undefined environment variable: " ++ reference.name) := by
  induction h generalizing start with
  | rest text hfree => exact replacementsFrom_of_free env start (Substitution.search_eq_none_iff.mpr hfree)
  | segment literal word after item segments rest hspells hfree htail ih =>
      rw [replacementsFrom_of_search env start (Substitution.search_segment hspells hfree), ih, firstUndefined_cons,
        replacementsOf]
      dsimp only
      cases valueOf env item with
      | none => rfl
      | some replacement =>
          rw [Option.elim_some, Option.isNone_some, if_neg Bool.false_ne_true]
          cases firstUndefined env segments with
          | none => rfl
          | some reference => rfl

/-! ### Replacing them -/

theorem find_append (pattern behind : Bytes) : find pattern (pattern ++ behind) = some 0 := by
  cases pattern with
  | nil => cases behind <;> rfl
  | cons first others =>
      rw [List.cons_append, find, if_pos]
      simp

/-- The pattern is met where it was found. -/
theorem applyReplacement_append (front pattern behind replacement : Bytes) :
    applyReplacement (front ++ (pattern ++ behind)) ⟨front.length, pattern, replacement⟩ =
      front ++ (replacement ++ behind) := by
  have hdrop : (front ++ (pattern ++ behind)).drop (front.length + pattern.length) = behind := by
    rw [← List.append_assoc, ← List.length_append, List.drop_left]
  unfold applyReplacement
  dsimp only
  rw [List.drop_left, find_append]
  dsimp only
  rw [Nat.add_zero, List.take_left, hdrop, List.append_assoc]

/-- What is replaced last is not moved by what was replaced before it. -/
theorem foldr_applyReplacement (env : Bytes → Option Bytes) (h : Divides envReader text segments rest)
    (front : Bytes) :
    (replacementsOf env front.length segments).foldr (fun item result => applyReplacement result item)
        (front ++ text) = front ++ substituted env segments rest := by
  induction h generalizing front with
  | rest text hfree => rfl
  | segment literal word after item segments rest hspells hfree htail ih =>
      have hplace : front.length + literal.length = (front ++ literal).length := List.length_append.symm
      have hnext : (front ++ literal).length + word.length = (front ++ literal ++ word).length :=
        List.length_append.symm
      have htext : front ++ (literal ++ (word ++ after)) = front ++ literal ++ word ++ after := by
        simp only [List.append_assoc]
      rw [replacementsOf, List.foldr_cons, hplace, hnext, htext, ih, List.append_assoc (front ++ literal) word,
        applyReplacement_append]
      simp [substituted]

/-- **One pass.** The references of a text are those of its only division, reading them fails exactly if nothing stands
for one of them, naming the first of these, and otherwise all are replaced at once. -/
theorem substituteEnvironmentVariables_eq (env : Bytes → Option Bytes) (content : Bytes) :
    ∃ segments rest, Divides envReader content segments rest ∧
      (∀ other last, Divides envReader content other last → other = segments ∧ last = rest) ∧
      substituteEnvironmentVariables env content =
        (firstUndefined env segments).elim (.ok (substituted env segments rest)) fun reference =>
          .error (ascii "Undefined environment variable: " ++ reference.name) := by
  obtain ⟨segments, rest, hdivides⟩ := Substitution.exists_divides envReader content
  refine ⟨segments, rest, hdivides, fun other last hother => hdivides.unique hother, ?_⟩
  rw [substituteEnvironmentVariables, replacementsFrom_of_divides env hdivides]
  cases firstUndefined env segments with
  | some reference => rfl
  | none =>
      rw [Option.elim_none, Option.elim_none]
      refine congrArg Except.ok ?_
      dsimp only
      rw [List.foldl_reverse]
      exact foldr_applyReplacement env hdivides []

end EnvSubstitution

end GopherMcp
