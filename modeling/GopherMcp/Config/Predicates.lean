import GopherMcp.Json.Value
import GopherMcp.Lib.Scanning

/-!
# Predicates of filters

A filter may be enabled by predicates on the environment, the metadata of the node, the transport and the route. A
predicate reaches its evaluation as one text, put together from a key and a value and taken apart at its first colon and
its first equals sign.
-/

namespace GopherMcp

structure PredicateContext where
  nodeMetadata : OrdMap Bytes Bytes
  transportType : Bytes
  transportName : Bytes
  routePath : Bytes

structure PredicateResult where
  matched : Bool
  success : Bool
  errorMessage : Bytes := []
  predicateId : Bytes := []
deriving DecidableEq

/-- What an expression is taken apart into. -/
structure ParsedPredicate where
  type : Bytes
  key : Bytes
  value : Bytes
deriving DecidableEq

namespace PredicateEvaluator

def kEquals : UInt8 := 61
def kDot : UInt8 := 46

def kNodeMetadata : Bytes := ascii "node.metadata."
def kTransport : Bytes := ascii "transport."
def kRoute : Bytes := ascii "route."

def hasPrefix (str start : Bytes) : Bool :=
  if start.length > str.length then false else str.take start.length == start

/-! ### Taking an expression apart -/

/-- What stands behind the equals sign, if there is one. -/
def valueAfter (expr : Bytes) (equals : Option Nat) : Bytes :=
  match equals with
  | some place => expr.drop (place + 1)
  | none => []

/-- An expression with a colon in it. Only behind `env` the colon separates anything. -/
def parseAtColon (expr : Bytes) (colon : Nat) : Option ParsedPredicate :=
  let equals := Scanning.find expr kEquals 0
  if expr.take colon = ascii "env" then
    let remainder := expr.drop (colon + 1)
    match Scanning.find remainder kEquals 0 with
    | some place => some ⟨ascii "env", remainder.take place, remainder.drop (place + 1)⟩
    | none => some ⟨ascii "env", remainder, []⟩
  else if hasPrefix expr kNodeMetadata then
    let fullKey := expr.take (equals.getD expr.length)
    some ⟨ascii "node.metadata", fullKey.drop 14, valueAfter expr equals⟩
  else if hasPrefix expr kTransport then
    let dot := Scanning.find expr kDot 10
    if dot.isSome ∨ equals.isSome then
      let last := min (dot.getD expr.length) (equals.getD expr.length)
      some ⟨ascii "transport", (expr.drop 10).take (last - 10), valueAfter expr equals⟩
    else none
  else if hasPrefix expr kRoute then
    let routeKeyEnd := equals.getD expr.length
    some ⟨ascii "route", (expr.drop 6).take (routeKeyEnd - 6), valueAfter expr equals⟩
  else none

def parsePredicateExpr (expr : Bytes) : Option ParsedPredicate :=
  match Scanning.find expr kColon 0 with
  | some colon => parseAtColon expr colon
  | none =>
      -- The call to itself finds the colon that was put behind the expression.
      if hasPrefix expr kNodeMetadata ∨ hasPrefix expr kTransport ∨ hasPrefix expr kRoute then
        parseAtColon (expr ++ [kColon]) expr.length
      else none

/-! ### Evaluation -/

section Evaluation

variable (getenv : Bytes → Option Bytes)

/-- A variable that is not set reads as empty. The name ends where a C string ends. -/
def getEnvVar (varName : Bytes) : Bytes := (getenv (varName.takeWhile (· ≠ 0))).getD []

def evaluateEnvPredicate (predicate : Bytes) : PredicateResult :=
  let equals := Scanning.find predicate kEquals 0
  let varName := predicate.take (equals.getD predicate.length)
  let expectedValue := valueAfter predicate equals
  let actualValue := getEnvVar getenv varName
  if expectedValue = [] then ⟨actualValue ≠ [], true, [], []⟩ else ⟨actualValue = expectedValue, true, [], []⟩

/-- Without a value only the key is asked for. -/
def evaluateNodePredicate (key expectedValue : Bytes) (context : PredicateContext) : PredicateResult :=
  if expectedValue = [] then ⟨context.nodeMetadata.contains key, true, [], []⟩
  else
    match context.nodeMetadata.find? key with
    | none => ⟨false, true, [], []⟩
    | some value => ⟨value = expectedValue, true, [], []⟩

def evaluateTransportPredicate (predicateType expectedValue : Bytes) (context : PredicateContext) :
    PredicateResult :=
  if predicateType = ascii "type" then ⟨context.transportType = expectedValue, true, [], []⟩
  else if predicateType = ascii "name" then ⟨context.transportName = expectedValue, true, [], []⟩
  else ⟨false, false, ascii "Unknown transport predicate type: " ++ predicateType, []⟩

def evaluateRoutePredicate (predicateType expectedValue : Bytes) (context : PredicateContext) : PredicateResult :=
  if predicateType = ascii "path" then ⟨context.routePath = expectedValue, true, [], []⟩
  else if predicateType = ascii "path.prefix" then ⟨hasPrefix context.routePath expectedValue, true, [], []⟩
  else ⟨false, false, ascii "Unknown route predicate type: " ++ predicateType, []⟩

/-- Where a parsed predicate is evaluated. -/
def evaluateParsed (parsed : ParsedPredicate) (context : PredicateContext) : PredicateResult :=
  if parsed.type = ascii "env" then
    evaluateEnvPredicate getenv (parsed.key ++ if parsed.value = [] then [] else ascii "=" ++ parsed.value)
  else if parsed.type = ascii "node.metadata" then evaluateNodePredicate parsed.key parsed.value context
  else if parsed.type = ascii "transport" then evaluateTransportPredicate parsed.key parsed.value context
  else if parsed.type = ascii "route" then evaluateRoutePredicate parsed.key parsed.value context
  else ⟨false, false, ascii "Unknown predicate type: " ++ parsed.type, []⟩

def evaluateSingle (predicateExpr : Bytes) (context : PredicateContext) : PredicateResult :=
  match parsePredicateExpr predicateExpr with
  | none => ⟨false, false, ascii "Invalid predicate format: " ++ predicateExpr, []⟩
  | some parsed => { evaluateParsed getenv parsed context with predicateId := predicateExpr }

/-- The expression of a member. A value that is no string and no boolean is skipped. -/
def predicateExprOf (key : Bytes) (value : JsonValue) : Option Bytes :=
  match value with
  | .string text => some (key ++ ascii ":" ++ text)
  | .boolean value => some (key ++ ascii "=" ++ if value then ascii "true" else ascii "false")
  | _ => none

/-- All predicates are to match, and all errors are collected. -/
def combine (overall result : PredicateResult) : PredicateResult :=
  { overall with
    matched := overall.matched && result.matched
    success := overall.success && result.success
    errorMessage :=
      if result.success then overall.errorMessage
      else (if overall.errorMessage = [] then [] else overall.errorMessage ++ ascii "; ") ++ result.errorMessage }

/-- What a member adds to what the ones before it came to. -/
def evaluateMember (predicates : JsonValue) (context : PredicateContext) (overall : PredicateResult) (key : Bytes) :
    PredicateResult :=
  match predicateExprOf key (predicates.get key) with
  | none => overall
  | some expr => combine overall (evaluateSingle getenv expr context)

def evaluate (predicates : JsonValue) (context : PredicateContext) : PredicateResult :=
  if !predicates.isObject then ⟨true, true, [], []⟩
  else predicates.keys.foldl (evaluateMember getenv predicates context) ⟨true, true, [], []⟩

end Evaluation

/-! ### What a metadata expression is taken for -/

/-- The key before the first equals sign and the value behind it; without one all of it is the key. -/
def splitAtEquals (rest : Bytes) : ParsedPredicate :=
  match Delimited.cut rest kEquals with
  | some (key, value) => ⟨ascii "node.metadata", key, value⟩
  | none => ⟨ascii "node.metadata", rest, []⟩

theorem hasPrefix_append (start rest : Bytes) : hasPrefix (start ++ rest) start = true := by
  have hlength : ¬ start.length > (start ++ rest).length := by
    rw [List.length_append]
    omega
  rw [hasPrefix, if_neg hlength, List.take_left]
  exact beq_self_eq_true start

/-- Wherever the colon stands behind the name of the metadata, it separates nothing. -/
theorem parseAtColon_nodeMetadata (rest : Bytes) {colon : Nat} (hcolon : 0 < colon) :
    parseAtColon (kNodeMetadata ++ rest) colon = some (splitAtEquals rest) := by
  have henv : ¬ (kNodeMetadata ++ rest).take colon = ascii "env" := by
    obtain ⟨before, rfl⟩ := Nat.exists_eq_add_of_lt hcolon
    intro h
    have hfirst := congrArg List.head? h
    rw [Nat.zero_add] at hfirst
    exact absurd hfirst (by decide : ¬ some (110 : UInt8) = some 101)
  have hname : kEquals ∉ kNodeMetadata := by decide
  unfold parseAtColon splitAtEquals
  simp only [if_neg henv, hasPrefix_append, if_true]
  by_cases hmem : kEquals ∈ rest
  · obtain ⟨key, value, rfl, hkey⟩ := List.eq_append_cons_of_mem hmem
    have hbefore : kEquals ∉ kNodeMetadata ++ key := fun h => (List.mem_append.mp h).elim hname hkey
    have hfind : Scanning.find (kNodeMetadata ++ (key ++ kEquals :: value)) kEquals 0 =
        some (kNodeMetadata ++ key).length := by
      have hdrop : (kNodeMetadata ++ (key ++ kEquals :: value)).drop 0 = (kNodeMetadata ++ key) ++ kEquals :: value := by
        rw [List.drop_zero, List.append_assoc]
      rw [Scanning.find_of_drop_eq hbefore hdrop, Nat.zero_add]
    rw [hfind, Delimited.cut_append hkey, Option.getD_some, ← List.append_assoc, List.take_left, valueAfter,
      ← List.drop_drop, List.drop_left]
    rfl
  · have hnone : kEquals ∉ (kNodeMetadata ++ rest).drop 0 := fun h => (List.mem_append.mp h).elim hname hmem
    rw [Scanning.find_of_not_mem hnone, Delimited.cut_of_not_mem hmem, Option.getD_none, List.take_length]
    rfl

/-- An expression without a colon gets one put behind it, which then belongs to the key or to the value. -/
theorem parsePredicateExpr_nodeMetadata (rest : Bytes) :
    parsePredicateExpr (kNodeMetadata ++ rest) =
      some (splitAtEquals (if kColon ∈ rest then rest else rest ++ [kColon])) := by
  have hname : kColon ∉ kNodeMetadata := by decide
  have hlength (more : Bytes) : 0 < (kNodeMetadata ++ more).length := by
    rw [List.length_append, show kNodeMetadata.length = 14 from rfl]
    omega
  unfold parsePredicateExpr
  by_cases hmem : kColon ∈ rest
  · obtain ⟨before, after, rfl, hbefore⟩ := List.eq_append_cons_of_mem hmem
    have hapart : kColon ∉ kNodeMetadata ++ before := fun h => (List.mem_append.mp h).elim hname hbefore
    have hdrop : (kNodeMetadata ++ (before ++ kColon :: after)).drop 0 = (kNodeMetadata ++ before) ++ kColon :: after := by
      rw [List.drop_zero, List.append_assoc]
    rw [if_pos hmem, Scanning.find_of_drop_eq hapart hdrop]
    exact parseAtColon_nodeMetadata _ (by rw [Nat.zero_add]; exact hlength before)
  · have hnone : kColon ∉ (kNodeMetadata ++ rest).drop 0 := fun h => (List.mem_append.mp h).elim hname hmem
    rw [if_neg hmem, Scanning.find_of_not_mem hnone]
    simp only [hasPrefix_append, true_or, if_true]
    rw [List.append_assoc]
    exact parseAtColon_nodeMetadata _ (hlength rest)

/-- What a metadata expression comes to. -/
theorem evaluateSingle_nodeMetadata (getenv : Bytes → Option Bytes) (rest : Bytes) (context : PredicateContext) :
    (evaluateSingle getenv (kNodeMetadata ++ rest) context).matched =
      (let parsed := splitAtEquals (if kColon ∈ rest then rest else rest ++ [kColon])
       evaluateNodePredicate parsed.key parsed.value context).matched := by
  have htype (text : Bytes) : (splitAtEquals text).type = ascii "node.metadata" := by
    unfold splitAtEquals
    split <;> rfl
  rw [evaluateSingle, parsePredicateExpr_nodeMetadata]
  change (evaluateParsed getenv _ context).matched = _
  rw [evaluateParsed, htype, if_neg (by decide), if_pos rfl]

theorem matched_of_value {key value : Bytes} (hvalue : value ≠ []) (context : PredicateContext) :
    (evaluateNodePredicate key value context).matched = true ↔ context.nodeMetadata.find? key = some value := by
  rw [evaluateNodePredicate, if_neg hvalue]
  cases context.nodeMetadata.find? key with
  | none => simp
  | some actual => simp

theorem matched_of_key {key : Bytes} (context : PredicateContext) :
    (evaluateNodePredicate key [] context).matched = true ↔ key ∈ context.nodeMetadata.keys := by
  rw [evaluateNodePredicate, if_pos rfl, OrdMap.contains_iff]

/-- An equals sign behind a key without separators: the colon is compared with the value. -/
theorem matched_equals (getenv : Bytes → Option Bytes) {key value : Bytes} (hkey : kColon ∉ key) (hequals : kEquals ∉ key)
    (hvalue : kColon ∉ value) (context : PredicateContext) :
    (evaluateSingle getenv (kNodeMetadata ++ (key ++ kEquals :: value)) context).matched = true ↔
      context.nodeMetadata.find? key = some (value ++ [kColon]) := by
  have hcolon : kColon ∉ key ++ kEquals :: value := by
    simp only [List.mem_append, List.mem_cons, not_or]
    exact ⟨hkey, by decide, hvalue⟩
  rw [evaluateSingle_nodeMetadata, if_neg hcolon, splitAtEquals, List.append_assoc, List.cons_append,
    Delimited.cut_append hequals]
  exact matched_of_value (by simp) context

/-- Without an equals sign all of it is the key, the colon with it. -/
theorem matched_colon (getenv : Bytes → Option Bytes) {key value : Bytes} (hkey : kEquals ∉ key) (hvalue : kEquals ∉ value)
    (context : PredicateContext) :
    (evaluateSingle getenv (kNodeMetadata ++ (key ++ kColon :: value)) context).matched = true ↔
      key ++ kColon :: value ∈ context.nodeMetadata.keys := by
  have hequals : kEquals ∉ key ++ kColon :: value := by
    simp only [List.mem_append, List.mem_cons, not_or]
    exact ⟨hkey, by decide, hvalue⟩
  rw [evaluateSingle_nodeMetadata, if_pos (by simp), splitAtEquals, Delimited.cut_of_not_mem hequals]
  exact matched_of_key context

theorem matched_bare (getenv : Bytes → Option Bytes) {key : Bytes} (hkey : kColon ∉ key) (hequals : kEquals ∉ key)
    (context : PredicateContext) :
    (evaluateSingle getenv (kNodeMetadata ++ key) context).matched = true ↔
      key ++ [kColon] ∈ context.nodeMetadata.keys := by
  have hmem : kEquals ∉ key ++ [kColon] := by
    simp only [List.mem_append, List.mem_singleton, not_or]
    exact ⟨hequals, by decide⟩
  rw [evaluateSingle_nodeMetadata, if_neg hkey, splitAtEquals, Delimited.cut_of_not_mem hmem]
  exact matched_of_key context

/-! ### Conjunctions -/

/-- What has been matched so far, and then each of the members that are left. -/
theorem matched_foldl (getenv : Bytes → Option Bytes) (predicates : JsonValue) (context : PredicateContext)
    (keys : List Bytes) (overall : PredicateResult) :
    (keys.foldl (evaluateMember getenv predicates context) overall).matched = true ↔
      overall.matched = true ∧ ∀ key ∈ keys, ∀ expr ∈ predicateExprOf key (predicates.get key),
        (evaluateSingle getenv expr context).matched = true := by
  induction keys generalizing overall with
  | nil => simp
  | cons key rest ih =>
      rw [List.foldl_cons, ih, List.forall_mem_cons, ← and_assoc]
      refine and_congr_left fun _ => ?_
      unfold evaluateMember
      cases predicateExprOf key (predicates.get key) with
      | none => simp
      | some expr => simp [combine]

/-- A set of predicates is matched if every member that is a predicate is. -/
theorem matched_evaluate (getenv : Bytes → Option Bytes) {predicates : JsonValue} (h : predicates.isObject)
    (context : PredicateContext) :
    (evaluate getenv predicates context).matched = true ↔
      ∀ key ∈ predicates.keys, ∀ expr ∈ predicateExprOf key (predicates.get key),
        (evaluateSingle getenv expr context).matched = true := by
  rw [evaluate, if_neg (by simp [h]), matched_foldl]
  exact and_iff_right rfl

theorem matched_single (getenv : Bytes → Option Bytes) (key : Bytes) (value : JsonValue) (context : PredicateContext) :
    (evaluate getenv (.object [(key, value)]) context).matched = true ↔
      ∀ expr ∈ predicateExprOf key value, (evaluateSingle getenv expr context).matched = true := by
  have hget : (JsonValue.object [(key, value)]).get key = value := by simp [JsonValue.get, OrdMap.findEntry]
  rw [matched_evaluate getenv rfl]
  constructor
  · intro h expr hexpr
    exact h key List.mem_cons_self expr (by rwa [hget])
  · intro h other hother expr hexpr
    obtain rfl := List.mem_singleton.mp hother
    exact h expr (by rwa [hget] at hexpr)

/-- A set of predicates is the conjunction of its members. -/
theorem matched_conjunction (getenv : Bytes → Option Bytes) {predicates : JsonValue} (h : predicates.isObject)
    (context : PredicateContext) :
    (evaluate getenv predicates context).matched = true ↔
      ∀ key ∈ predicates.keys,
        (evaluate getenv (.object [(key, predicates.get key)]) context).matched = true := by
  simp only [matched_evaluate getenv h, matched_single]

/-- Each form of a metadata predicate means what it says: the value under the key, or that there is one. -/
structure MeansEquality (getenv : Bytes → Option Bytes) (context : PredicateContext) (key value : Bytes) : Prop where
  member : (evaluate getenv (.object [(kNodeMetadata ++ key, .string value)]) context).matched = true ↔
    context.nodeMetadata.find? key = some value
  expression : (evaluateSingle getenv (kNodeMetadata ++ (key ++ kEquals :: value)) context).matched = true ↔
    context.nodeMetadata.find? key = some value
  existence : (evaluateSingle getenv (kNodeMetadata ++ key) context).matched = true ↔ key ∈ context.nodeMetadata.keys
  existenceColon : (evaluateSingle getenv (kNodeMetadata ++ (key ++ [kColon])) context).matched = true ↔
    key ∈ context.nodeMetadata.keys

/-- **When metadata predicates mean equality.** The member asks for a key with a colon and the value in it, the
expression for a value with a colon behind it, and so they are right only where nothing of the kind is there and the
value is another one anyway. A set of predicates is the conjunction of its members. -/
theorem meansEquality_iff (getenv : Bytes → Option Bytes) (context : PredicateContext) {key value : Bytes}
    (hkey : kColon ∉ key) (hequals : kEquals ∉ key) (hvalue : kColon ∉ value) (hplain : kEquals ∉ value) :
    (MeansEquality getenv context key value ↔
      context.nodeMetadata.find? key ≠ some value ∧
      context.nodeMetadata.find? key ≠ some (value ++ [kColon]) ∧
      key ++ kColon :: value ∉ context.nodeMetadata.keys ∧
      (key ∈ context.nodeMetadata.keys ↔ key ++ [kColon] ∈ context.nodeMetadata.keys)) ∧
    ∀ predicates : JsonValue, predicates.isObject →
      ((evaluate getenv predicates context).matched = true ↔
        ∀ member ∈ predicates.keys,
          (evaluate getenv (.object [(member, predicates.get member)]) context).matched = true) := by
  refine ⟨?_, fun predicates h => matched_conjunction getenv h context⟩
  have hmember : (evaluate getenv (.object [(kNodeMetadata ++ key, .string value)]) context).matched = true ↔
      key ++ kColon :: value ∈ context.nodeMetadata.keys := by
    rw [matched_single, predicateExprOf]
    simp only [Option.mem_some_iff, forall_eq', List.append_assoc]
    exact matched_colon getenv hequals hplain context
  have hexpression := matched_equals getenv hkey hequals hvalue context
  have hexistence := matched_bare getenv hkey hequals context
  have hcolon := @matched_colon getenv key [] hequals List.not_mem_nil context
  have hother : value ≠ value ++ [kColon] := by simp
  constructor
  · rintro ⟨h, h', h'', -⟩
    rw [hmember] at h
    rw [hexpression] at h'
    rw [hexistence] at h''
    have hne : context.nodeMetadata.find? key ≠ some value := by
      intro hfound
      rw [h'.mpr hfound, Option.some.injEq] at hfound
      exact hother hfound.symm
    exact ⟨hne, fun hfound => hne (h'.mp hfound), fun hmem => hne (h.mp hmem), h''.symm⟩
  · rintro ⟨hne, hcolonned, hunlisted, hkeys⟩
    exact ⟨hmember.trans (iff_of_false hunlisted hne), hexpression.trans (iff_of_false hcolonned hne),
      hexistence.trans hkeys.symm, hcolon.trans hkeys.symm⟩

/-- A node in production. -/
def production : PredicateContext := ⟨OrdMap.empty.insert (ascii "env") (ascii "production"), [], [], []⟩

/-- A key that the node does not have. -/
theorem meansEquality_absent :
    MeansEquality (fun _ => none) production (ascii "tier") (ascii "backend") :=
  (@meansEquality_iff (fun _ => none) production (ascii "tier") (ascii "backend") (by decide) (by decide)
    (by decide) (by decide)).1.mpr (by decide)

/-- The node is in production, and neither form of the predicate sees it. -/
theorem not_meansEquality_production :
    ¬ MeansEquality (fun _ => none) production (ascii "env") (ascii "production") ∧
    production.nodeMetadata.find? (ascii "env") = some (ascii "production") ∧
    (evaluate (fun _ => none) (.object [(ascii "node.metadata.env", .string (ascii "production"))]) production).matched =
      false ∧
    (evaluateSingle (fun _ => none) (ascii "node.metadata.env=production") production).matched = false := by
  have hmember : (evaluate (fun _ => none)
      (.object [(ascii "node.metadata.env", .string (ascii "production"))]) production).matched = false := by decide
  refine ⟨fun hmeans => ?_, by decide, hmember, by decide⟩
  have hmatched := hmeans.member.mpr (by decide)
  exact Bool.false_ne_true (hmember.symm.trans hmatched)

end PredicateEvaluator

end GopherMcp
