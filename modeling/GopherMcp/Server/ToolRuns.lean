import GopherMcp.Server.ToolRegistry

/-!
# That what is listed is what runs

The catalog is one table where the server has four. The server keeps them in step as long as no task tool
is removed or replaced by a plain one, since nothing ever takes a task handler away.
-/

namespace GopherMcp

namespace ToolServer

variable {α β : Type} {s : ToolServer α β} {catalog : Catalog α β}

/-- Every table of the server is the catalog's. -/
structure Agrees (s : ToolServer α β) (catalog : Catalog α β) : Prop where
  tools : ∀ name, s.registry.tools.items.find? name = (catalog.find? name).map Registration.tool
  handlers : ∀ name,
    s.registry.toolHandlers.find? name = (catalog.find? name).map Registration.toolHandler
  designated : ∀ name,
    s.registry.designated.find? name = (catalog.find? name).map Registration.designated
  tasks : ∀ name, s.taskTools.find? name = (catalog.find? name).bind Registration.taskHandler

/-- No task handler is left behind: a name that is removed, or registered as a plain tool, has none. -/
def InStep (s : ToolServer α β) : ToolOp α β → Prop
  | .registerTool tool _ =>
      (∃ designated, tool.usable = .ok designated) → s.taskTools.find? tool.name = none
  | .registerTaskTool _ _ => True
  | .unregisterTool name => s.taskTools.find? name = none

def unknownTool (name : Bytes) : Error := ⟨INVALID_PARAMS, ascii "Unknown tool: " ++ name⟩

/-- The parameters of a call name a tool. -/
def Names (params : OrdMap Bytes JsonValue) (name : Bytes) : Prop :=
  params.find? (ascii "name") = some (.string name)

/-- A call is refused as unknown exactly when its tool is not on the list, and a call of a tool on the list
runs what was registered last under the name, with its designated parameters and its output schema. -/
structure ShowsWhatRuns (s : ToolServer α β) (catalog : Catalog α β) : Prop where
  unknown : ∀ signer pageSize params name, Names params name →
    (s.handleCallTool (some params) = .refused (unknownTool name) ↔ ¬ s.Shows signer pageSize name)
  runs : ∀ signer pageSize name, s.Shows signer pageSize name →
    ∃ registration, catalog.find? name = some registration ∧
      (∀ params, Names params name → s.handleCallTool (some params) = registration.outcome) ∧
      s.registry.paramsForTool name = some registration.designated ∧
      s.registry.tools.items.find? name = some registration.tool ∧
      s.registry.declaresOutputSchema name = registration.tool.outputSchema.isSome

/-! ### The list -/

theorem shows_iff (s : ToolServer α β) (signer : CursorSigner) (pageSize : Nat) (name : Bytes) :
    s.Shows signer pageSize name ↔ (s.registry.tools.items.find? name).isSome = true := by
  have hnames : (s.registry.tools.items.entries.map Prod.snd).map Tool.name =
      s.registry.tools.items.keys := by
    rw [List.map_map, OrdMap.keys]
    exact List.map_congr_left s.registry.tools.named
  rw [← OrdMap.mem_keys_iff, ← hnames]
  constructor
  · rintro ⟨rounds, w, hw, hended, hname⟩
    obtain ⟨other, hother, hall, -⟩ :=
      Paging.walk_unchanged signer (ascii "tools") pageSize s.registry.tools none rounds
    rw [Option.map_none, hw] at hother
    cases hother
    rw [hall hended, Paging.behind_none] at hname
    exact hname
  · intro hname
    obtain ⟨w, hw, hall, hends⟩ := Paging.walk_unchanged signer (ascii "tools") pageSize
      s.registry.tools none s.registry.tools.items.entries.length
    rw [Paging.behind_none] at hall hends
    have hended := hends le_rfl
    exact ⟨_, w, hw, hended, hall hended ▸ hname⟩

theorem handleCallTool_of_names {params : OrdMap Bytes JsonValue} {name : Bytes}
    (hparams : Names params name) : s.handleCallTool (some params) = s.callNamed name := by
  unfold handleCallTool
  simp only [show params.find? (ascii "name") = some (.string name) from hparams]

/-- A call does what its name is registered for. -/
theorem Agrees.callNamed (h : Agrees s catalog) {name : Bytes} {registration : Registration α β}
    (hfind : catalog.find? name = some registration) : s.callNamed name = registration.outcome := by
  have htask := h.tasks name
  have hhandler := h.handlers name
  have htool := h.tools name
  rw [hfind] at htask hhandler htool
  obtain ⟨tool, handler | handler, designated⟩ := registration
  · simp only [ToolServer.callNamed, htask, Option.bind_some, Registration.taskHandler, Sum.getRight?_inl,
      ToolRegistry.callTool, hhandler, Option.map_some, ToolRegistry.declaresOutputSchema, htool,
      Option.any_some]
    rfl
  · simp only [ToolServer.callNamed, htask, Option.bind_some, Registration.taskHandler, Sum.getRight?_inr]
    rfl

theorem Agrees.callNamed_unknown (h : Agrees s catalog) {name : Bytes}
    (hfind : catalog.find? name = none) : s.callNamed name = .refused (unknownTool name) := by
  have htask := h.tasks name
  have hhandler := h.handlers name
  rw [hfind] at htask hhandler
  simp only [ToolServer.callNamed, htask, Option.bind_none, ToolRegistry.callTool, hhandler, Option.map_none]
  rfl

theorem outcome_ne_refused (registration : Registration α β) (error : Error) :
    registration.outcome ≠ .refused error := by
  obtain ⟨tool, handler | handler, designated⟩ := registration
  · exact nofun
  · exact nofun

/-- Every table in step is enough. -/
theorem Agrees.showsWhatRuns (h : Agrees s catalog) : ShowsWhatRuns s catalog := by
  constructor
  · intro signer pageSize params name hparams
    rw [shows_iff, h.tools, handleCallTool_of_names hparams, Option.isSome_map]
    cases hfind : catalog.find? name with
    | none => simp [h.callNamed_unknown hfind]
    | some registration => simp [h.callNamed hfind, outcome_ne_refused]
  · intro signer pageSize name hshows
    rw [shows_iff, h.tools, Option.isSome_map, Option.isSome_iff_exists] at hshows
    obtain ⟨registration, hfind⟩ := hshows
    have htool := h.tools name
    have hdesignated := h.designated name
    rw [hfind] at htool hdesignated
    refine ⟨registration, hfind, fun params hparams => ?_, hdesignated, htool, ?_⟩
    · rw [handleCallTool_of_names hparams, h.callNamed hfind]
    · rw [ToolRegistry.declaresOutputSchema, htool]
      rfl

/-! ### Registering -/

theorem registerTool_refused {tool : Tool} {handler : ToolHandler α} {why : Bytes}
    (h : tool.usable = .error why) : s.registerTool tool handler = (s, false) := by
  rw [registerTool, ToolRegistry.registerTool]
  simp only [h]

theorem registerTool_accepted {tool : Tool} {handler : ToolHandler α}
    {designated : List DesignatedParam} (h : tool.usable = .ok designated) :
    s.registerTool tool handler =
      ({ s with
        registry :=
          { tools := s.registry.tools.register tool
            toolHandlers := s.registry.toolHandlers.insert tool.name handler
            designated := s.registry.designated.insert tool.name designated
            count := (s.registry.tools.register tool).items.entries.length } }, true) := by
  rw [registerTool, ToolRegistry.registerTool]
  simp only [h]

/-- An operation that registers, and does not remove. -/
def registers : ToolOp α β → Bool
  | .registerTool _ _ | .registerTaskTool _ _ => true
  | .unregisterTool _ => false

/-- A registration that is refused changes nothing. -/
theorem step_of_refused (s : ToolServer α β) {op : ToolOp α β} (hop : registers op = true)
    (hrefused : (s.perform op).2 = false) : s.step op = s := by
  cases op with
  | registerTool tool handler =>
      cases husable : tool.usable with
      | error why =>
          rw [step, perform, registerTool_refused husable]
      | ok designated =>
          rw [perform, registerTool_accepted husable] at hrefused
          cases hrefused
  | registerTaskTool tool handler =>
      cases handler with
      | none => rfl
      | some handler =>
          cases husable : tool.usable with
          | error why =>
              rw [step, perform, registerTaskTool]
              simp only [registerTool_refused husable, Bool.false_eq_true, if_false]
          | ok designated =>
              rw [perform, registerTaskTool] at hrefused
              simp only [registerTool_accepted husable, if_true] at hrefused
              cases hrefused
  | unregisterTool name => cases hop

/-- The catalog and the server take a registration alike. -/
theorem Agrees.register (h : Agrees s catalog) (registration : Registration α β)
    {taskTools : OrdMap Bytes β}
    (htasks : ∀ name, taskTools.find? name =
      ((catalog.insert registration.tool.name registration).find? name).bind Registration.taskHandler)
    (count : Nat) (hasTaskTools : Bool) :
    Agrees ⟨⟨s.registry.tools.register registration.tool,
        s.registry.toolHandlers.insert registration.tool.name registration.toolHandler,
        s.registry.designated.insert registration.tool.name registration.designated, count⟩,
        taskTools, hasTaskTools⟩
      (catalog.insert registration.tool.name registration) := by
  refine ⟨fun name => ?_, fun name => ?_, fun name => ?_, htasks⟩
  · change (s.registry.tools.items.insert registration.tool.name registration.tool).find? name = _
    rw [OrdMap.find?_insert, OrdMap.find?_insert, h.tools]
    split_ifs <;> rfl
  · rw [OrdMap.find?_insert, OrdMap.find?_insert, h.handlers]
    split_ifs <;> rfl
  · rw [OrdMap.find?_insert, OrdMap.find?_insert, h.designated]
    split_ifs <;> rfl

theorem Agrees.unregister (h : Agrees s catalog) {name : Bytes} (hgone : s.taskTools.find? name = none) :
    Agrees (s.step (.unregisterTool name)) (catalog.erase name) := by
  refine ⟨fun other => ?_, fun other => ?_, fun other => ?_, fun other => ?_⟩
  · change (s.registry.tools.items.erase name).find? other = _
    rw [OrdMap.find?_erase, OrdMap.find?_erase, h.tools]
    split_ifs <;> rfl
  · change (s.registry.toolHandlers.erase name).find? other = _
    rw [OrdMap.find?_erase, OrdMap.find?_erase, h.handlers]
    split_ifs <;> rfl
  · change (s.registry.designated.erase name).find? other = _
    rw [OrdMap.find?_erase, OrdMap.find?_erase, h.designated]
    split_ifs <;> rfl
  · change s.taskTools.find? other = _
    rw [OrdMap.find?_erase]
    split_ifs with hother
    · exact hother ▸ hgone
    · exact h.tasks other

theorem Agrees.step (h : Agrees s catalog) {op : ToolOp α β} (hin : s.InStep op) :
    Agrees (s.step op) (catalog.step op) := by
  cases op with
  | registerTool tool handler =>
      cases husable : tool.usable with
      | error why =>
          simp only [ToolServer.step, perform, registerTool_refused husable, Catalog.step, Catalog.register,
            husable]
          exact h
      | ok designated =>
          simp only [ToolServer.step, perform, registerTool_accepted husable, Catalog.step,
            Catalog.register, husable]
          refine h.register ⟨tool, .inl handler, designated⟩ (fun name => ?_) _ _
          rw [OrdMap.find?_insert]
          split_ifs with hname
          · exact hname ▸ hin ⟨designated, husable⟩
          · exact h.tasks name
  | registerTaskTool tool handler =>
      cases handler with
      | none => exact h
      | some handler =>
          cases husable : tool.usable with
          | error why =>
              simp only [ToolServer.step, perform, registerTaskTool, registerTool_refused husable,
                Bool.false_eq_true, if_false, Catalog.step, Catalog.register, Option.map_some, husable]
              exact h
          | ok designated =>
              simp only [ToolServer.step, perform, registerTaskTool, registerTool_accepted husable, if_true,
                Catalog.step, Catalog.register, Option.map_some, husable]
              refine h.register ⟨tool, .inr handler, designated⟩ (fun name => ?_) _ _
              rw [OrdMap.find?_insert, OrdMap.find?_insert, h.tasks]
              split_ifs <;> rfl
  | unregisterTool name => exact h.unregister hin

/-! ### Runs -/

theorem agrees_new : Agrees (new : ToolServer α β) OrdMap.empty :=
  ⟨fun _ => rfl, fun _ => rfl, fun _ => rfl, fun _ => rfl⟩

/-- A signer, to ask for a list with. -/
def plainSigner : CursorSigner := ⟨fun _ => ⟨List.replicate 32 0, List.length_replicate⟩⟩

/-- A task handler that is left behind is what the next call runs. -/
theorem not_showsWhatRuns_of_left {op : ToolOp α β} (hout : ¬ s.InStep op) :
    ¬ ShowsWhatRuns (s.step op) (catalog.step op) := by
  intro hshows
  have hnames (name : Bytes) : Names (OrdMap.empty.insert (ascii "name") (.string name)) name :=
    OrdMap.find?_insert_self _ _ _
  cases op with
  | registerTool tool handler =>
      rw [InStep, Classical.not_imp] at hout
      obtain ⟨⟨designated, husable⟩, hleft⟩ := hout
      obtain ⟨task, htask⟩ := Option.ne_none_iff_exists'.mp hleft
      have hstep : s.step (.registerTool tool handler) = _ :=
        congrArg Prod.fst (registerTool_accepted husable)
      have hshown : (s.step (.registerTool tool handler)).Shows plainSigner 0 tool.name := by
        rw [shows_iff, hstep]
        change ((s.registry.tools.items.insert tool.name tool).find? tool.name).isSome = true
        rw [OrdMap.find?_insert_self]
        rfl
      obtain ⟨registration, hfind, hcalls, -⟩ := hshows.runs plainSigner 0 tool.name hshown
      have hlatest : (catalog.step (.registerTool tool handler)).find? tool.name =
          some ⟨tool, .inl handler, designated⟩ := by
        simp only [Catalog.step, Catalog.register, husable]
        exact OrdMap.find?_insert_self _ _ _
      rw [hlatest] at hfind
      cases hfind
      have hcall := hcalls _ (hnames tool.name)
      rw [handleCallTool_of_names (hnames tool.name), hstep] at hcall
      simp only [callNamed, htask] at hcall
      cases hcall
  | registerTaskTool tool handler => exact hout trivial
  | unregisterTool name =>
      obtain ⟨task, htask⟩ := Option.ne_none_iff_exists'.mp hout
      have hgone : ¬ (s.step (.unregisterTool name)).Shows plainSigner 0 name := by
        rw [shows_iff]
        change ¬ ((s.registry.tools.items.erase name).find? name).isSome = true
        rw [OrdMap.find?_erase_self]
        exact Bool.false_ne_true
      have hcall := (hshows.unknown plainSigner 0 _ name (hnames name)).mpr hgone
      rw [handleCallTool_of_names (hnames name)] at hcall
      have hkept : (s.step (.unregisterTool name)).taskTools.find? name = some task := htask
      simp only [callNamed, hkept] at hcall
      cases hcall

/-- **What the list shows is what runs**, in every state of a run, exactly when no step of it leaves a task
handler behind; and a registration that is refused changes nothing. -/
theorem showsWhatRuns_iff (ops : List (ToolOp α β)) :
    ((∀ before after, ops = before ++ after →
        ShowsWhatRuns (Runs.run step new before) (Runs.run Catalog.step OrdMap.empty before)) ↔
      Runs.Guarded step InStep new ops) ∧
      ∀ (s : ToolServer α β) (op : ToolOp α β), registers op = true → (s.perform op).2 = false →
        s.step op = s := by
  refine ⟨?_, fun s op hop hrefused => s.step_of_refused hop hrefused⟩
  exact Runs.everywhere_iff step (fun _ _ _ _ hin hs => hs.step hin) (fun _ _ hs => hs.showsWhatRuns)
    (fun _ _ _ _ _ hout => not_showsWhatRuns_of_left hout) agrees_new
    (Runs.guarded_of_forall step (fun _ _ => trivial) new)

/-- A task tool is registered and removed, and a call to it still starts a task. -/
theorem not_showsWhatRuns_removed :
    ¬ ShowsWhatRuns
      (Runs.run step (new : ToolServer Nat Nat)
        [.registerTaskTool ⟨ascii "t", none, none⟩ (some 7), .unregisterTool (ascii "t")])
      (Runs.run Catalog.step OrdMap.empty
        [.registerTaskTool ⟨ascii "t", none, none⟩ (some 7), .unregisterTool (ascii "t")]) := by
  intro h
  have hcall := (h.unknown plainSigner 0 (OrdMap.empty.insert (ascii "name") (.string (ascii "t")))
    (ascii "t") rfl).mpr
  rw [shows_iff] at hcall
  have hruns := hcall (by decide)
  cases hruns

end ToolServer

end GopherMcp
