import Mathlib.Data.List.Induction
import ApexosRv.Tools

/-!
# Replaying a log

What the fold of a whole event log holds, read off the log: each entry of the
four maps is decided by the last event about its key, and a session's history by
its prompts alone (`replay_iff`). A `pluginUp` overwrites owners and a
`pluginDown` takes away whatever its plugin still owns, so a tool's owner is
followed as a view of its own: "is it this plugin?".
-/

namespace ApexosRv

namespace SystemState

/-- The kinds of events that a log is about. -/
def Folded : Event → Bool
  | .userPrompt _ _ _ => true
  | .approvalPending _ _ => true
  | .userApproval _ _ _ => true
  | .pluginUp _ _ => true
  | .pluginDown _ _ => true
  | _ => false

theorem apply_of_not_folded (s : SystemState) (event : Event) (other : Folded event = false) :
    s.apply event = s := by
  cases event <;> first | rfl | cases other

/-! ## Plugins -/

/-- An announcement or a loss of the plugin. -/
def AboutPlugin (plugin : PluginId) : Event → Prop
  | .pluginUp p _ => p = plugin
  | .pluginDown p _ => p = plugin
  | _ => False

/-- What an event makes of a plugin's entry. -/
def writesPlugin (plugin : PluginId) : Event → Option (Option (List ToolSpec))
  | .pluginUp p specs => if p = plugin then some (some specs) else none
  | .pluginDown p _ => if p = plugin then some none else none
  | _ => none

theorem plugins_apply (plugin : PluginId) (s : SystemState) (event : Event) :
    (s.apply event).plugins[plugin]? = (writesPlugin plugin event).getD s.plugins[plugin]? := by
  cases event with
  | pluginUp p specs =>
    rw [plugins_pluginUp, writesPlugin]
    by_cases same : p = plugin <;> simp [same, eq_comm (a := plugin)]
  | pluginDown p reason =>
    simp only [apply, Std.ExtTreeMap.getElem?_erase, Std.LawfulEqOrd.compare_eq_iff_eq,
      writesPlugin]
    by_cases same : p = plugin <;> simp [same]
  | _ => rfl

theorem writesPlugin_some {plugin : PluginId} {event : Event} {specs : List ToolSpec} :
    writesPlugin plugin event = some (some specs) ↔ event = .pluginUp plugin specs := by
  cases event <;> simp [writesPlugin]

theorem writesPlugin_none {plugin : PluginId} {event : Event} :
    writesPlugin plugin event = none ↔ ¬ AboutPlugin plugin event := by
  cases event <;> simp [writesPlugin, AboutPlugin]

/-- The last announcement or loss of a plugin decides its entry. -/
theorem plugins_iff (log : List Event) (plugin : PluginId) (specs : List ToolSpec) :
    (log.foldl apply default).plugins[plugin]? = some specs ↔
      ∃ before after, log = before ++ .pluginUp plugin specs :: after ∧
        ∀ event ∈ after, ¬ AboutPlugin plugin event := by
  have last := Runs.view_eq_iff (fun s => s.plugins[plugin]?) (v := some specs)
    (plugins_apply plugin) (s := default) (by simp [default]) log
  simp only [writesPlugin_some, writesPlugin_none] at last
  rw [last]
  constructor
  · rintro ⟨before, _, after, split, rfl, silent⟩
    exact ⟨before, after, split, silent⟩
  · rintro ⟨before, after, split, silent⟩
    exact ⟨before, _, after, split, rfl, silent⟩

/-! ## Owners of tools -/

/-- An announcement that lists the tool. -/
def Lists (name : String) : Event → Prop
  | .pluginUp _ specs => name ∈ specs.map ToolSpec.name
  | _ => False

/-- What an event makes of the question whether a plugin owns a tool. -/
def writesOwner (name : String) (owner : PluginId) : Event → Option Bool
  | .pluginUp p specs => if name ∈ specs.map ToolSpec.name then some (p = owner) else none
  | .pluginDown p _ => if p = owner then some false else none
  | _ => none

theorem owner_apply (name : String) (owner : PluginId) (s : SystemState) (event : Event) :
    decide ((s.apply event).tools[name]? = some owner) =
      (writesOwner name owner event).getD (decide (s.tools[name]? = some owner)) := by
  cases event with
  | pluginUp p specs =>
    rw [writesOwner]
    by_cases listed : name ∈ specs.map ToolSpec.name
    · simp only [tools_pluginUp, if_pos listed, Option.getD_some, Option.some.injEq]
    · simp only [tools_pluginUp, if_neg listed, Option.getD_none]
  | pluginDown p reason =>
    simp only [tools_pluginDown, writesOwner]
    by_cases same : p = owner <;> simp [same, eq_comm (a := owner)]
  | _ => rfl

theorem writesOwner_true {name : String} {owner : PluginId} {event : Event} :
    writesOwner name owner event = some true ↔
      ∃ specs, event = .pluginUp owner specs ∧ name ∈ specs.map ToolSpec.name := by
  cases event <;> simp [writesOwner, and_comm]

theorem writesOwner_none {name : String} {owner : PluginId} {event : Event} :
    writesOwner name owner event = none ↔
      ¬ Lists name event ∧ ∀ reason, event ≠ .pluginDown owner reason := by
  cases event <;> simp [writesOwner, Lists]

/-- The last announcement that lists a tool decides its owner, unless the owner
went down after it. -/
theorem tools_iff (log : List Event) (name : String) (owner : PluginId) :
    (log.foldl apply default).tools[name]? = some owner ↔
      ∃ before specs after, log = before ++ .pluginUp owner specs :: after ∧
        name ∈ specs.map ToolSpec.name ∧ (∀ event ∈ after, ¬ Lists name event) ∧
          ∀ reason, .pluginDown owner reason ∉ after := by
  have last := Runs.view_eq_iff (fun s => decide (s.tools[name]? = some owner))
    (v := true) (owner_apply name owner) (s := default) (by simp [default]) log
  simp only [writesOwner_true, writesOwner_none, decide_eq_true_eq] at last
  rw [last]
  constructor
  · rintro ⟨before, _, after, split, ⟨specs, rfl, listed⟩, silent⟩
    exact ⟨before, specs, after, split, listed, fun event later => (silent event later).1,
      fun reason down => (silent _ down).2 reason rfl⟩
  · rintro ⟨before, specs, after, split, listed, unlisted, up⟩
    refine ⟨before, _, after, split, ⟨specs, rfl, listed⟩, fun event later =>
      ⟨unlisted event later, ?_⟩⟩
    rintro reason rfl
    exact up reason later

/-! ## Approvals -/

/-- A request for approval of the action, or its answer. -/
def AboutApproval (action : ActionId) : Event → Prop
  | .approvalPending _ call => call.id = action
  | .userApproval _ a _ => a = action
  | _ => False

/-- What an event makes of an action's pending approval. -/
def writesApproval (action : ActionId) : Event → Option (Option SessionId)
  | .approvalPending session call => if call.id = action then some (some session) else none
  | .userApproval _ a _ => if a = action then some none else none
  | _ => none

theorem approvals_apply (action : ActionId) (s : SystemState) (event : Event) :
    (s.apply event).pendingApprovals[action]? =
      (writesApproval action event).getD s.pendingApprovals[action]? := by
  cases event with
  | approvalPending session call =>
    simp only [apply, Std.ExtTreeMap.getElem?_insert, Std.LawfulEqOrd.compare_eq_iff_eq,
      writesApproval]
    by_cases same : call.id = action <;> simp [same]
  | userApproval session a granted =>
    simp only [apply, Std.ExtTreeMap.getElem?_erase, Std.LawfulEqOrd.compare_eq_iff_eq,
      writesApproval]
    by_cases same : a = action <;> simp [same]
  | _ => rfl

theorem writesApproval_some {action : ActionId} {event : Event} {session : SessionId} :
    writesApproval action event = some (some session) ↔
      ∃ call, event = .approvalPending session call ∧ call.id = action := by
  cases event <;> simp [writesApproval, and_comm]

theorem writesApproval_none {action : ActionId} {event : Event} :
    writesApproval action event = none ↔ ¬ AboutApproval action event := by
  cases event <;> simp [writesApproval, AboutApproval]

/-- The last request or answer about an action decides whether it is pending. -/
theorem approvals_iff (log : List Event) (action : ActionId) (session : SessionId) :
    (log.foldl apply default).pendingApprovals[action]? = some session ↔
      ∃ before call after, log = before ++ .approvalPending session call :: after ∧
        call.id = action ∧ ∀ event ∈ after, ¬ AboutApproval action event := by
  have last := Runs.view_eq_iff (fun s => s.pendingApprovals[action]?)
    (v := some session) (approvals_apply action) (s := default) (by simp [default]) log
  simp only [writesApproval_some, writesApproval_none] at last
  rw [last]
  constructor
  · rintro ⟨before, _, after, split, ⟨call, rfl, same⟩, silent⟩
    exact ⟨before, call, after, split, same, silent⟩
  · rintro ⟨before, call, after, split, same, silent⟩
    exact ⟨before, _, after, split, ⟨call, rfl, same⟩, silent⟩

/-! ## Sessions -/

/-- The message an event adds to the history of a session. -/
def promptMessage (id : SessionId) : Event → Option Message
  | .userPrompt session text images =>
    if session = id then
      some (.user ((if text = "" then [] else [.text text]) ++
        images.map fun img => .image img.mediaType img.data))
    else none
  | _ => none

/-- One message for each prompt of the session, in the order of the log. -/
def promptMessages (id : SessionId) (log : List Event) : List Message :=
  log.filterMap (promptMessage id)

theorem sessions_apply (id : SessionId) (s : SystemState) (event : Event) :
    (s.apply event).sessions[id]? = match promptMessage id event with
      | none => s.sessions[id]?
      | some message =>
        let ctx := s.sessions[id]?.getD (.root id)
        some { ctx with history := ctx.history ++ [message] } := by
  cases event with
  | userPrompt session text images =>
    simp only [apply, promptMessage, Std.ExtTreeMap.getElem?_insert,
      Std.LawfulEqOrd.compare_eq_iff_eq]
    by_cases same : session = id
    · subst same
      simp [promptContent]
    · simp [same]
  | _ => rfl

theorem promptMessages_append (id : SessionId) (log : List Event) (event : Event) :
    promptMessages id (log ++ [event]) =
      promptMessages id log ++ (promptMessage id event).toList := by
  rw [promptMessages, List.filterMap_append]
  cases adds : promptMessage id event <;> simp [adds, promptMessages]

theorem sessions_foldl (log : List Event) (id : SessionId) :
    (log.foldl apply default).sessions[id]? =
      if promptMessages id log = [] then none
      else some ⟨id, none, promptMessages id log, []⟩ := by
  induction log using List.reverseRecOn with
  | nil => simp [default, promptMessages]
  | append_singleton log event ih =>
    rw [List.foldl_append, List.foldl_cons, List.foldl_nil, sessions_apply, ih,
      promptMessages_append]
    cases promptMessage id event with
    | none => simp
    | some message => by_cases first : promptMessages id log = [] <;>
        simp [first, AgentContext.root]

theorem promptMessages_ne_nil {log : List Event} {id : SessionId} :
    promptMessages id log ≠ [] ↔ ∃ text images, .userPrompt id text images ∈ log := by
  rw [ne_eq, List.eq_nil_iff_forall_not_mem, promptMessages]
  simp only [List.mem_filterMap, not_forall, not_not]
  constructor
  · rintro ⟨message, event, logged, adds⟩
    cases event with
    | userPrompt session text images =>
      obtain ⟨rfl, -⟩ : session = id ∧ _ := by simpa [promptMessage] using adds
      exact ⟨text, images, logged⟩
    | _ => simp [promptMessage] at adds
  · rintro ⟨text, images, prompted⟩
    exact ⟨_, _, prompted, by rw [promptMessage, if_pos rfl]⟩

/-- The prompts of a session are all that is known of it. -/
theorem sessions_iff (log : List Event) (id : SessionId) (ctx : AgentContext) :
    (log.foldl apply default).sessions[id]? = some ctx ↔
      (∃ text images, .userPrompt id text images ∈ log) ∧
        ctx = ⟨id, none, promptMessages id log, []⟩ := by
  rw [sessions_foldl, ← promptMessages_ne_nil]
  by_cases none : promptMessages id log = [] <;> simp [none, eq_comm]

/-- **A replayed log is decided key by key by the last event about the key.** -/
theorem replay_iff (log : List Event) :
    let s := log.foldl apply default
    (∀ plugin specs, s.plugins[plugin]? = some specs ↔
      ∃ before after, log = before ++ .pluginUp plugin specs :: after ∧
        ∀ event ∈ after, ¬ AboutPlugin plugin event) ∧
    (∀ name owner, s.tools[name]? = some owner ↔
      ∃ before specs after, log = before ++ .pluginUp owner specs :: after ∧
        name ∈ specs.map ToolSpec.name ∧ (∀ event ∈ after, ¬ Lists name event) ∧
          ∀ reason, .pluginDown owner reason ∉ after) ∧
    (∀ action session, s.pendingApprovals[action]? = some session ↔
      ∃ before call after, log = before ++ .approvalPending session call :: after ∧
        call.id = action ∧ ∀ event ∈ after, ¬ AboutApproval action event) ∧
    (∀ id ctx, s.sessions[id]? = some ctx ↔
      (∃ text images, .userPrompt id text images ∈ log) ∧
        ctx = ⟨id, none, promptMessages id log, []⟩) ∧
    (log.filter Folded).foldl apply default = s := by
  intro s
  refine ⟨plugins_iff log, tools_iff log, approvals_iff log, sessions_iff log, ?_⟩
  exact Runs.foldl_filter apply_of_not_folded default log

end SystemState

end ApexosRv
