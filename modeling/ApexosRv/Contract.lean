import ApexosRv.Derive
import ApexosRv.Protocol

/-!
# The wire contract in full

`vendor/apexos-protocol/src/lib.rs` with every field of every type that crosses
the wire, and what it declares to its derives: `Event.variants` lists the variants
of `Event` with their names and the names, types and defaults of their fields.
-/

namespace ApexosRv

namespace Contract

open Serde Crates

variable [Floats] [Crates]

/-! ## Names and numbers -/

structure EvolutionId where
  val : UInt64
  deriving DecidableEq, Repr

def sessionId : Codec SessionId := newtype u64 SessionId.val .mk

def actionId : Codec ActionId := newtype u64 ActionId.val .mk

def goalId : Codec GoalId := newtype u64 GoalId.val .mk

def evolutionId : Codec EvolutionId := newtype u64 EvolutionId.val .mk

def pluginId : Codec PluginId := newtype string PluginId.val .mk

def goalState : Codec GoalState :=
  unitEnum [.planning, .acting, .blocked, .reflecting, .done, .failed, .cancelled] fun
    | .planning => "planning"
    | .acting => "acting"
    | .blocked => "blocked"
    | .reflecting => "reflecting"
    | .done => "done"
    | .failed => "failed"
    | .cancelled => "cancelled"

inductive PolicyRule where
  | allow
  | ask
  | workspace
  deriving DecidableEq, Repr

def policyRule : Codec PolicyRule :=
  unitEnum [.allow, .ask, .workspace] fun
    | .allow => "allow"
    | .ask => "ask"
    | .workspace => "workspace"

inductive Subsystem where
  | plugins
  | policy
  | agent
  | gateway
  deriving DecidableEq, Repr

def subsystem : Codec Subsystem :=
  unitEnum [.plugins, .policy, .agent, .gateway] fun
    | .plugins => "plugins"
    | .policy => "policy"
    | .agent => "agent"
    | .gateway => "gateway"

section
variable [Documented]

@[simp] theorem sessionId_kept (id : SessionId) : sessionId.Kept id :=
  (Codec.newtype_kept (fun _ => rfl) (fun _ => rfl) id).mpr (Codec.u64_kept _)

@[simp] theorem actionId_kept (id : ActionId) : actionId.Kept id :=
  (Codec.newtype_kept (fun _ => rfl) (fun _ => rfl) id).mpr (Codec.u64_kept _)

@[simp] theorem goalId_kept (id : GoalId) : goalId.Kept id :=
  (Codec.newtype_kept (fun _ => rfl) (fun _ => rfl) id).mpr (Codec.u64_kept _)

@[simp] theorem evolutionId_kept (id : EvolutionId) : evolutionId.Kept id :=
  (Codec.newtype_kept (fun _ => rfl) (fun _ => rfl) id).mpr (Codec.u64_kept _)

@[simp] theorem pluginId_kept (id : PluginId) : pluginId.Kept id :=
  (Codec.newtype_kept (fun _ => rfl) (fun _ => rfl) id).mpr (Codec.string_kept _)

/-- An id that is absent, or there. -/
@[simp] theorem optionalSession_kept (id : Option SessionId) : (option sessionId).Kept id := by
  apply (Codec.option_kept _ id).mpr fun id _ => sessionId_kept id
  intro id null
  rw [sessionId, Documented.newtype_encode, Documented.u64.encode] at null
  cases null

@[simp] theorem optionalString_kept (s : Option String) : (option string).Kept s := by
  apply (Codec.option_kept _ s).mpr fun s _ => Codec.string_kept s
  intro s null
  rw [Documented.string.encode] at null
  cases null

@[simp] theorem goalState_kept (state : GoalState) : goalState.Kept state :=
  Codec.unitEnum_kept (fun state => by cases state <;> rfl) state

@[simp] theorem policyRule_kept (rule : PolicyRule) : policyRule.Kept rule :=
  Codec.unitEnum_kept (fun rule => by cases rule <;> rfl) rule

@[simp] theorem subsystem_kept (s : Subsystem) : subsystem.Kept s :=
  Codec.unitEnum_kept (fun s => by cases s <;> rfl) s

@[simp] theorem strings_kept (env : Dict String) : (map string).Kept env :=
  Codec.map_kept fun _ _ => Codec.string_kept _

end

/-! ## Structs -/

def imageFields : Fields (String × String × Unit) :=
  .field "media_type" string <| .field "data" string .nil

def imageSource : Codec ImageSource :=
  struct imageFields (fun i => (i.mediaType, i.data, ())) fun (mediaType, data, _) =>
    ⟨mediaType, data⟩

structure ToolCall where
  id : ActionId
  tool : String
  args : Crates.Value
  needsApproval : Bool

def toolCallFields : Fields (ActionId × String × Crates.Value × Bool × Unit) :=
  .field "id" actionId <| .field "tool" string <| .field "args" value <|
    .field "needs_approval" bool .nil

def toolCall : Codec ToolCall :=
  struct toolCallFields (fun c => (c.id, c.tool, c.args, c.needsApproval, ()))
    fun (id, tool, args, needsApproval, _) => ⟨id, tool, args, needsApproval⟩

structure ToolOutput where
  ok : Bool
  content : Crates.Value

def toolOutputFields : Fields (Bool × Crates.Value × Unit) :=
  .field "ok" bool <| .field "content" value .nil

def toolOutput : Codec ToolOutput :=
  struct toolOutputFields (fun o => (o.ok, o.content, ())) fun (ok, content, _) => ⟨ok, content⟩

structure ToolSpec where
  name : String
  description : String
  inputSchema : Crates.Value

def toolSpecFields : Fields (String × String × Crates.Value × Unit) :=
  .field "name" string <| .field "description" string <| .field "input_schema" value .nil

def toolSpec : Codec ToolSpec :=
  struct toolSpecFields (fun t => (t.name, t.description, t.inputSchema, ()))
    fun (name, description, inputSchema, _) => ⟨name, description, inputSchema⟩

structure CouncilAgentDef where
  id : String
  persona : String
  backend : Option String
  model : Option String
  color : Option String
  deriving DecidableEq, Repr

def councilAgentFields :
    Fields (String × String × Option String × Option String × Option String × Unit) :=
  .field "id" string <| .field "persona" string <| .field "backend" (option string) <|
    .field "model" (option string) <| .field "color" (option string) .nil

def councilAgentDef : Codec CouncilAgentDef :=
  struct councilAgentFields (fun a => (a.id, a.persona, a.backend, a.model, a.color, ()))
    fun (id, persona, backend, model, color, _) => ⟨id, persona, backend, model, color⟩

section
variable [Documented]

@[simp] theorem imageSource_kept (image : ImageSource) : imageSource.Kept image := by
  apply (Codec.struct_kept _ (fun _ => rfl) (fun _ => rfl) image).mpr
  · simp [imageFields, Fields.Kept]
  · simp [imageFields, Fields.names]

@[simp] theorem toolCall_kept (call : ToolCall) :
    toolCall.Kept call ↔ value.Kept call.args := by
  rw [toolCall, Codec.struct_kept _ (fun _ => rfl) (fun _ => rfl)]
  · simp [toolCallFields, Fields.Kept]
  · simp [toolCallFields, Fields.names]

@[simp] theorem toolOutput_kept (output : ToolOutput) :
    toolOutput.Kept output ↔ value.Kept output.content := by
  rw [toolOutput, Codec.struct_kept _ (fun _ => rfl) (fun _ => rfl)]
  · simp [toolOutputFields, Fields.Kept]
  · simp [toolOutputFields, Fields.names]

@[simp] theorem toolSpec_kept (spec : ToolSpec) :
    toolSpec.Kept spec ↔ value.Kept spec.inputSchema := by
  rw [toolSpec, Codec.struct_kept _ (fun _ => rfl) (fun _ => rfl)]
  · simp [toolSpecFields, Fields.Kept]
  · simp [toolSpecFields, Fields.names]

@[simp] theorem councilAgentDef_kept (agent : CouncilAgentDef) : councilAgentDef.Kept agent := by
  apply (Codec.struct_kept _ (fun _ => rfl) (fun _ => rfl) agent).mpr
  · simp [councilAgentFields, Fields.Kept]
  · simp [councilAgentFields, Fields.names]

end

/-! ## Enums inside an event -/

inductive EvolutionProposal where
  | registerMcpServer (name command : String) (env : Dict String) (reason : String)
  | unregisterMcpServer (name reason : String)
  | updatePolicyRule (toolPattern : String) (newRule : PolicyRule) (reason : String)
  | updateSystemPrompt (content reason : String)
  | hotReloadSubsystem (subsystem : Subsystem)
  | requestHardware (part capability reason bus source : String)

inductive SensorReading where
  | temperature (celsius : Floats.Single) (sensorId : String)
  | humidity (percent : Floats.Single) (sensorId : String)
  | pressure (hpa : Floats.Single) (sensorId : String)
  | motion (detected : Bool) (sensorId : String)
  | distance (cm : Floats.Single) (sensorId : String)
  | gpioLevel (pin : UInt8) (high : Bool)
  | airQuality (iaq co2EqPpm vocPpm : Floats.Single) (accuracy : UInt8)
      (temperatureC humidityPct pressureHpa : Floats.Single) (sensorId : String)
  | thermalFrame (minC maxC meanC : Floats.Single) (sensorId : String)

namespace EvolutionProposal

inductive Tag where
  | registerMcpServer
  | unregisterMcpServer
  | updatePolicyRule
  | updateSystemPrompt
  | hotReloadSubsystem
  | requestHardware

def name : Tag → String
  | .registerMcpServer => "register_mcp_server"
  | .unregisterMcpServer => "unregister_mcp_server"
  | .updatePolicyRule => "update_policy_rule"
  | .updateSystemPrompt => "update_system_prompt"
  | .hotReloadSubsystem => "hot_reload_subsystem"
  | .requestHardware => "request_hardware"

@[reducible] def shape : Tag → (α : Type) × Fields α
  | .registerMcpServer => ⟨_, .field "name" string <| .field "command" string <|
      .field "env" (map string) <| .field "reason" string .nil⟩
  | .unregisterMcpServer => ⟨_, .field "name" string <| .field "reason" string .nil⟩
  | .updatePolicyRule => ⟨_, .field "tool_pattern" string <| .field "new_rule" policyRule <|
      .field "reason" string .nil⟩
  | .updateSystemPrompt => ⟨_, .field "content" string <| .field "reason" string .nil⟩
  | .hotReloadSubsystem => ⟨_, .field "subsystem" Contract.subsystem .nil⟩
  | .requestHardware => ⟨_, .field "part" string <| .field "capability" string <|
      .field "reason" string <| .fieldOr "bus" string "" <| .fieldOr "source" string "" .nil⟩

def variants : Variants EvolutionProposal where
  key := "kind"
  Tag := Tag
  tags := [.registerMcpServer, .unregisterMcpServer, .updatePolicyRule, .updateSystemPrompt,
    .hotReloadSubsystem, .requestHardware]
  name := name
  Payload t := (shape t).1
  fields t := (shape t).2
  out
    | registerMcpServer name command env reason =>
      ⟨.registerMcpServer, name, command, env, reason, ()⟩
    | unregisterMcpServer name reason => ⟨.unregisterMcpServer, name, reason, ()⟩
    | updatePolicyRule toolPattern newRule reason =>
      ⟨.updatePolicyRule, toolPattern, newRule, reason, ()⟩
    | updateSystemPrompt content reason => ⟨.updateSystemPrompt, content, reason, ()⟩
    | hotReloadSubsystem subsystem => ⟨.hotReloadSubsystem, subsystem, ()⟩
    | requestHardware part capability reason bus source =>
      ⟨.requestHardware, part, capability, reason, bus, source, ()⟩
  into
    | ⟨.registerMcpServer, name, command, env, reason, _⟩ =>
      registerMcpServer name command env reason
    | ⟨.unregisterMcpServer, name, reason, _⟩ => unregisterMcpServer name reason
    | ⟨.updatePolicyRule, toolPattern, newRule, reason, _⟩ =>
      updatePolicyRule toolPattern newRule reason
    | ⟨.updateSystemPrompt, content, reason, _⟩ => updateSystemPrompt content reason
    | ⟨.hotReloadSubsystem, subsystem, _⟩ => hotReloadSubsystem subsystem
    | ⟨.requestHardware, part, capability, reason, bus, source, _⟩ =>
      requestHardware part capability reason bus source
  into_out proposal := by cases proposal <;> rfl
  out_into := by
    rintro ⟨t, _⟩
    cases t <;> rfl
  named t := by cases t <;> rfl
  distinct t := by cases t <;> simp [Fields.names]

end EvolutionProposal

namespace SensorReading

inductive Tag where
  | temperature
  | humidity
  | pressure
  | motion
  | distance
  | gpioLevel
  | airQuality
  | thermalFrame

def name : Tag → String
  | .temperature => "temperature"
  | .humidity => "humidity"
  | .pressure => "pressure"
  | .motion => "motion"
  | .distance => "distance"
  | .gpioLevel => "gpio_level"
  | .airQuality => "air_quality"
  | .thermalFrame => "thermal_frame"

@[reducible] def shape : Tag → (α : Type) × Fields α
  | .temperature => ⟨_, .field "celsius" f32 <| .field "sensor_id" string .nil⟩
  | .humidity => ⟨_, .field "percent" f32 <| .field "sensor_id" string .nil⟩
  | .pressure => ⟨_, .field "hpa" f32 <| .field "sensor_id" string .nil⟩
  | .motion => ⟨_, .field "detected" bool <| .field "sensor_id" string .nil⟩
  | .distance => ⟨_, .field "cm" f32 <| .field "sensor_id" string .nil⟩
  | .gpioLevel => ⟨_, .field "pin" u8 <| .field "high" bool .nil⟩
  | .airQuality => ⟨_, .field "iaq" f32 <| .field "co2_eq_ppm" f32 <| .field "voc_ppm" f32 <|
      .field "accuracy" u8 <| .field "temperature_c" f32 <| .field "humidity_pct" f32 <|
      .field "pressure_hpa" f32 <| .field "sensor_id" string .nil⟩
  | .thermalFrame => ⟨_, .field "min_c" f32 <| .field "max_c" f32 <| .field "mean_c" f32 <|
      .field "sensor_id" string .nil⟩

def variants : Variants SensorReading where
  key := "kind"
  Tag := Tag
  tags := [.temperature, .humidity, .pressure, .motion, .distance, .gpioLevel, .airQuality,
    .thermalFrame]
  name := name
  Payload t := (shape t).1
  fields t := (shape t).2
  out
    | temperature celsius sensorId => ⟨.temperature, celsius, sensorId, ()⟩
    | humidity percent sensorId => ⟨.humidity, percent, sensorId, ()⟩
    | pressure hpa sensorId => ⟨.pressure, hpa, sensorId, ()⟩
    | motion detected sensorId => ⟨.motion, detected, sensorId, ()⟩
    | distance cm sensorId => ⟨.distance, cm, sensorId, ()⟩
    | gpioLevel pin high => ⟨.gpioLevel, pin, high, ()⟩
    | airQuality iaq co2EqPpm vocPpm accuracy temperatureC humidityPct pressureHpa sensorId =>
      ⟨.airQuality, iaq, co2EqPpm, vocPpm, accuracy, temperatureC, humidityPct, pressureHpa,
        sensorId, ()⟩
    | thermalFrame minC maxC meanC sensorId => ⟨.thermalFrame, minC, maxC, meanC, sensorId, ()⟩
  into
    | ⟨.temperature, celsius, sensorId, _⟩ => temperature celsius sensorId
    | ⟨.humidity, percent, sensorId, _⟩ => humidity percent sensorId
    | ⟨.pressure, hpa, sensorId, _⟩ => pressure hpa sensorId
    | ⟨.motion, detected, sensorId, _⟩ => motion detected sensorId
    | ⟨.distance, cm, sensorId, _⟩ => distance cm sensorId
    | ⟨.gpioLevel, pin, high, _⟩ => gpioLevel pin high
    | ⟨.airQuality, iaq, co2EqPpm, vocPpm, accuracy, temperatureC, humidityPct, pressureHpa,
        sensorId, _⟩ =>
      airQuality iaq co2EqPpm vocPpm accuracy temperatureC humidityPct pressureHpa sensorId
    | ⟨.thermalFrame, minC, maxC, meanC, sensorId, _⟩ => thermalFrame minC maxC meanC sensorId
  into_out reading := by cases reading <;> rfl
  out_into := by
    rintro ⟨t, _⟩
    cases t <;> rfl
  named t := by cases t <;> rfl
  distinct t := by cases t <;> simp [Fields.names]

end SensorReading

/-! ## The event -/

inductive Event where
  | userPrompt (session : SessionId) (text : String) (images : List ImageSource)
  | userApproval (session : SessionId) (action : ActionId) (granted : Bool)
  | userCancel (session : SessionId)
  | agentText (session : SessionId) (delta : String)
  | agentThinking (session : SessionId) (delta : String)
  | toolRequested (session : SessionId) (call : ToolCall)
  | turnComplete (session : SessionId)
  | toolResult (session : SessionId) (call : ActionId) (output : ToolOutput)
  | pluginUp (plugin : PluginId) (tools : List ToolSpec)
  | pluginDown (plugin : PluginId) (reason : String)
  | approvalPending (session : SessionId) (call : ToolCall)
  | spawnAgent (parent : SessionId) (callId : ActionId) (prompt : String) (system : Option String)
  | subAgentStarted (parent child : SessionId) (prompt : String)
  | sensorReading (nodeId : String) (reading : SensorReading) (timestamp : UInt64)
  | wakeTriggered
  | agentMessage (source target : SessionId) (body : String) (msgId : UInt64)
  | agentMessageAck (msgId : UInt64) (source : SessionId)
  | councilStarted (councilId topic : String) (agents : List CouncilAgentDef)
  | councilRoundStart (councilId : String) (round : UInt32)
  | councilAgentDelta (councilId : String) (round : UInt32) (agentId delta : String)
  | councilAgentDone (councilId : String) (round : UInt32) (agentId fullText : String)
  | councilRoundDone (councilId : String) (round : UInt32) (convergence : Floats.Single)
      (agreements : List String)
  | councilComplete (councilId : String) (rounds : UInt32) (reason synthesis : String)
  | councilButtIn (councilId message : String)
  | error (session : Option SessionId) (message : String)
  | vastInstanceLaunched (instanceId recipe : String) (costPerHr : Floats.Double)
  | vastInstanceReady (instanceId : String) (localPort : UInt16) (model : String)
  | vastInstanceDestroyed (instanceId : String)
  | vastTunnelLost (instanceId : String)
  | meshMessage (fromNode : String) (session : SessionId) (preview : String)
  | meshMemoryShared (fromNode memoryId preview : String)
  | peerSeen (nodeId ip : String)
  | peerRegistered (nodeId wsUrl role : String)
  | peerLost (nodeId : String)
  | meshNodeStatus (nodeId status : String) (lastSeenSecs : UInt64)
  | evolutionProposed (id : EvolutionId) (proposal : EvolutionProposal) (proposedBy : SessionId)
  | evolutionApplied (id : EvolutionId) (proposal : EvolutionProposal) (patchSummary : String)
      (appliedBy : Option SessionId)
  | evolutionRolledBack (evolutionId : EvolutionId) (reason : String)
      (rolledBackBy : Option SessionId)
  | goalStateChanged (goal : GoalId) (objective : String) (state : GoalState)
      (step maxSteps : UInt32) (detail : String) (yolo : Bool)

namespace Event

inductive Tag where
  | userPrompt
  | userApproval
  | userCancel
  | agentText
  | agentThinking
  | toolRequested
  | turnComplete
  | toolResult
  | pluginUp
  | pluginDown
  | approvalPending
  | spawnAgent
  | subAgentStarted
  | sensorReading
  | wakeTriggered
  | agentMessage
  | agentMessageAck
  | councilStarted
  | councilRoundStart
  | councilAgentDelta
  | councilAgentDone
  | councilRoundDone
  | councilComplete
  | councilButtIn
  | error
  | vastInstanceLaunched
  | vastInstanceReady
  | vastInstanceDestroyed
  | vastTunnelLost
  | meshMessage
  | meshMemoryShared
  | peerSeen
  | peerRegistered
  | peerLost
  | meshNodeStatus
  | evolutionProposed
  | evolutionApplied
  | evolutionRolledBack
  | goalStateChanged

def name : Tag → String
  | .userPrompt => "user_prompt"
  | .userApproval => "user_approval"
  | .userCancel => "user_cancel"
  | .agentText => "agent_text"
  | .agentThinking => "agent_thinking"
  | .toolRequested => "tool_requested"
  | .turnComplete => "turn_complete"
  | .toolResult => "tool_result"
  | .pluginUp => "plugin_up"
  | .pluginDown => "plugin_down"
  | .approvalPending => "approval_pending"
  | .spawnAgent => "spawn_agent"
  | .subAgentStarted => "sub_agent_started"
  | .sensorReading => "sensor_reading"
  | .wakeTriggered => "wake_triggered"
  | .agentMessage => "agent_message"
  | .agentMessageAck => "agent_message_ack"
  | .councilStarted => "council_started"
  | .councilRoundStart => "council_round_start"
  | .councilAgentDelta => "council_agent_delta"
  | .councilAgentDone => "council_agent_done"
  | .councilRoundDone => "council_round_done"
  | .councilComplete => "council_complete"
  | .councilButtIn => "council_butt_in"
  | .error => "error"
  | .vastInstanceLaunched => "vast_instance_launched"
  | .vastInstanceReady => "vast_instance_ready"
  | .vastInstanceDestroyed => "vast_instance_destroyed"
  | .vastTunnelLost => "vast_tunnel_lost"
  | .meshMessage => "mesh_message"
  | .meshMemoryShared => "mesh_memory_shared"
  | .peerSeen => "peer_seen"
  | .peerRegistered => "peer_registered"
  | .peerLost => "peer_lost"
  | .meshNodeStatus => "mesh_node_status"
  | .evolutionProposed => "evolution_proposed"
  | .evolutionApplied => "evolution_applied"
  | .evolutionRolledBack => "evolution_rolled_back"
  | .goalStateChanged => "goal_state_changed"

@[reducible] def shape : Tag → (α : Type) × Fields α
  | .userPrompt => ⟨_, .field "session" sessionId <| .field "text" string <|
      .fieldOr "images" (list imageSource) [] .nil⟩
  | .userApproval => ⟨_, .field "session" sessionId <| .field "action" actionId <|
      .field "granted" bool .nil⟩
  | .userCancel => ⟨_, .field "session" sessionId .nil⟩
  | .agentText => ⟨_, .field "session" sessionId <| .field "delta" string .nil⟩
  | .agentThinking => ⟨_, .field "session" sessionId <| .field "delta" string .nil⟩
  | .toolRequested => ⟨_, .field "session" sessionId <| .field "call" toolCall .nil⟩
  | .turnComplete => ⟨_, .field "session" sessionId .nil⟩
  | .toolResult => ⟨_, .field "session" sessionId <| .field "call" actionId <|
      .field "output" toolOutput .nil⟩
  | .pluginUp => ⟨_, .field "plugin" pluginId <| .field "tools" (list toolSpec) .nil⟩
  | .pluginDown => ⟨_, .field "plugin" pluginId <| .field "reason" string .nil⟩
  | .approvalPending => ⟨_, .field "session" sessionId <| .field "call" toolCall .nil⟩
  | .spawnAgent => ⟨_, .field "parent" sessionId <| .field "call_id" actionId <|
      .field "prompt" string <| .field "system" (option string) .nil⟩
  | .subAgentStarted => ⟨_, .field "parent" sessionId <| .field "child" sessionId <|
      .field "prompt" string .nil⟩
  | .sensorReading => ⟨_, .field "node_id" string <|
      .field "reading" (tagged SensorReading.variants) <| .field "timestamp" u64 .nil⟩
  | .wakeTriggered => ⟨_, .nil⟩
  | .agentMessage => ⟨_, .field "from" sessionId <| .field "to" sessionId <|
      .field "body" string <| .field "msg_id" u64 .nil⟩
  | .agentMessageAck => ⟨_, .field "msg_id" u64 <| .field "from" sessionId .nil⟩
  | .councilStarted => ⟨_, .field "council_id" string <| .field "topic" string <|
      .field "agents" (list councilAgentDef) .nil⟩
  | .councilRoundStart => ⟨_, .field "council_id" string <| .field "round" u32 .nil⟩
  | .councilAgentDelta => ⟨_, .field "council_id" string <| .field "round" u32 <|
      .field "agent_id" string <| .field "delta" string .nil⟩
  | .councilAgentDone => ⟨_, .field "council_id" string <| .field "round" u32 <|
      .field "agent_id" string <| .field "full_text" string .nil⟩
  | .councilRoundDone => ⟨_, .field "council_id" string <| .field "round" u32 <|
      .field "convergence" f32 <| .field "agreements" (list string) .nil⟩
  | .councilComplete => ⟨_, .field "council_id" string <| .field "rounds" u32 <|
      .field "reason" string <| .field "synthesis" string .nil⟩
  | .councilButtIn => ⟨_, .field "council_id" string <| .field "message" string .nil⟩
  | .error => ⟨_, .field "session" (option sessionId) <| .field "message" string .nil⟩
  | .vastInstanceLaunched => ⟨_, .field "instance_id" string <| .field "recipe" string <|
      .field "cost_per_hr" f64 .nil⟩
  | .vastInstanceReady => ⟨_, .field "instance_id" string <| .field "local_port" u16 <|
      .field "model" string .nil⟩
  | .vastInstanceDestroyed => ⟨_, .field "instance_id" string .nil⟩
  | .vastTunnelLost => ⟨_, .field "instance_id" string .nil⟩
  | .meshMessage => ⟨_, .field "from_node" string <| .field "session" sessionId <|
      .field "preview" string .nil⟩
  | .meshMemoryShared => ⟨_, .field "from_node" string <| .field "memory_id" string <|
      .field "preview" string .nil⟩
  | .peerSeen => ⟨_, .field "node_id" string <| .field "ip" string .nil⟩
  | .peerRegistered => ⟨_, .field "node_id" string <| .field "ws_url" string <|
      .field "role" string .nil⟩
  | .peerLost => ⟨_, .field "node_id" string .nil⟩
  | .meshNodeStatus => ⟨_, .field "node_id" string <| .field "status" string <|
      .field "last_seen_secs" u64 .nil⟩
  | .evolutionProposed => ⟨_, .field "id" evolutionId <|
      .field "proposal" (tagged EvolutionProposal.variants) <| .field "proposed_by" sessionId .nil⟩
  | .evolutionApplied => ⟨_, .field "id" evolutionId <|
      .field "proposal" (tagged EvolutionProposal.variants) <| .field "patch_summary" string <|
      .field "applied_by" (option sessionId) .nil⟩
  | .evolutionRolledBack => ⟨_, .field "evolution_id" evolutionId <| .field "reason" string <|
      .field "rolled_back_by" (option sessionId) .nil⟩
  | .goalStateChanged => ⟨_, .field "goal" goalId <| .field "objective" string <|
      .field "state" Contract.goalState <| .field "step" u32 <| .field "max_steps" u32 <|
      .field "detail" string <| .fieldOr "yolo" bool false .nil⟩

def variants : Variants Event where
  key := "type"
  Tag := Tag
  tags := [.userPrompt, .userApproval, .userCancel, .agentText, .agentThinking, .toolRequested,
    .turnComplete, .toolResult, .pluginUp, .pluginDown, .approvalPending, .spawnAgent,
    .subAgentStarted, .sensorReading, .wakeTriggered, .agentMessage, .agentMessageAck,
    .councilStarted, .councilRoundStart, .councilAgentDelta, .councilAgentDone, .councilRoundDone,
    .councilComplete, .councilButtIn, .error, .vastInstanceLaunched, .vastInstanceReady,
    .vastInstanceDestroyed, .vastTunnelLost, .meshMessage, .meshMemoryShared, .peerSeen,
    .peerRegistered, .peerLost, .meshNodeStatus, .evolutionProposed, .evolutionApplied,
    .evolutionRolledBack, .goalStateChanged]
  name := name
  Payload t := (shape t).1
  fields t := (shape t).2
  out
    | userPrompt session text images => ⟨.userPrompt, session, text, images, ()⟩
    | userApproval session action granted => ⟨.userApproval, session, action, granted, ()⟩
    | userCancel session => ⟨.userCancel, session, ()⟩
    | agentText session delta => ⟨.agentText, session, delta, ()⟩
    | agentThinking session delta => ⟨.agentThinking, session, delta, ()⟩
    | toolRequested session call => ⟨.toolRequested, session, call, ()⟩
    | turnComplete session => ⟨.turnComplete, session, ()⟩
    | toolResult session call output => ⟨.toolResult, session, call, output, ()⟩
    | pluginUp plugin tools => ⟨.pluginUp, plugin, tools, ()⟩
    | pluginDown plugin reason => ⟨.pluginDown, plugin, reason, ()⟩
    | approvalPending session call => ⟨.approvalPending, session, call, ()⟩
    | spawnAgent parent callId prompt system => ⟨.spawnAgent, parent, callId, prompt, system, ()⟩
    | subAgentStarted parent child prompt => ⟨.subAgentStarted, parent, child, prompt, ()⟩
    | sensorReading nodeId reading timestamp => ⟨.sensorReading, nodeId, reading, timestamp, ()⟩
    | wakeTriggered => ⟨.wakeTriggered, ()⟩
    | agentMessage source target body msgId => ⟨.agentMessage, source, target, body, msgId, ()⟩
    | agentMessageAck msgId source => ⟨.agentMessageAck, msgId, source, ()⟩
    | councilStarted councilId topic agents => ⟨.councilStarted, councilId, topic, agents, ()⟩
    | councilRoundStart councilId round => ⟨.councilRoundStart, councilId, round, ()⟩
    | councilAgentDelta councilId round agentId delta =>
      ⟨.councilAgentDelta, councilId, round, agentId, delta, ()⟩
    | councilAgentDone councilId round agentId fullText =>
      ⟨.councilAgentDone, councilId, round, agentId, fullText, ()⟩
    | councilRoundDone councilId round convergence agreements =>
      ⟨.councilRoundDone, councilId, round, convergence, agreements, ()⟩
    | councilComplete councilId rounds reason synthesis =>
      ⟨.councilComplete, councilId, rounds, reason, synthesis, ()⟩
    | councilButtIn councilId message => ⟨.councilButtIn, councilId, message, ()⟩
    | error session message => ⟨.error, session, message, ()⟩
    | vastInstanceLaunched instanceId recipe costPerHr =>
      ⟨.vastInstanceLaunched, instanceId, recipe, costPerHr, ()⟩
    | vastInstanceReady instanceId localPort model =>
      ⟨.vastInstanceReady, instanceId, localPort, model, ()⟩
    | vastInstanceDestroyed instanceId => ⟨.vastInstanceDestroyed, instanceId, ()⟩
    | vastTunnelLost instanceId => ⟨.vastTunnelLost, instanceId, ()⟩
    | meshMessage fromNode session preview => ⟨.meshMessage, fromNode, session, preview, ()⟩
    | meshMemoryShared fromNode memoryId preview =>
      ⟨.meshMemoryShared, fromNode, memoryId, preview, ()⟩
    | peerSeen nodeId ip => ⟨.peerSeen, nodeId, ip, ()⟩
    | peerRegistered nodeId wsUrl role => ⟨.peerRegistered, nodeId, wsUrl, role, ()⟩
    | peerLost nodeId => ⟨.peerLost, nodeId, ()⟩
    | meshNodeStatus nodeId status lastSeenSecs =>
      ⟨.meshNodeStatus, nodeId, status, lastSeenSecs, ()⟩
    | evolutionProposed id proposal proposedBy => ⟨.evolutionProposed, id, proposal, proposedBy, ()⟩
    | evolutionApplied id proposal patchSummary appliedBy =>
      ⟨.evolutionApplied, id, proposal, patchSummary, appliedBy, ()⟩
    | evolutionRolledBack evolutionId reason rolledBackBy =>
      ⟨.evolutionRolledBack, evolutionId, reason, rolledBackBy, ()⟩
    | goalStateChanged goal objective state step maxSteps detail yolo =>
      ⟨.goalStateChanged, goal, objective, state, step, maxSteps, detail, yolo, ()⟩
  into
    | ⟨.userPrompt, session, text, images, _⟩ => userPrompt session text images
    | ⟨.userApproval, session, action, granted, _⟩ => userApproval session action granted
    | ⟨.userCancel, session, _⟩ => userCancel session
    | ⟨.agentText, session, delta, _⟩ => agentText session delta
    | ⟨.agentThinking, session, delta, _⟩ => agentThinking session delta
    | ⟨.toolRequested, session, call, _⟩ => toolRequested session call
    | ⟨.turnComplete, session, _⟩ => turnComplete session
    | ⟨.toolResult, session, call, output, _⟩ => toolResult session call output
    | ⟨.pluginUp, plugin, tools, _⟩ => pluginUp plugin tools
    | ⟨.pluginDown, plugin, reason, _⟩ => pluginDown plugin reason
    | ⟨.approvalPending, session, call, _⟩ => approvalPending session call
    | ⟨.spawnAgent, parent, callId, prompt, system, _⟩ => spawnAgent parent callId prompt system
    | ⟨.subAgentStarted, parent, child, prompt, _⟩ => subAgentStarted parent child prompt
    | ⟨.sensorReading, nodeId, reading, timestamp, _⟩ => sensorReading nodeId reading timestamp
    | ⟨.wakeTriggered, _⟩ => wakeTriggered
    | ⟨.agentMessage, source, target, body, msgId, _⟩ => agentMessage source target body msgId
    | ⟨.agentMessageAck, msgId, source, _⟩ => agentMessageAck msgId source
    | ⟨.councilStarted, councilId, topic, agents, _⟩ => councilStarted councilId topic agents
    | ⟨.councilRoundStart, councilId, round, _⟩ => councilRoundStart councilId round
    | ⟨.councilAgentDelta, councilId, round, agentId, delta, _⟩ =>
      councilAgentDelta councilId round agentId delta
    | ⟨.councilAgentDone, councilId, round, agentId, fullText, _⟩ =>
      councilAgentDone councilId round agentId fullText
    | ⟨.councilRoundDone, councilId, round, convergence, agreements, _⟩ =>
      councilRoundDone councilId round convergence agreements
    | ⟨.councilComplete, councilId, rounds, reason, synthesis, _⟩ =>
      councilComplete councilId rounds reason synthesis
    | ⟨.councilButtIn, councilId, message, _⟩ => councilButtIn councilId message
    | ⟨.error, session, message, _⟩ => error session message
    | ⟨.vastInstanceLaunched, instanceId, recipe, costPerHr, _⟩ =>
      vastInstanceLaunched instanceId recipe costPerHr
    | ⟨.vastInstanceReady, instanceId, localPort, model, _⟩ =>
      vastInstanceReady instanceId localPort model
    | ⟨.vastInstanceDestroyed, instanceId, _⟩ => vastInstanceDestroyed instanceId
    | ⟨.vastTunnelLost, instanceId, _⟩ => vastTunnelLost instanceId
    | ⟨.meshMessage, fromNode, session, preview, _⟩ => meshMessage fromNode session preview
    | ⟨.meshMemoryShared, fromNode, memoryId, preview, _⟩ =>
      meshMemoryShared fromNode memoryId preview
    | ⟨.peerSeen, nodeId, ip, _⟩ => peerSeen nodeId ip
    | ⟨.peerRegistered, nodeId, wsUrl, role, _⟩ => peerRegistered nodeId wsUrl role
    | ⟨.peerLost, nodeId, _⟩ => peerLost nodeId
    | ⟨.meshNodeStatus, nodeId, status, lastSeenSecs, _⟩ =>
      meshNodeStatus nodeId status lastSeenSecs
    | ⟨.evolutionProposed, id, proposal, proposedBy, _⟩ => evolutionProposed id proposal proposedBy
    | ⟨.evolutionApplied, id, proposal, patchSummary, appliedBy, _⟩ =>
      evolutionApplied id proposal patchSummary appliedBy
    | ⟨.evolutionRolledBack, evolutionId, reason, rolledBackBy, _⟩ =>
      evolutionRolledBack evolutionId reason rolledBackBy
    | ⟨.goalStateChanged, goal, objective, state, step, maxSteps, detail, yolo, _⟩ =>
      goalStateChanged goal objective state step maxSteps detail yolo
  into_out event := by cases event <;> rfl
  out_into := by
    rintro ⟨t, _⟩
    cases t <;> rfl
  named t := by cases t <;> rfl
  distinct t := by cases t <;> simp [Fields.names]

end Event

end Contract

end ApexosRv
