import Mathlib.Data.List.Basic

/-!
# The wire contract

The types of `apexos-protocol` that the agent core and the kernel work with.
A variant that every modelled function matches with `{ .. }` stands here
without its payload.
-/

namespace ApexosRv

/-- The protocol's map alias; the kernel builds it as a `BTreeMap`. -/
abbrev Map (K V : Type) [Ord K] : Type := Std.ExtTreeMap K V

structure SessionId where
  val : UInt64
  deriving DecidableEq, Repr

structure ActionId where
  val : UInt64
  deriving DecidableEq, Repr

structure GoalId where
  val : UInt64
  deriving DecidableEq, Repr

structure PluginId where
  val : String
  deriving DecidableEq, Repr

instance : Ord SessionId := ⟨compareOn SessionId.val⟩
instance : Std.TransOrd SessionId := inferInstanceAs (Std.TransCmp (compareOn SessionId.val))
instance : Std.LawfulEqOrd SessionId where
  eq_of_compare {a b} h := by
    cases a
    cases b
    exact congrArg SessionId.mk (Std.LawfulEqOrd.eq_of_compare h)

instance : Ord ActionId := ⟨compareOn ActionId.val⟩
instance : Std.TransOrd ActionId := inferInstanceAs (Std.TransCmp (compareOn ActionId.val))
instance : Std.LawfulEqOrd ActionId where
  eq_of_compare {a b} h := by
    cases a
    cases b
    exact congrArg ActionId.mk (Std.LawfulEqOrd.eq_of_compare h)

instance : Ord PluginId := ⟨compareOn PluginId.val⟩
instance : Std.TransOrd PluginId := inferInstanceAs (Std.TransCmp (compareOn PluginId.val))
instance : Std.LawfulEqOrd PluginId where
  eq_of_compare {a b} h := by
    cases a
    cases b
    exact congrArg PluginId.mk (Std.LawfulEqOrd.eq_of_compare h)

/-- Lifecycle of a goal. The driver only ever enters `acting`, `blocked`,
`done` and `failed`; the others are reserved or operator-only. -/
inductive GoalState where
  | planning
  | acting
  | blocked
  | reflecting
  | done
  | failed
  | cancelled
  deriving DecidableEq, Repr

/-- A `serde_json::Value`, carried along as its JSON text and never looked into. -/
abbrev Value := String

structure ToolCall where
  id : ActionId
  tool : String
  args : Value
  needsApproval : Bool
  deriving DecidableEq, Repr

structure ToolOutput where
  ok : Bool
  content : Value
  deriving DecidableEq, Repr

structure ToolSpec where
  name : String
  description : String
  inputSchema : Value
  deriving DecidableEq, Repr

structure ImageSource where
  mediaType : String
  data : String
  deriving DecidableEq, Repr

inductive ContentBlock where
  | text (text : String)
  | thinking (thinking signature : String)
  | toolUse (id name : String) (input : Value)
  | toolResult (toolUseId : String) (content : Value) (isError : Bool)
  | image (mediaType data : String)
  deriving DecidableEq, Repr

inductive Message where
  | user (content : List ContentBlock)
  | assistant (content : List ContentBlock)
  deriving DecidableEq, Repr

/-- Every session is one of these; `parent` is `none` for a root session. -/
structure AgentContext where
  id : SessionId
  parent : Option SessionId
  history : List Message
  spawned : List SessionId
  deriving DecidableEq, Repr

def AgentContext.root (id : SessionId) : AgentContext := ⟨id, none, [], []⟩

def AgentContext.child (id parent : SessionId) : AgentContext := ⟨id, some parent, [], []⟩

inductive Event where
  | userPrompt (session : SessionId) (text : String) (images : List ImageSource)
  | userApproval (session : SessionId) (action : ActionId) (granted : Bool)
  | userCancel (session : SessionId)
  | agentText (session : SessionId) (delta : String)
  | agentThinking
  | toolRequested
  | turnComplete (session : SessionId)
  | toolResult (session : SessionId) (call : ActionId) (output : ToolOutput)
  | pluginUp (plugin : PluginId) (tools : List ToolSpec)
  | pluginDown (plugin : PluginId) (reason : String)
  | approvalPending (session : SessionId) (call : ToolCall)
  | spawnAgent
  | subAgentStarted
  | sensorReading
  | wakeTriggered
  | agentMessage
  | agentMessageAck
  | councilStarted
  | councilRoundStart
  | councilAgentDelta
  | councilAgentDone
  | councilRoundDone
  | councilComplete
  | councilButtIn
  | error
  | vastInstanceLaunched
  | vastInstanceReady
  | vastInstanceDestroyed
  | vastTunnelLost
  | meshMessage
  | meshMemoryShared
  | peerSeen
  | peerRegistered
  | peerLost
  | meshNodeStatus
  | evolutionProposed
  | evolutionApplied
  | evolutionRolledBack
  | goalStateChanged (goal : GoalId) (objective : String) (state : GoalState)
      (step maxSteps : Nat) (detail : String) (yolo : Bool)
  deriving DecidableEq, Repr

end ApexosRv
