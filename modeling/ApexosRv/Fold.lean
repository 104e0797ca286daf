import ApexosRv.Protocol
import ApexosRv.Runs
import ApexosRv.Worklist

/-!
# The state fold

`SystemState` (`agent-core/src/state.rs`): the colony's state folded from its
events, the registration of child sessions, and the collection of a subtree for
the cancel cascade.
-/

namespace ApexosRv

/-- The agent tree held flat, the registered tools with their owners, the live
plugins with what each advertises, and the calls awaiting approval. -/
structure SystemState where
  sessions : Map SessionId AgentContext
  tools : Map String PluginId
  plugins : Map PluginId (List ToolSpec)
  pendingApprovals : Map ActionId SessionId

namespace SystemState

def default : SystemState := ⟨∅, ∅, ∅, ∅⟩

/-- The content of a prompt: its text unless it is empty, then its images. -/
def promptContent (text : String) (images : List ImageSource) : List ContentBlock :=
  (if text.isEmpty then [] else [.text text]) ++
    images.map fun img => .image img.mediaType img.data

/-- Folds one event into the state. -/
def apply (s : SystemState) : Event → SystemState
  | .userPrompt session text images =>
    let ctx := s.sessions[session]?.getD (.root session)
    let history := ctx.history ++ [.user (promptContent text images)]
    { s with sessions := s.sessions.insert session { ctx with history } }
  | .userCancel _ => s
  | .agentText _ _ => s
  | .agentThinking => s
  | .toolRequested => s
  | .approvalPending session call =>
    { s with pendingApprovals := s.pendingApprovals.insert call.id session }
  | .userApproval _ action _ => { s with pendingApprovals := s.pendingApprovals.erase action }
  | .toolResult _ _ _ => s
  | .turnComplete _ => s
  | .pluginUp plugin tools =>
    { s with
      tools := tools.foldl (fun m spec => m.insert spec.name plugin) s.tools
      plugins := s.plugins.insert plugin tools }
  | .pluginDown plugin _ =>
    { s with
      tools := s.tools.filter fun _ owner => owner != plugin
      plugins := s.plugins.erase plugin }
  | .spawnAgent => s
  | .subAgentStarted => s
  | .sensorReading => s
  | .wakeTriggered => s
  | .councilStarted => s
  | .councilRoundStart => s
  | .councilAgentDelta => s
  | .councilAgentDone => s
  | .councilRoundDone => s
  | .councilComplete => s
  | .councilButtIn => s
  | .error => s
  | .evolutionProposed => s
  | .evolutionApplied => s
  | .evolutionRolledBack => s
  | .goalStateChanged _ _ _ _ _ _ _ => s
  | .agentMessage => s
  | .agentMessageAck => s
  | .meshMessage => s
  | .meshMemoryShared => s
  | .peerSeen => s
  | .peerRegistered => s
  | .peerLost => s
  | .meshNodeStatus => s
  | .vastInstanceLaunched => s
  | .vastInstanceReady => s
  | .vastInstanceDestroyed => s
  | .vastTunnelLost => s

/-- Registers a child session; neither argument is looked at first. -/
def registerChild (s : SystemState) (child parent : SessionId) : SystemState :=
  let sessions := s.sessions.insert child (.child child parent)
  { s with sessions := sessions.modify parent fun p => { p with spawned := p.spawned ++ [child] } }

/-- `sessions.get(id)` followed to its `spawned`. -/
def spawned (s : SystemState) (id : SessionId) : List SessionId :=
  match s.sessions[id]? with
  | some ctx => ctx.spawned
  | none => []

/-- A session and all its transitive descendants, when `fuel` rounds of the
loop are enough. -/
def subtree (s : SystemState) (root : SessionId) (fuel : Nat) : Option (List SessionId) :=
  Worklist.collect s.spawned root fuel

/-- What changes a state. -/
inductive Call where
  | apply (event : Event)
  | registerChild (child parent : SessionId)

def step (s : SystemState) : Call → SystemState
  | .apply event => s.apply event
  | .registerChild child parent => s.registerChild child parent

end SystemState

end ApexosRv
