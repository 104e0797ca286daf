import ApexosRv.ContractText
import ApexosRv.Mockd

/-!
# The frames beside the events

`agent-core/src/gateway.rs`: what the node and its gateway send each other that
is not an event as it stands. A prompt leaves out its session, which the gateway
puts in before it reads the frame as an event (`prompts_injected`); a control
frame is told from an event by its `type` (`controls_apart`). What the rest of the
development relies on of `serde_json` holds of the contract (`state_read`, `speaks`).
-/

namespace ApexosRv

namespace Contract

open Serde

section
variable [Floats] [Crates]

/-! ## Prompts -/

/-- What `ClientFrame` declares. -/
def ClientFrame.variants : Variants ClientFrame where
  key := "type"
  Tag := Unit
  tags := [()]
  name _ := "user_prompt"
  Payload _ := String × Unit
  fields _ := .field "text" Crates.string .nil
  out
    | .userPrompt text => ⟨(), text, ()⟩
  into
    | ⟨_, text, _⟩ => .userPrompt text
  into_out _ := rfl
  out_into _ := rfl
  named _ := rfl
  distinct _ := by simp [Fields.names]

def ClientFrame.toText (frame : ClientFrame) : String := Crates.toString variants frame

/-- The object of a prompt with the session in it. -/
def injected (session : SessionId) (text : String) : List (List Char × Json) :=
  [("session".toList, .num session.val.toNat), ("type".toList, .str "user_prompt".toList),
    ("text".toList, .str text.toList)]

section
variable [Documented]

theorem session_decode (session : SessionId) :
    sessionId.decode (.num session.val.toNat) = some session := by
  rw [sessionId, Documented.newtype_decode, Documented.u64.decode]
  rfl

theorem frame_entries (text : String) : ClientFrame.variants.entries (.userPrompt text) =
    [("type".toList, .str "user_prompt".toList), ("text".toList, .str text.toList)] := by
  show [_, ("text".toList, Crates.string.encode text)] = _
  rw [Documented.string.encode]
  rfl

/-- The frame of a prompt holds its type and its text. -/
theorem frame_content (text : String) : Crates.content (ClientFrame.toText (.userPrompt text)) =
    some (.obj [("type".toList, .str "user_prompt".toList),
      ("text".toList, .str text.toList)]) := by
  rw [← frame_entries]
  apply Documented.written
  · rw [frame_entries]
    simp [Json.depth, Json.depthFields, recursionLimit]
  · rw [frame_entries]
    rfl

/-- **The gateway reads a prompt as the prompt of the session it puts in**, whatever
else it adds and however it orders the fields; without a session it reads nothing. -/
theorem prompts_injected (session : SessionId) (text : String) :
    Event.fromText (ClientFrame.toText (.userPrompt text)) = none ∧
      ∀ (received : String) (entries : List (List Char × Json)),
        Crates.content received = some (.obj entries) →
        Fields.Alike ["type", "session", "text", "images"] (injected session text) entries →
        Event.fromText received = some (.userPrompt session text []) := by
  constructor
  · have needed : sessionId.missing = none := Documented.newtype_missing
    apply Event.variants.fromStr_wrong "session" (frame_content text) (t := .userPrompt)
    · simp [occurrences_cons, Event.variants, Event.name]
    · apply Or.inr
      simp [occurrences_cons, Event.variants, Event.shape, Fields.required, needed]
  · intro received entries holds alike
    obtain ⟨tagged, fields⟩ := List.forall_mem_cons.mp alike
    have type : occurrences "type" (injected session text) = [.str "user_prompt".toList] := by
      simp [injected, occurrences_cons]
    have same : Fields.Alike (Event.variants.fields .userPrompt).names
        (injected session text) entries := fields
    apply (Event.variants.fromStr_obj holds _).mpr
    constructor
    · rw [type] at tagged
      exact (List.singleton_perm.mp tagged).symm
    · show (Event.variants.fields .userPrompt).look entries = some (session, text, [], ())
      rw [← Fields.look_alike _ same]
      have said := Documented.string.decode text
      simp [injected, occurrences_cons, Event.variants, Event.shape, Fields.look,
        Documented.field_once, Documented.field_default, session_decode, said]

end

end

section
attribute [local instance] Floats.asText textCrates text_documented

/-- A prompt with the session in the middle of it, and a field of the gateway's own. -/
def forwarded : List (List Char × Json) :=
  [("text".toList, .str "step 1".toList), ("session".toList, .num 42),
    ("received".toList, .bool true), ("type".toList, .str "user_prompt".toList)]

theorem forwarded_prompt : Event.fromText (String.ofList (Json.obj forwarded).print) =
    some (.userPrompt ⟨42⟩ "step 1" []) := by
  apply (prompts_injected ⟨42⟩ "step 1").2 _ forwarded
  · exact content_print rfl
  · simp [Fields.Alike, forwarded, injected, occurrences_cons]

end

/-! ## Control frames -/

section
variable [Floats] [Crates]

inductive GatewayControl where
  | sessionInit (sessionId : UInt64) (history : Crates.Value)

/-- The history is opaque, and null where there is none. -/
def GatewayControl.variants : Variants GatewayControl where
  key := "type"
  Tag := Unit
  tags := [()]
  name _ := "session_init"
  Payload _ := UInt64 × Crates.Value × Unit
  fields _ := .field "session_id" Crates.u64 <| .fieldOr "history" Crates.value Crates.null .nil
  out
    | .sessionInit sessionId history => ⟨(), sessionId, history, ()⟩
  into
    | ⟨_, sessionId, history, _⟩ => .sessionInit sessionId history
  into_out _ := rfl
  out_into _ := rfl
  named _ := rfl
  distinct _ := by simp [Fields.names]

def GatewayControl.fromText (text : String) : Option GatewayControl :=
  Crates.fromStr variants text

variable [Documented]

omit [Crates] [Documented] in
theorem inRange_of_occurs {key : String} {v : Json} {entries : List (List Char × Json)}
    (fits : inRangeFields entries = true) (occurs : v ∈ occurrences key entries) :
    inRange v = true := by
  rw [inRangeFields_eq, List.all_eq_true] at fits
  obtain ⟨⟨cs, v'⟩, here, named⟩ := List.mem_filterMap.mp occurs
  by_cases same : cs = key.toList
  · have value : v' = v := by simpa [same] using named
    exact value ▸ fits _ here
  · simp [same] at named

/-- Null where the field is absent, and whatever it holds where it stands once. -/
theorem history_read {entries : List (List Char × Json)} (fits : inRangeFields entries = true) :
    (∃ history, Crates.field Crates.value (some Crates.null) (occurrences "history" entries) =
      some history) ↔ (occurrences "history" entries).length ≤ 1 := by
  match found : occurrences "history" entries with
  | [] => exact iff_of_true ⟨_, Documented.field_default⟩ (by simp)
  | [v] =>
    have ranged := inRange_of_occurs fits (found ▸ List.mem_singleton_self v)
    apply iff_of_true _ (Nat.le_refl 1)
    rw [Documented.field_once]
    exact Option.isSome_iff_exists.mp (Documented.value ranged)
  | _ :: _ :: _ =>
    rw [Documented.field_duplicate (by simp)]
    simp

/-- An id is read from the number it is written as, and from nothing else. -/
theorem id_read (id : UInt64) (vs : List Json) :
    Crates.field Crates.u64 none vs = some id ↔ vs = [.num id.toNat] := by
  match vs with
  | [] =>
    rw [Documented.field_missing, Documented.u64.missing]
    simp
  | [v] =>
    rw [Documented.field_once, List.singleton_inj]
    constructor
    · exact Documented.u64_only
    · rintro rfl
      exact Documented.u64.decode id
  | _ :: _ :: _ =>
    rw [Documented.field_duplicate (by simp)]
    simp

/-- **No text is both a control frame and an event**, and a control frame is read
by its fields: the one `session_id` there is, whatever the history holds. -/
theorem controls_apart (text : String) :
    (GatewayControl.fromText text = none ∨ Event.fromText text = none) ∧
      ∀ entries, Crates.content text = some (.obj entries) → ∀ id,
        (∃ history, GatewayControl.fromText text = some (.sessionInit id history)) ↔
          occurrences "type" entries = [.str "session_init".toList] ∧
            occurrences "session_id" entries = [.num id.toNat] ∧
            (occurrences "history" entries).length ≤ 1 := by
  constructor
  · cases read : GatewayControl.fromText text with
    | none => exact .inl rfl
    | some control =>
      apply Or.inr
      apply Variants.fromStr_apart (V := GatewayControl.variants) (W := Event.variants) rfl _ read
      intro _ t
      show "session_init" ≠ Event.name t
      cases t <;> decide
  · intro entries holds id
    have fits : inRangeFields entries = true := Documented.content_inRange holds
    have fields : ∀ history, GatewayControl.fromText text = some (.sessionInit id history) ↔
        occurrences "type" entries = [.str "session_init".toList] ∧
          (GatewayControl.variants.fields ()).look entries = some (id, history, ()) :=
      fun history => GatewayControl.variants.fromStr_obj holds (.sessionInit id history)
    have looked : ∀ history, (GatewayControl.variants.fields ()).look entries =
        some (id, history, ()) ↔
          Crates.field Crates.u64 none (occurrences "session_id" entries) = some id ∧
            Crates.field Crates.value (some Crates.null) (occurrences "history" entries) =
              some history := by
      intro history
      show ((Crates.field Crates.u64 none (occurrences "session_id" entries)).bind fun id =>
        ((Crates.field Crates.value (some Crates.null) (occurrences "history" entries)).bind
          fun history => some (history, ())).bind fun rest => some (id, rest)) = _ ↔ _
      cases Crates.field Crates.u64 none (occurrences "session_id" entries) <;>
        cases Crates.field Crates.value (some Crates.null) (occurrences "history" entries) <;> simp
    rw [← id_read, ← history_read fits]
    simp only [fields, looked, exists_and_left]

end

section
attribute [local instance] Floats.asText textCrates text_documented

/-- The greeting of the scripted gateway, with fields it does not have. -/
def greeted : List (List Char × Json) :=
  [("session_id".toList, .num 42), ("motd".toList, .arr []),
    ("type".toList, .str "session_init".toList)]

theorem greeted_session : ∃ history,
    GatewayControl.fromText (String.ofList (Json.obj greeted).print) =
      some (.sessionInit 42 history) := by
  apply ((controls_apart _).2 greeted _ 42).mpr
  · simp [greeted, occurrences_cons]
  · exact content_print rfl

end

/-! ## The contract between the node and the scripted gateway -/

section
variable [Floats]

attribute [local instance] jsonCrates json_documented

def valueText (v : Serde.Value) : String := String.ofList v.tree.encode.print

/-- An event as the node looks at it. -/
def Event.heard : Event → ApexosRv.Event
  | userPrompt session text images => .userPrompt session text images
  | userApproval session action granted => .userApproval session action granted
  | userCancel session => .userCancel session
  | agentText session delta => .agentText session delta
  | agentThinking _ _ => .agentThinking
  | toolRequested _ _ => .toolRequested
  | turnComplete session => .turnComplete session
  | toolResult session call output => .toolResult session call ⟨output.ok, valueText output.content⟩
  | pluginUp plugin tools =>
    .pluginUp plugin (tools.map fun t => ⟨t.name, t.description, valueText t.inputSchema⟩)
  | pluginDown plugin reason => .pluginDown plugin reason
  | approvalPending session call =>
    .approvalPending session ⟨call.id, call.tool, valueText call.args, call.needsApproval⟩
  | spawnAgent _ _ _ _ => .spawnAgent
  | subAgentStarted _ _ _ => .subAgentStarted
  | sensorReading _ _ _ => .sensorReading
  | wakeTriggered => .wakeTriggered
  | agentMessage _ _ _ _ => .agentMessage
  | agentMessageAck _ _ => .agentMessageAck
  | councilStarted _ _ _ => .councilStarted
  | councilRoundStart _ _ => .councilRoundStart
  | councilAgentDelta _ _ _ _ => .councilAgentDelta
  | councilAgentDone _ _ _ _ => .councilAgentDone
  | councilRoundDone _ _ _ _ => .councilRoundDone
  | councilComplete _ _ _ _ => .councilComplete
  | councilButtIn _ _ => .councilButtIn
  | error _ _ => .error
  | vastInstanceLaunched _ _ _ => .vastInstanceLaunched
  | vastInstanceReady _ _ _ => .vastInstanceReady
  | vastInstanceDestroyed _ => .vastInstanceDestroyed
  | vastTunnelLost _ => .vastTunnelLost
  | meshMessage _ _ _ => .meshMessage
  | meshMemoryShared _ _ _ => .meshMemoryShared
  | peerSeen _ _ => .peerSeen
  | peerRegistered _ _ _ => .peerRegistered
  | peerLost _ => .peerLost
  | meshNodeStatus _ _ _ => .meshNodeStatus
  | evolutionProposed _ _ _ => .evolutionProposed
  | evolutionApplied _ _ _ _ => .evolutionApplied
  | evolutionRolledBack _ _ _ => .evolutionRolledBack
  | goalStateChanged goal objective state step maxSteps detail yolo =>
    .goalStateChanged goal objective state step.toNat maxSteps.toNat detail yolo

/-- `serde_json` on the contract, as the node uses it: it writes the states of its
goal, and prompts. -/
@[reducible] def nodeJson : SerdeJson where
  eventFromStr text := (Event.fromText text).map Event.heard
  eventToString
    | .goalStateChanged goal objective state step maxSteps detail yolo =>
      Event.toText (.goalStateChanged goal objective state (.ofNat step) (.ofNat maxSteps) detail
        yolo)
    | _ => ""
  frameToString := ClientFrame.toText

/-- The states of a goal are read back as they were. -/
theorem state_read (goal : GoalId) (objective : String) (state : GoalState) {step maxSteps : ℕ}
    (detail : String) (yolo : Bool) (fits : step < 2 ^ 32) (bound : maxSteps < 2 ^ 32) :
    nodeJson.eventFromStr (nodeJson.eventToString
        (.goalStateChanged goal objective state step maxSteps detail yolo)) =
      some (.goalStateChanged goal objective state step maxSteps detail yolo) := by
  have back : Event.fromText (Event.toText (.goalStateChanged goal objective state (.ofNat step)
      (.ofNat maxSteps) detail yolo)) = some (.goalStateChanged goal objective state (.ofNat step)
        (.ofNat maxSteps) detail yolo) := by
    apply (Event.read_back_iff _).mpr
    constructor
    · constructor <;> simp [Event.singles, Event.doubles, Event.values]
    · have flat : Event.depth (.goalStateChanged goal objective state (.ofNat step)
          (.ofNat maxSteps) detail yolo) = 1 := rfl
      rw [flat]
      decide
  apply (congrArg (Option.map Event.heard) back).trans
  rw [Option.map_some, Event.heard, UInt32.toNat_ofNat_of_lt' fits,
    UInt32.toNat_ofNat_of_lt' bound]

theorem read_print_object {entries : List (List Char × Json)} {e : Event}
    (fits : ((Json.obj entries).depth < recursionLimit && inRange (.obj entries)) = true)
    (tagged : occurrences "type" entries = [.str (Event.name e.tag).toList])
    (looked : (Event.variants.fields e.tag).look entries = some (Event.variants.out e).2) :
    Event.fromText (String.ofList (Json.obj entries).print) = some e :=
  (Event.variants.fromStr_obj (content_print fits) e).mpr ⟨tagged, looked⟩

theorem session_read : sessionId.decode (.num 42) = some ⟨42⟩ := session_decode ⟨42⟩

theorem delta_read (delta : String) :
    Event.fromText (String.ofList (Mockd.agentText delta).print) =
      some (.agentText ⟨42⟩ delta) := by
  have said := Documented.string.decode delta
  apply read_print_object
  · rfl
  · simp [occurrences_cons, Event.tag, Event.variants, Event.name]
  · simp [occurrences_cons, Event.tag, Event.variants, Event.shape, Fields.look,
      Documented.field_once, session_read, said]

theorem complete_read : Event.fromText (String.ofList Mockd.turnComplete.print) =
    some (.turnComplete ⟨42⟩) := by
  apply read_print_object
  · rfl
  · simp [occurrences_cons, Event.tag, Event.variants, Event.name]
  · simp [occurrences_cons, Event.tag, Event.variants, Event.shape, Fields.look,
      Documented.field_once, session_read]

/-- The scripted gateway and the node understand each other. -/
theorem speaks : @Mockd.Speaks nodeJson Mockd.valueTexts :=
  let _ := nodeJson
  let _ := Mockd.valueTexts
  { frame := fun text => by
      refine ⟨.obj [("type".toList, .str "user_prompt".toList), ("text".toList, .str text.toList)],
        ?_, rfl, rfl, rfl⟩
      show Json.parse (String.ofList
        (Json.obj (ClientFrame.variants.entries (.userPrompt text))).print).toList = _
      rw [String.toList_ofList, Json.parse_print, frame_entries]
    delta := fun delta => congrArg (Option.map Event.heard) (delta_read delta)
    complete := congrArg (Option.map Event.heard) complete_read }

end

end Contract

end ApexosRv
