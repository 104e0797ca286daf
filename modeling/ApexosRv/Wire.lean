import ApexosRv.Mesh

/-!
# The JSON of a goal on the wire

`serde_json` on what a goal run writes and on what it reacts to, with the field
order of `vendor/apexos-protocol/src/lib.rs` and `agent-core/src/gateway.rs`:
an instance to run the model on.
-/

namespace ApexosRv

namespace Wire

/-- A character inside a JSON string. -/
def escape (c : Char) : String :=
  let n := c.toNat
  if n = 0x22 then "\\\""
  else if n = 0x5C then "\\\\"
  else if n = 8 then "\\b"
  else if n = 9 then "\\t"
  else if n = 10 then "\\n"
  else if n = 12 then "\\f"
  else if n = 13 then "\\r"
  else if n < 0x20 then
    "\\u00" ++ String.ofList [Nat.digitChar (n / 16), Nat.digitChar (n % 16)]
  else String.singleton c

def quoted (text : String) : String :=
  "\"" ++ String.join (text.toList.map escape) ++ "\""

/-- A tagged object: its `type`, then its fields, whose values are JSON. -/
def tagged (type : String) (fields : List (String × String)) : String :=
  "\x7b\"type\":" ++ quoted type ++
    String.join (fields.map fun (name, value) => "," ++ quoted name ++ ":" ++ value) ++ "\x7d"

def stateName : GoalState → String
  | .planning => "planning"
  | .acting => "acting"
  | .blocked => "blocked"
  | .reflecting => "reflecting"
  | .done => "done"
  | .failed => "failed"
  | .cancelled => "cancelled"

/-- The events a goal run writes or reacts to; the text of another event says
nothing to it. -/
def eventText : Event → String
  | .agentText session delta =>
    tagged "agent_text" [("session", toString session.val), ("delta", quoted delta)]
  | .turnComplete session => tagged "turn_complete" [("session", toString session.val)]
  | .goalStateChanged goal objective state step maxSteps detail yolo =>
    tagged "goal_state_changed"
      [("goal", toString goal.val), ("objective", quoted objective),
        ("state", quoted (stateName state)), ("step", toString step),
        ("max_steps", toString maxSteps), ("detail", quoted detail), ("yolo", toString yolo)]
  | _ => ""

def frameText : ClientFrame → String
  | .userPrompt text => tagged "user_prompt" [("text", quoted text)]

/-- `serde_json` where only `events` are sent to the node. -/
@[reducible] def json (events : List Event) : SerdeJson where
  eventFromStr text := events.find? (eventText · == text)
  eventToString := eventText
  frameToString := frameText

end Wire

end ApexosRv
