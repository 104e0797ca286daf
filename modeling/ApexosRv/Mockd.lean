import ApexosRv.Exchange
import ApexosRv.JsonText

/-!
# The scripted gateway

`llm` of `xtest/src/bin/mockd.rs`, the peer of the mesh gates: it reads a
prompt, checks its shape, and answers with two deltas and the end of the turn;
the third turn says that the goal is done. In its silent mode it sends one
delta and then nothing. `Mockd.script` is what it answers, `Mockd.keeps` that it
keeps to it: its assertions hold of every prompt the node sends.
-/

namespace ApexosRv

/-- What the gateway uses of `serde_json`: `from_str::<Value>`, the lookups into a value,
and `to_string` of a `json!` value. -/
class SerdeValue where
  Value : Type
  fromStr : String → Option Value
  /-- `v[key]`. -/
  index : Value → String → Value
  get? : Value → String → Option Value
  asStr : Value → Option String
  toString : Json → String

/-- The loop of `llm` after its `session_init`: the prompts it has read, and the
texts it has still to send before it reads again. `turn` is a `u32` in the
source, which the prompts of a goal never come near. -/
structure Mockd where
  silent : Bool
  turn : Nat
  toSend : List String
  panicked : Bool
  deriving DecidableEq, Repr

namespace Mockd

/-- `json!({"type": "agent_text", "session": 42, "delta": ..})`, its fields in
the order of the map. -/
def agentText (delta : String) : Json :=
  .obj [("delta".toList, .str delta.toList), ("session".toList, .num 42),
    ("type".toList, .str "agent_text".toList)]

def turnComplete : Json :=
  .obj [("session".toList, .num 42), ("type".toList, .str "turn_complete".toList)]

def body (turn : Nat) : String :=
  if turn < 3 then "acknowledged — proceeding." else "objective complete."

def verdict (turn : Nat) : String :=
  if turn < 3 then "GOAL_STEP: continue" else "GOAL_STEP: done"

/-- The deltas of a turn. -/
def deltas (turn : Nat) : List String :=
  ["Step " ++ toString turn ++ " " ++ body turn ++ "\n", verdict turn]

theorem verdict_continue : turnVerdict (String.join (deltas 1)) = .continue none ∧
    turnVerdict (String.join (deltas 2)) = .continue none := by
  decide +kernel

theorem verdict_done : turnVerdict (String.join (deltas 3)) = .done := by
  decide +kernel

section
variable [SerdeValue]

/-- One round of the loop, up to its first send. -/
def read (m : Mockd) (text : String) : Mockd :=
  if m.panicked then m
  else
    match SerdeValue.fromStr text with
    | none => { m with panicked := true }
    | some v =>
      if SerdeValue.asStr (SerdeValue.index v "type") ≠ some "user_prompt" then
        { m with panicked := true }
      else if (SerdeValue.get? v "session").isSome then { m with panicked := true }
      else if (SerdeValue.get? v "images").isSome then { m with panicked := true }
      else
        let turn := m.turn + 1
        if m.silent then
          { m with turn, toSend := [SerdeValue.toString (agentText "thinking very hard about")] }
        else
          { m with
            turn
            toSend := (deltas turn).map (SerdeValue.toString ∘ agentText) ++
              [SerdeValue.toString turnComplete] }

def say (m : Mockd) : Option (String × Mockd) :=
  match m.toSend with
  | [] => none
  | text :: rest => some (text, { m with toSend := rest })

instance : Gateway Mockd := ⟨say, read⟩

end

/-- The gateway after its `session_init`. -/
def start (silent : Bool) : Mockd := ⟨silent, 0, [], false⟩

/-! ## What it answers -/

/-- What is relied on of `serde_json`: a prompt frame is read as a value with the fields
that `gateway.rs` tests for, looked up by their names, and the gateway's values as the
events they spell. -/
structure Speaks [SerdeJson] [SerdeValue] : Prop where
  frame (text : String) : ∃ v, SerdeValue.fromStr (SerdeJson.frameToString (.userPrompt text)) =
      some v ∧ SerdeValue.asStr (SerdeValue.index v "type") = some "user_prompt" ∧
    SerdeValue.get? v "session" = none ∧ SerdeValue.get? v "images" = none
  delta (delta : String) : SerdeJson.eventFromStr (SerdeValue.toString (agentText delta)) =
    some (.agentText ⟨42⟩ delta)
  complete : SerdeJson.eventFromStr (SerdeValue.toString turnComplete) = some (.turnComplete ⟨42⟩)

section
variable [SerdeJson] [SerdeValue]

theorem Speaks.signals (speaks : Speaks) (deltas : List String) :
    ApexosRv.signals (deltas.map (SerdeValue.toString ∘ agentText)) = deltas.map .delta := by
  induction deltas with
  | nil => rfl
  | cons delta rest ih =>
    rw [List.map_cons, signals_cons, ih]
    simp [signal, speaks.delta]

/-- The answers of a gateway in either mode. -/
def script (speaks : Speaks) (silent : Bool) : Script where
  answer k :=
    if silent then [SerdeValue.toString (agentText "thinking very hard about")]
    else (deltas (k + 1)).map (SerdeValue.toString ∘ agentText) ++
      [SerdeValue.toString turnComplete]
  turns k := if silent then ["thinking very hard about"] else deltas (k + 1)
  ends _ := !silent
  means k := by
    cases silent with
    | true => exact speaks.signals ["thinking very hard about"]
    | false =>
      have complete : signal (SerdeValue.toString turnComplete) = some .complete := by
        simp [signal, speaks.complete]
      simp [speaks.signals, signals_cons, complete]

/-- A prompt of the node passes every assertion. -/
theorem read_prompt (speaks : Speaks) {m : Mockd} (fine : m.panicked = false) (text : String) :
    m.read (SerdeJson.frameToString (.userPrompt text)) =
      { m with
        turn := m.turn + 1
        toSend := (script speaks m.silent).answer m.turn } := by
  obtain ⟨v, holds, type, session, images⟩ := speaks.frame text
  simp only [read, fine, holds, type, session, images, Bool.false_eq_true, ↓reduceIte,
    ne_eq, not_true_eq_false, Option.isSome_none]
  cases silent : m.silent <;> simp [script]

/-- The gateway keeps to its script. -/
def keeps (speaks : Speaks) (silent : Bool) : Keeps Mockd (script speaks silent) where
  first := start silent
  Fine m := m.silent = silent ∧ m.panicked = false
  heard := turn
  left := toSend
  fine_first := ⟨rfl, rfl⟩
  heard_first := rfl
  left_first := rfl
  sends {m} text rest fine more :=
    ⟨{ m with toSend := rest }, by simp [Gateway.say, say, more], fine, rfl, rfl⟩
  waits fine none := by simp [Gateway.say, say, none]
  reads {m} prompt fine none := by
    simp only [Gateway.read]
    rw [read_prompt speaks fine.2, fine.1]
    exact ⟨⟨rfl, fine.2⟩, rfl, rfl⟩

/-! ## The turns it plays -/

variable (speaks : Speaks) (build : Build)

/-- The goal's events up to step `n`. -/
def actings (build : Build) (n : Nat) : List Event :=
  (List.range n).map fun i => .goalStateChanged ⟨1⟩ build.objective .acting (i + 1) 8 "" false

/-- While the mock goes on, so does the goal. -/
theorem trace_acting {c : ℕ} (early : c < 3) :
    ((script speaks false).trace build c).driver =
        ⟨⟨1⟩, build.objective, .acting, c + 1, 8, none⟩ ∧
      ((script speaks false).trace build c).emitted = actings build (c + 1) := by
  induction c with
  | zero => exact ⟨rfl, rfl⟩
  | succ c ih =>
    obtain ⟨driver, emitted⟩ := ih (by omega)
    have goes : verdictOf (script speaks false).turns c = .continue none := by
      have here : c = 0 ∨ c = 1 := by omega
      rcases here with rfl | rfl
      · exact verdict_continue.1
      · exact verdict_continue.2
    have left : c + 1 < 8 := by omega
    rw [Script.trace_succ, goes]
    have moves := GoalDriver.advance_continue
      (d := ⟨⟨1⟩, build.objective, .acting, c + 1, 8, none⟩) rfl left none
    refine ⟨?_, ?_⟩
    · simp only [Trace.call, driver, moves]
    · simp only [Trace.call, driver, moves, emitted]
      simp [actings, List.range_succ]

/-- The third turn ends it. -/
theorem trace_done :
    ((script speaks false).trace build 3).driver = ⟨⟨1⟩, build.objective, .done, 3, 8, none⟩ ∧
      ((script speaks false).trace build 3).emitted = actings build 3 ++
        [.goalStateChanged ⟨1⟩ build.objective .done 3 8 "" false] := by
  obtain ⟨driver, emitted⟩ := trace_acting speaks build (c := 2) (by decide)
  have ends : verdictOf (script speaks false).turns 2 = .done := verdict_done
  have moves := GoalDriver.advance_done (d := ⟨⟨1⟩, build.objective, .acting, 3, 8, none⟩) rfl
  rw [Script.trace_succ, ends]
  refine ⟨?_, ?_⟩
  · simp only [Trace.call, driver, moves]
  · simp only [Trace.call, driver, moves, emitted]

end

/-! ## A session on JSON texts -/

/-- The events a gateway sends to the node here. -/
def eventOf (v : Json) : Option Event := do
  let type ← (v.index "type".toList).text?
  let session ← (v.index "session".toList).nat?
  if type = "agent_text".toList then
    let delta ← (v.index "delta".toList).text?
    some (.agentText ⟨.ofNat session⟩ (String.ofList delta))
  else if type = "turn_complete".toList then some (.turnComplete ⟨.ofNat session⟩)
  else none

@[reducible] def valueTexts : SerdeValue where
  Value := Json
  fromStr text := Json.parse text.toList
  index v key := v.index key.toList
  get? v key := v.get? key.toList
  asStr v := v.text?.map String.ofList
  toString v := String.ofList v.print

@[reducible] def eventTexts : SerdeJson where
  eventFromStr text := (Json.parse text.toList).bind eventOf
  eventToString := Wire.eventText
  frameToString
    | .userPrompt text => String.ofList (Json.print
        (.obj [("type".toList, .str "user_prompt".toList), ("text".toList, .str text.toList)]))

/-- Node, wire and gateway in turn. -/
def inTurn (n : ℕ) : Party :=
  match n % 3 with
  | 0 => .node
  | 1 => .gateway
  | _ => .wire

theorem inTurn_fair : Fair.Schedule inTurn := by
  intro party t
  cases party with
  | node => exact ⟨3 * t, by omega, by simp [inTurn]⟩
  | gateway => exact ⟨3 * t + 1, by omega, by simp [inTurn, Nat.add_mod]⟩
  | wire => exact ⟨3 * t + 2, by omega, by simp [inTurn, Nat.add_mod]⟩

section
attribute [local instance] valueTexts eventTexts

theorem texts_speak : Speaks where
  frame text := by
    refine ⟨.obj [("type".toList, .str "user_prompt".toList), ("text".toList, .str text.toList)],
      ?_, rfl, rfl, rfl⟩
    simp only [SerdeValue.fromStr, SerdeJson.frameToString, String.toList_ofList, Json.parse_print]
  delta delta := by
    have read : eventOf (agentText delta) =
        some (.agentText ⟨42⟩ (String.ofList delta.toList)) := rfl
    simp only [SerdeJson.eventFromStr, SerdeValue.toString, String.toList_ofList,
      Json.parse_print, Option.bind_some, read, String.ofList_toList]
  complete := by
    simp only [SerdeJson.eventFromStr, SerdeValue.toString, String.toList_ofList,
      Json.parse_print, Option.bind_some]
    rfl

end

end Mockd

end ApexosRv
