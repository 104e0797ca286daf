import ApexosRv.Agreement
import ApexosRv.Fold
import ApexosRv.Steers
import ApexosRv.Uart

/-!
# A run of the kernel

`main` (`kernel/src/main.rs`) from its banner to the exit code: the wire contract
is proven on three events, a log is folded, and the goal is driven on a script
or over the gateway. What it prints and how it exits is `Kernel.main`; whether
the log that the host captures says the same as the exit code is what
`kernel_log` is about.
-/

namespace ApexosRv

open RustStr

/-! ## What is emitted -/

/-- An `f32` or `f64`, carried along as `serde_json` writes it. -/
abbrev Number := String

/-- The one kind of reading the kernel emits. -/
structure AirQuality where
  iaq : Number
  co2EqPpm : Number
  vocPpm : Number
  accuracy : UInt8
  temperatureC : Number
  humidityPct : Number
  pressureHpa : Number
  sensorId : String
  deriving DecidableEq, Repr

/-- An event with all its payload: the three of `proto.rs`, and any that
`Event` carries whole. -/
inductive Emitted where
  | sensorReading (nodeId : String) (reading : AirQuality) (timestamp : UInt64)
  | vastInstanceLaunched (instanceId recipe : String) (costPerHr : Number)
  | toolRequested (session : SessionId) (call : ToolCall)
  | told (event : Event)
  deriving DecidableEq, Repr

/-- `serde_json` where it is only looked at some of the events. -/
structure EventJson.LosslessOn {E : Type} [EventJson E] (S : E → Prop) : Prop where
  opens {event : E} (here : S event) : (EventJson.toString event).toList.head? = some '\x7b'
  closes {event : E} (here : S event) : (EventJson.toString event).toList.getLast? = some '\x7d'
  escaped {event : E} (here : S event) : ∀ c ∈ (EventJson.toString event).toList, 0x20 ≤ c.toNat
  reads {event : E} (here : S event) : EventJson.fromStr (EventJson.toString event) = some event

/-- What a fold sees of it. -/
def Emitted.view : Emitted → Event
  | .sensorReading _ _ _ => .sensorReading
  | .vastInstanceLaunched _ _ _ => .vastInstanceLaunched
  | .toolRequested _ _ => .toolRequested
  | .told event => event

/-- `serde_json` on what the kernel emits, also by way of its value trees. -/
class MetalJson extends EventJson Emitted where
  valueFromStr : String → Option Value
  toValue : Emitted → Value

/-! ## The console -/

/-- A line for the reader of the log. -/
def narration [EventJson Emitted] (line : String) (single : '\n' ∉ line.toList := by simp)
    (other : line.toList.head? ≠ some '\x7b' := by simp) : Print Emitted :=
  .narrate line single other

/-- A stretch of the kernel: it prints lines, and panics with a message or
returns. `none` is a loop that has not ended within its fuel. -/
abbrev Console [MetalJson] := ExceptT String (StateT (List (Print Emitted)) Option)

namespace Console

variable [MetalJson] {α β : Type}

def println (print : Print Emitted) : Console Unit := modify (· ++ [print])

def emit (event : Emitted) : Console Unit := println (.emit event)

/-- Whatever was printed before, these events are printed next, among other lines. -/
def Tells (c : Console α) (events : List Emitted) (result : Except String α) : Prop :=
  ∀ log, ∃ prints, c.run.run log = some (result, log ++ prints) ∧
    prints.filterMap Print.event? = events

theorem Tells.return (a : α) : Tells (pure a) [] (.ok a) := by
  intro log
  exact ⟨[], by rw [List.append_nil]; rfl, rfl⟩

theorem Tells.panic (message : String) : Tells (throw message : Console α) [] (.error message) := by
  intro log
  exact ⟨[], by simp, rfl⟩

theorem Tells.println (print : Print Emitted) :
    Tells (Console.println print) print.event?.toList (.ok ()) := by
  intro log
  exact ⟨[print], rfl, by cases print <;> rfl⟩

theorem Tells.bind {c : Console α} {f : α → Console β} {events later : List Emitted} {a : α}
    {result : Except String β} (first : Tells c events (.ok a)) (next : Tells (f a) later result) :
    Tells (c >>= f) (events ++ later) result := by
  intro log
  obtain ⟨prints, ran, told⟩ := first log
  obtain ⟨prints', ran', told'⟩ := next (log ++ prints)
  refine ⟨prints ++ prints', ?_, by rw [List.filterMap_append, told, told']⟩
  rw [ExceptT.run_bind, StateT.run_bind, ran, ← List.append_assoc]
  exact ran'

/-- A panic skips what comes after it. -/
theorem Tells.stop {c : Console α} {events : List Emitted} {message : String}
    (first : Tells c events (.error message)) (f : α → Console β) :
    Tells (c >>= f) events (.error message) := by
  intro log
  obtain ⟨prints, ran, told⟩ := first log
  refine ⟨prints, ?_, told⟩
  rw [ExceptT.run_bind, StateT.run_bind, ran]
  rfl

theorem Tells.forM {f : β → Console Unit} {events : β → List Emitted}
    (xs : List β) (each : ∀ x ∈ xs, Tells (f x) (events x) (.ok ())) :
    Tells (xs.forM f) (xs.flatMap events) (.ok ()) := by
  induction xs with
  | nil => exact .return ()
  | cons x rest ih =>
    exact (each x List.mem_cons_self).bind
      (ih fun y here => each y (List.mem_cons_of_mem _ here))

/-- A stretch that does not end within its fuel, or tells what `P` allows. -/
def Comes (c : Console α) (P : List Emitted → Except String α → Prop) : Prop :=
  (∀ log, c.run.run log = none) ∨ ∃ events result, Tells c events result ∧ P events result

theorem Comes.after {c : Console α} {f : α → Console β} {events : List Emitted} {a : α}
    {P : List Emitted → Except String β → Prop} (first : Tells c events (.ok a))
    (next : Comes (f a) fun later result => P (events ++ later) result) : Comes (c >>= f) P := by
  rcases next with endless | ⟨later, result, tells, allowed⟩
  · left
    intro log
    obtain ⟨prints, ran, _⟩ := first log
    rw [ExceptT.run_bind, StateT.run_bind, ran]
    exact endless _
  · exact .inr ⟨_, result, first.bind tells, allowed⟩

theorem Comes.before {c : Console α} {f : α → Console β} {P : List Emitted → Except String α → Prop}
    {Q : List Emitted → Except String β → Prop} (first : Comes c P)
    (stops : ∀ events message, P events (.error message) → Q events (.error message))
    (next : ∀ events a, P events (.ok a) → ∃ result, Tells (f a) [] result ∧ Q events result) :
    Comes (c >>= f) Q := by
  rcases first with endless | ⟨events, result, tells, allowed⟩
  · left
    intro log
    rw [ExceptT.run_bind, StateT.run_bind, endless]
    rfl
  · right
    cases result with
    | error message => exact ⟨events, _, tells.stop f, stops events message allowed⟩
    | ok a =>
      obtain ⟨result, tells', allowed'⟩ := next events a allowed
      have all := tells.bind tells'
      rw [List.append_nil] at all
      exact ⟨events, result, all, allowed'⟩

theorem Tells.emits (events : List Emitted) : Tells (events.forM emit) events (.ok ()) := by
  have each := Tells.forM (f := emit) events fun e _ => .println (.emit e)
  have same : events.flatMap (fun e => (Print.emit e).event?.toList) = events :=
    List.flatMap_singleton' events
  rwa [same] at each

end Console

/-! ## The program -/

/-- The build with the features that change its run. -/
structure Firmware extends Build where
  failScript : Bool
  panicTest : Bool

/-- A gateway session: what `establish` yields, in which iteration of the goal's loop
it panics if it does, and whether `close_clean` panics. -/
structure Session (M : Type) where
  sessionId : UInt64
  mesh : M
  fails : Option (Nat × String)
  closeClean : M → Option String

/-- What a run finds around it: the NIC's address if there is one, what `establish`
comes to, and the clock. -/
structure World (M : Type) where
  nic : Option (Vector UInt8 6)
  establish : Except String (Session M)
  clock : Clock

/-- `{:02x}`. -/
def hexByte (b : UInt8) : String :=
  String.ofList [Nat.digitChar (b.toNat / 16), Nat.digitChar (b.toNat % 16)]

def macText (mac : Vector UInt8 6) : String :=
  hexByte mac[0] ++ ":" ++ hexByte mac[1] ++ ":" ++ hexByte mac[2] ++ ":" ++ hexByte mac[3] ++
    ":" ++ hexByte mac[4] ++ ":" ++ hexByte mac[5]

theorem hexByte_single (b : UInt8) : '\n' ∉ (hexByte b).toList := by
  have digit : ∀ n < 16, Nat.digitChar n ≠ '\n' := by decide
  have high : b.toNat / 16 < 16 := by
    have := b.toNat_lt
    omega
  rw [hexByte, String.toList_ofList]
  simp [(digit _ high).symm, (digit (b.toNat % 16) (Nat.mod_lt _ (by decide))).symm]

theorem macText_single (mac : Vector UInt8 6) : '\n' ∉ (macText mac).toList := by
  simp [macText, hexByte_single]

theorem closing_single (build : Build) (polls : Nat) :
    '\n' ∉ (Drive.closing build polls).toList := by
  unfold Drive.closing
  split
  · simp
  · exact single_append (single_append (by simp) (toString_single polls)) (by simp)

theorem closing_other (build : Build) (polls : Nat) :
    (Drive.closing build polls).toList.head? ≠ some '\x7b' := by
  unfold Drive.closing
  split <;> simp

namespace Kernel

open Console

section
variable [MetalJson]

/-- `net::init` announces the NIC. -/
def netInit (nic : Option (Vector UInt8 6)) : Console Unit :=
  match nic with
  | none => pure ()
  | some mac => 
    println (narration ("net: virtio-net up mac=" ++ macText mac)
      (single_append (by simp) (macText_single mac)) (by simp))

/-- `proto.rs`. -/
def roundtrip (event : Emitted) : Console Unit := do
  let json := EventJson.toString event
  match EventJson.fromStr json with
  | none => throw "called `Result::unwrap()` on an `Err` value"
  | some (back : Emitted) =>
    let json2 := EventJson.toString back
    if json ≠ json2 then throw "re-serialization must be byte-identical"
    match MetalJson.valueFromStr json with
    | none => throw "called `Result::unwrap()` on an `Err` value"
    | some v1 =>
      if v1 ≠ MetalJson.toValue back then throw "value trees must match"
      emit event

def protoEvents : List Emitted :=
  [.sensorReading "rv-metal-0"
      { iaq := "51.5", co2EqPpm := "407.0", vocPpm := "0.5", accuracy := 3
        temperatureC := "22.5", humidityPct := "40.25", pressureHpa := "1013.25"
        sensorId := "bme688" }
      1777000000,
    .vastInstanceLaunched "vast-31337" "qwen3-30b-a3b" "0.297",
    .toolRequested ⟨1⟩ ⟨⟨7⟩, "cerebro.recall", "\x7b\"k\":3,\"query\":\"hart 0 online\"\x7d", false⟩]

def proto : Console Unit := do
  protoEvents.forM roundtrip
  println (narration "proto: 3 events round-tripped on metal")

/-- The log of `fold_demo`. -/
def foldEvents : List Event :=
  [.userPrompt ⟨1⟩ "bring the colony contract to metal" [],
    .pluginUp ⟨"cerebro"⟩ [⟨"cerebro.recall", "recall memories", "{}"⟩,
      ⟨"cerebro.store", "store a memory", "{}"⟩],
    .approvalPending ⟨1⟩ ⟨⟨7⟩, "cerebro.store", "\x7b\"content\":\"hart 0 online\"\x7d", true⟩,
    .userApproval ⟨1⟩ ⟨7⟩ true]

/-- The assertions of `fold_demo`. -/
def foldHolds (st : SystemState) : Console Unit := do
  unless st.sessions[(⟨1⟩ : SessionId)]?.any (fun c => c.parent.isNone && c.history.length == 1) do
    throw "assertion failed: st.sessions.get(&SessionId(1))"
  unless st.tools.size = 2 do throw "assertion `left == right` failed"
  unless st.pendingApprovals.isEmpty do throw "assertion failed: st.pending_approvals.is_empty()"

def foldDemo : Console Unit := do
  let st ← foldEvents.foldlM (fun st event => do
    emit (.told event)
    return SystemState.apply st event) SystemState.default
  foldHolds st
  println (narration "state: fold ok — sessions=1 tools=2 approvals=0")

variable [SerdeJson]

/-- The lines of a goal that has left `Acting`. -/
def closingLines {I : Type} (build : Build) (o : Outcome I) : List (Print Emitted) :=
  if o.done then
    [narration (Drive.closing build o.polls) (closing_single build o.polls)
      (closing_other build o.polls), narration "APEXOS-RV: goal done — halting"]
  else []

/-- `drive_goal`. A session that fails in an iteration of the loop has let the
iterations before it print their events. -/
def goal {I : Type} [Inference I] (build : Build) (clock : Clock) (fuel : Nat)
    (fails : Option (Nat × String)) (inf : I) : Console (Outcome I) :=
  let last := fails.map fun (n, message) => (Drive.before build clock inf n, message)
  match last.filter (·.1.acting) with
  | some (d, message) => do
    (d.run.emitted.map .told).forM emit
    throw message
  | none => do
    let o ← liftM (driveGoal build clock inf fuel)
    (o.run.emitted.map .told).forM emit
    (closingLines build o).forM println
    return o

/-- `agent::run`. -/
def run {M : Type} [TextLink M] (fw : Firmware) (world : World M) (fuel : Nat) : Console Bool := do
  foldDemo
  if fw.meshGoal then
    match world.nic with
    | none => throw "mesh-goal requires the NIC"
    | some _ =>
      match world.establish with
      | .error message => throw message
      | .ok session =>
        println (narration ("mesh: session " ++ toString session.sessionId.toNat ++ " established")
          (single_append (single_append (by simp) (toString_single _)) (by simp)) (by simp))
        let o ← goal fw.toBuild world.clock fuel session.fails (MeshInference.new session.mesh)
        match session.closeClean o.run.inf.mesh with
        | some message => throw message
        | none => return o.done
  else
    let script := if fw.failScript then SCRIPT_HANG else SCRIPT_SUCCESS
    let o ← goal fw.toBuild world.clock fuel none (ScriptedInference.new script)
    return o.done

def normalFlow {M : Type} [TextLink M] (fw : Firmware) (world : World M) (fuel : Nat) :
    Console Bool := do
  println (narration "alloc ok: 42 (heap: 1024 KiB)")
  proto
  if fw.panicTest then
    throw "panic-test: intentional panic to prove the reporting path"
  else run fw world fuel

/-- `main`, up to its exit. -/
def boot {M : Type} [TextLink M] (fw : Firmware) (world : World M) (fuel : Nat) : Console Bool := do
  println (narration "apexos-rv: hart 0 online")
  netInit world.nic
  normalFlow fw world fuel

/-- All that is printed, and the exit code. `report` is how the panic handler prints a
message. -/
def main {M : Type} [TextLink M] (fw : Firmware) (world : World M)
    (report : String → List (Print Emitted)) (fuel : Nat) : Option (List (Print Emitted) × Nat) :=
  ((boot fw world fuel).run.run []).map fun
    | (.ok done, log) => (log, if done then 0 else 2)
    | (.error message, log) => (log ++ report message, 1)

end

/-! ## What its parts tell -/

/-- What the kernel emits: the events of `proto.rs`, the log of the demo, and the states
of a goal. -/
def Emits : Emitted → Prop
  | .told event => event ∈ foldEvents ∨ event.goalState?.isSome = true
  | event => event ∈ protoEvents

/-- What is relied on of `serde_json`: of what the kernel emits nothing is lost, and a
text reads as its event's tree. -/
structure Lossless [MetalJson] : Prop extends EventJson.LosslessOn Emits where
  trees {event : Emitted} (emits : Emits event) :
    MetalJson.valueFromStr (EventJson.toString event) = some (MetalJson.toValue event)

section
variable [MetalJson]

theorem tells_narration (line : String) (single : '\n' ∉ line.toList)
    (other : line.toList.head? ≠ some '\x7b') :
    Tells (println (narration line single other)) [] (.ok ()) :=
  .println (narration line single other)

theorem tells_netInit (nic : Option (Vector UInt8 6)) : Tells (netInit nic) [] (.ok ()) := by
  cases nic with
  | none => exact .return ()
  | some mac => exact tells_narration _ _ _

theorem tells_roundtrip (lossless : Lossless) {event : Emitted} (emits : Emits event) :
    Tells (roundtrip event) [event] (.ok ()) := by
  have same : roundtrip event = emit event := by
    simp only [roundtrip, lossless.reads emits, lossless.trees emits, ne_eq, not_true_eq_false,
      ↓reduceIte]
  rw [same]
  exact .println (.emit event)

omit [MetalJson] in
theorem emits_proto {event : Emitted} (here : event ∈ protoEvents) : Emits event := by
  simp only [protoEvents, List.mem_cons, List.not_mem_nil, or_false] at here
  rcases here with rfl | rfl | rfl <;> simp [Emits, protoEvents]

theorem tells_proto (lossless : Lossless) : Tells proto protoEvents (.ok ()) := by
  have each := Tells.forM protoEvents fun event here =>
    tells_roundtrip lossless (emits_proto here)
  have all : Tells proto _ _ := each.bind (tells_narration _ _ _)
  simpa using all

/-- The log that the demo folds. -/
def folded : SystemState := foldEvents.foldl SystemState.apply SystemState.default

theorem tells_foldHolds : Tells (foldHolds folded) [] (.ok ()) := by
  have session : folded.sessions[(⟨1⟩ : SessionId)]?.any
      (fun c => c.parent.isNone && c.history.length == 1) = true := by decide +kernel
  have tools : folded.tools.size = 2 := by decide +kernel
  have approvals : folded.pendingApprovals.isEmpty = true := by decide +kernel
  simp only [foldHolds, session, tools, approvals, ↓reduceIte]
  exact .return ()

theorem tells_foldDemo : Tells foldDemo (foldEvents.map .told) (.ok ()) := by
  have folds : ∀ (events : List Event) (st : SystemState),
      Tells (events.foldlM (fun st event => do
        emit (.told event)
        return SystemState.apply st event) st) (events.map .told)
        (.ok (events.foldl SystemState.apply st)) := by
    intro events
    induction events with
    | nil => exact fun st => .return st
    | cons event rest ih =>
      intro st
      have one : Tells (do emit (.told event); return SystemState.apply st event) [.told event]
          (.ok (st.apply event)) := (Tells.println (.emit (.told event))).bind (.return _)
      exact one.bind (ih _)
  have all : Tells foldDemo _ _ :=
    (folds foldEvents .default).bind (tells_foldHolds.bind (tells_narration _ _ _))
  simpa using all

end

end Kernel

end ApexosRv
