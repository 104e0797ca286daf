import ApexosRv.Drive
import ApexosRv.Fair
import ApexosRv.Turns

/-!
# The node and its gateway

The two ends of a session and the wire between them: `drive_goal` on a
`MeshInference`, a gateway that sends texts and reads prompts, and the texts
that are on their way. Any of the three may move next, as often as it likes.
For a gateway that answers each prompt with at most one turn (`Script`) the two
ends keep in step (`Tracks`): a prompt goes out only when nothing that is left
of earlier turns could be taken for an answer to it.
-/

namespace ApexosRv

/-- The node's `Mesh` on a live wire: the texts that have arrived and are
unread, and those it has sent. -/
structure Pipe where
  inbox : List String
  sent : List String
  deriving DecidableEq, Repr

namespace Pipe

def sendText (p : Pipe) (payload : String) : Pipe := { p with sent := p.sent ++ [payload] }

def tryNextText (p : Pipe) : Option String × Pipe :=
  match p.inbox with
  | [] => (none, p)
  | text :: rest => (some text, { p with inbox := rest })

instance : Link Pipe String where
  send := sendText
  receive := tryNextText
  sent := Pipe.sent
  unread := Pipe.inbox
  sent_send _ _ := rfl
  unread_send _ _ := rfl
  sent_receive p := by
    unfold tryNextText
    split <;> rfl
  unread_receive p := by
    unfold tryNextText
    split
    · rename_i h
      simp [h]
    · rename_i h
      simp [h]

@[simp] theorem unread_eq (p : Pipe) : Link.unread p = p.inbox := rfl

@[simp] theorem sent_eq (p : Pipe) : Link.sent p = p.sent := rfl

end Pipe

/-- The far end, between two of its blocking calls: it sends a text, or has
none to send and reads. -/
class Gateway (P : Type) where
  say : P → Option (String × P)
  read : P → String → P

/-- Who may move next. -/
inductive Party where
  | node
  | wire
  | gateway
  deriving DecidableEq, Repr

/-- `travelling` are the texts the gateway has sent and the node has not
received, `heard` counts the node's texts that the gateway has read. -/
structure Dialogue (P : Type) where
  node : Drive (MeshInference Pipe)
  travelling : List String
  heard : Nat
  gateway : P

namespace Dialogue

variable {P : Type}

/-- The session right after `Mesh::establish`. -/
def start (build : Build) (clock : Clock) (gateway : P) : Dialogue P :=
  ⟨Drive.start build clock (MeshInference.new ⟨[], []⟩), [], 0, gateway⟩

def run (d : Dialogue P) : GoalRun (MeshInference Pipe) := d.node.run

/-- A text arrives at the node. -/
def arrive (node : Drive (MeshInference Pipe)) (text : String) : Drive (MeshInference Pipe) :=
  { node with
    run :=
      { node.run with
        inf :=
          { node.run.inf with
            mesh := { node.run.inf.mesh with inbox := node.run.inf.mesh.inbox ++ [text] } } } }

variable [SerdeJson] [Gateway P] (build : Build) (clock : Clock)

/-- One move of a party; nothing happens where it has none. -/
def turn (d : Dialogue P) : Party → Dialogue P
  | .node => if d.node.acting then { d with node := d.node.iterate build clock } else d
  | .wire =>
    match d.travelling with
    | [] => d
    | text :: later => { d with travelling := later, node := arrive d.node text }
  | .gateway =>
    match Gateway.say d.gateway with
    | some (text, gateway) => { d with travelling := d.travelling ++ [text], gateway }
    | none =>
      match d.run.inf.mesh.sent[d.heard]? with
      | none => d
      | some text =>
        { d with heard := d.heard + 1, gateway := Gateway.read d.gateway text }

/-- The session before the `n`-th move of a schedule. -/
def before (gateway : P) (schedule : ℕ → Party) (n : ℕ) : Dialogue P :=
  Fair.before (turn build clock) schedule (start build clock gateway) n

end Dialogue

/-! ## What a gateway answers -/

/-- The texts that answer the `k`-th prompt: to the node they are the deltas of
turn `k` and, unless the gateway falls silent over it, the end of the turn. -/
structure Script [SerdeJson] where
  answer : ℕ → List String
  turns : ℕ → List String
  ends : ℕ → Bool
  means : ∀ k, signals (answer k) =
    (turns k).map .delta ++ if ends k then [.complete] else []

/-- A gateway that keeps to a script: `heard` counts the prompts it has read,
`left` is what it has still to send of its answer to the last one. -/
structure Keeps (P : Type) [SerdeJson] [Gateway P] (script : Script) where
  first : P
  Fine : P → Prop
  heard : P → ℕ
  left : P → List String
  fine_first : Fine first
  heard_first : heard first = 0
  left_first : left first = []
  sends {p : P} {text : String} {rest : List String} (fine : Fine p)
    (more : left p = text :: rest) :
    ∃ p', Gateway.say p = some (text, p') ∧ Fine p' ∧ heard p' = heard p ∧ left p' = rest
  waits {p : P} (fine : Fine p) (none : left p = []) : Gateway.say p = Option.none
  reads {p : P} (prompt : String) (fine : Fine p) (none : left p = []) :
    let p' := Gateway.read p (SerdeJson.frameToString (.userPrompt prompt))
    Fine p' ∧ heard p' = heard p + 1 ∧ left p' = script.answer (heard p)

namespace Script

variable [SerdeJson] (script : Script) (build : Build)

/-- The plain driver fed the verdicts of the first `c` turns. -/
def trace (c : ℕ) : Trace :=
  fed ⟨1⟩ build.objective 8 ((List.range c).map (verdictOf script.turns))

/-- The prompt for the step after `c` turns. -/
def prompt (c : ℕ) : String := MeshInference.promptText (script.trace build c).driver.context

theorem trace_succ (c : ℕ) :
    script.trace build (c + 1) =
      (script.trace build c).call (.advance (.completed (verdictOf script.turns c))) := by
  rw [trace, trace, List.range_succ, List.map_append, List.map_singleton, fed_concat]

variable {script build}

/-- A driver that acts after `c` turns is at step `c + 1` of its budget. -/
theorem trace_step (c : ℕ) :
    ((script.trace build c).driver.acting = true →
      (script.trace build c).driver.step = c + 1) ∧
    (script.trace build c).driver.step ≤ 8 ∧ (script.trace build c).driver.maxSteps = 8 := by
  induction c with
  | zero =>
    have first : (script.trace build 0).driver.step = 1 := rfl
    exact ⟨fun _ => first, by omega, rfl⟩
  | succ c ih =>
    obtain ⟨step, within, budget⟩ := ih
    have fixed := GoalDriver.advance_fixed (script.trace build c).driver
      (.completed (verdictOf script.turns c))
    have bounded := GoalDriver.advance_within (d := (script.trace build c).driver) (by omega)
      (.completed (verdictOf script.turns c))
    rw [trace_succ]
    refine ⟨fun still => ?_, ?_, ?_⟩
    · cases act : (script.trace build c).driver.acting
      · have idle : ((script.trace build c).driver.advance
            (.completed (verdictOf script.turns c))).1.acting = false := by
          rw [GoalDriver.advance_idle act, act]
        exact absurd (idle.symm.trans still) (by decide)
      · have next := GoalDriver.advance_acting act (r := .completed (verdictOf script.turns c))
          (by simp) still
        exact next.trans (by rw [step act])
    · show ((script.trace build c).driver.advance _).1.step ≤ 8
      rw [fixed.2.2, budget] at bounded
      exact bounded
    · exact fixed.2.2.trans budget

theorem lt_of_acting {c : ℕ} (act : (script.trace build c).driver.acting = true) : c < 8 := by
  have ⟨step, within, _⟩ := @trace_step _ script build c
  have := step act
  omega

end Script

end ApexosRv
