import ApexosRv.Reference
import ApexosRv.Wire
import Mathlib.Data.List.Infix
import Mathlib.Logic.Function.Iterate

/-!
# A goal on the mesh refines the plain driver

The gateway answers the `k`-th prompt with the deltas of turn `k` and one
`turn_complete`. Whatever else it sends, and however the link groups and delays
it, the goal on the mesh goes through the states of a driver shown the verdicts
of whole turns (`Refines`, kept by every poll).
-/

namespace ApexosRv

/-- What the deltas of a turn and its end say to the node. -/
def turn (deltas : List String) : List Signal := deltas.map .delta ++ [.complete]

/-- `stream` is a part of what a gateway sends from turn `c` on. -/
def Follows (turns : Nat → List String) (c : Nat) (stream : List Signal) : Prop :=
  ∃ n, stream <+: (List.range' c n).flatMap fun k => turn (turns k)

/-- The first `turn_complete` of such a stream ends turn `c`. -/
theorem Follows.complete {turns : Nat → List String} {c : Nat} {deltas : List String}
    {rest : List Signal} (h : Follows turns c (deltas.map .delta ++ .complete :: rest)) :
    deltas = turns c ∧ Follows turns (c + 1) rest := by
  obtain ⟨n, more, same⟩ := h
  cases n with
  | zero => simp at same
  | succ n =>
    rw [List.range'_succ, List.flatMap_cons] at same
    simp only [turn, List.append_assoc, List.cons_append, List.nil_append] at same
    have quiet : ∀ ds : List String, ∀ s ∈ ds.map Signal.delta, (s != .complete) = true := by
      intro ds s hs
      obtain ⟨d, -, rfl⟩ := List.mem_map.mp hs
      rfl
    have texts := (split_first_unique (quiet _) (quiet _) rfl rfl same).1
    have deltas_eq : deltas = turns c :=
      List.map_injective_iff.mpr (fun a b h => Signal.delta.inj h) texts
    subst deltas_eq
    exact ⟨rfl, n, more, (List.cons.inj (List.append_cancel_left same)).2⟩

/-- The plain driver fed a list of verdicts. -/
def fed (goal : GoalId) (objective : String) (maxSteps : Nat) (verdicts : List Verdict) : Trace :=
  verdicts.foldl (fun t v => t.call (.advance (.completed v))) (.start goal objective maxSteps)

theorem fed_concat (goal : GoalId) (objective : String) (maxSteps : Nat) (verdicts : List Verdict)
    (v : Verdict) :
    fed goal objective maxSteps (verdicts ++ [v]) =
      (fed goal objective maxSteps verdicts).call (.advance (.completed v)) := by
  simp [fed]

/-- The verdict of turn `k`, read from its whole text. -/
def verdictOf (turns : Nat → List String) (k : Nat) : Verdict :=
  turnVerdict (String.join (turns k))

section
variable {M : Type} [TextLink M] [SerdeJson]

/-- A goal on `mesh₀` that is `c` turns into the stream: the driver is the
plain one fed `c` verdicts, `deltas` is what was heard of turn `c`, and `taken`
all that was read. -/
structure Refines (goal : GoalId) (objective : String) (maxSteps : Nat) (mesh₀ : M)
    (turns : Nat → List String) (c : Nat) (taken deltas : List String)
    (g : GoalRun (MeshInference M)) : Prop where
  driver : g.driver = (fed goal objective maxSteps ((List.range c).map (verdictOf turns))).driver
  emitted : g.emitted = (fed goal objective maxSteps ((List.range c).map (verdictOf turns))).emitted
  applied : g.applied = (List.range c).map fun k => (k + 1, verdictOf turns k)
  step : g.driver.acting = true → g.driver.step = c + 1
  stream : Link.unread mesh₀ = taken ++ Link.unread g.inf.mesh
  heard : signals taken =
    ((List.range c).flatMap fun k => turn (turns k)) ++ deltas.map .delta
  follows : Follows turns c (deltas.map .delta ++ signals (Link.unread g.inf.mesh))
  grounded : g.inf.inFlight = false → deltas = []
  reply : g.inf.inFlight = true → g.inf.reply = hear "" deltas

namespace Refines

variable {goal : GoalId} {objective : String} {maxSteps : Nat} {mesh₀ : M}
  {turns : Nat → List String} {c : Nat} {taken deltas : List String}
  {g : GoalRun (MeshInference M)}

theorem start (goal : GoalId) (objective : String) (maxSteps : Nat) (mesh : M)
    {turns : Nat → List String} (answered : Follows turns 0 (signals (Link.unread mesh))) :
    Refines goal objective maxSteps mesh turns 0 [] []
      (GoalRun.start goal objective maxSteps (MeshInference.new mesh)) where
  driver := rfl
  emitted := rfl
  applied := rfl
  step _ := rfl
  stream := rfl
  heard := rfl
  follows := answered
  grounded _ := rfl
  reply flying := by simp [GoalRun.start, MeshInference.new] at flying

/-- A poll that reads on has the deltas it read before those still to come. -/
theorem waits (h : Refines goal objective maxSteps mesh₀ turns c taken deltas g)
    (flying : g.inf.inFlight = true) {mesh : M} {more heard : List String}
    (stream : Link.unread g.inf.mesh = more ++ Link.unread mesh)
    (means : signals more = heard.map .delta) :
    Refines goal objective maxSteps mesh₀ turns c (taken ++ more) (deltas ++ heard)
      { g with
        inf := ⟨mesh, hear g.inf.reply heard, true⟩
        consulted := g.consulted ++ [(g.driver.context, .pending)] } := by
  have follows := h.follows
  rw [stream, signals_append, means, ← List.append_assoc, ← List.map_append] at follows
  exact { h with
    applied := (GoalRun.applied_of_pending (g := g) g.driver.context rfl).trans h.applied
    stream := by rw [h.stream, stream, List.append_assoc]
    heard := by simp [h.heard, means]
    follows
    grounded := fun ground => by simp at ground
    reply := fun _ => by rw [h.reply flying, hear_append] }

/-- The end of a turn brings the verdict of the whole of it. -/
theorem answers (h : Refines goal objective maxSteps mesh₀ turns c taken deltas g)
    (act : g.driver.acting = true) (flying : g.inf.inFlight = true) {mesh : M}
    {more heard : List String} {verdict : Verdict}
    (stream : Link.unread g.inf.mesh = more ++ Link.unread mesh)
    (means : signals more = heard.map .delta ++ [.complete])
    (reads : verdict = turnVerdict (hear g.inf.reply heard)) :
    Refines goal objective maxSteps mesh₀ turns (c + 1) (taken ++ more) []
      { driver := (g.driver.advance (.completed verdict)).1
        inf := ⟨mesh, hear g.inf.reply heard, false⟩
        emitted := g.emitted ++ (g.driver.advance (.completed verdict)).2
        consulted := g.consulted ++ [(g.driver.context, .completed verdict)] } := by
  have follows := h.follows
  rw [stream, signals_append, means, List.append_assoc, ← List.append_assoc, ← List.map_append]
    at follows
  obtain ⟨whole, next⟩ := follows.complete
  obtain rfl : verdict = verdictOf turns c := by
    rw [reads, h.reply flying, ← hear_append, whole]
    rfl
  constructor
  case driver =>
    rw [List.range_succ, List.map_append, List.map_singleton, fed_concat]
    simp only [h.driver, Trace.call]
  case emitted =>
    rw [List.range_succ, List.map_append, List.map_singleton, fed_concat]
    simp only [h.driver, h.emitted, Trace.call]
  case applied =>
    rw [GoalRun.applied_of_completed (g := g) g.driver.context rfl, h.applied, List.range_succ,
      List.map_append]
    simp [GoalDriver.context, h.step act]
  case step =>
    intro still
    have := GoalDriver.advance_acting act (by simp) still
    rw [this, h.step act]
  case stream => rw [h.stream, stream, List.append_assoc]
  case heard =>
    simp only [signals_append, h.heard, means, List.range_succ, List.flatMap_append,
      List.flatMap_singleton, turn, ← whole]
    simp
  case follows => exact next
  case grounded => exact fun _ => rfl
  case reply =>
    intro flying
    simp at flying

theorem poll (h : Refines goal objective maxSteps mesh₀ turns c taken deltas g) :
    ∃ c' taken' deltas', Refines goal objective maxSteps mesh₀ turns c' taken' deltas' g.poll := by
  have step := polled g
  generalize g.poll = g' at step
  cases step with
  | idle idle => exact ⟨c, taken, deltas, h⟩
  | prompts act grounded =>
    obtain rfl := h.grounded grounded
    exact ⟨c, taken, [],
      { h with
        applied := (GoalRun.applied_of_pending (g := g) g.driver.context rfl).trans h.applied
        stream := by simp [h.stream]
        follows := by simpa using h.follows
        grounded := fun _ => rfl
        reply := fun _ => rfl }⟩
  | waits act flying mesh more heard stream sent means =>
    exact ⟨c, taken ++ more, deltas ++ heard, h.waits flying stream means⟩
  | answers act flying mesh more heard verdict stream sent means reads =>
    exact ⟨c + 1, taken ++ more, [], h.answers act flying stream means reads⟩

theorem polls (n : Nat) (h : Refines goal objective maxSteps mesh₀ turns c taken deltas g) :
    ∃ c' taken' deltas',
      Refines goal objective maxSteps mesh₀ turns c' taken' deltas' (GoalRun.poll^[n] g) := by
  induction n generalizing g c taken deltas with
  | zero => exact ⟨c, taken, deltas, h⟩
  | succ n ih =>
    obtain ⟨c', taken', deltas', h'⟩ := h.poll
    exact ih h'

end Refines

/-- **A goal on the mesh refines the plain driver.** Let the texts that mean
something to the node be a part of what the gateway's turns say, in order; any
other texts may stand anywhere between them. After any number of polls, `c`
turns have been read to their end and `deltas` of the next one: the verdict
applied to step `k` is the one of turn `k`'s whole text, and the driver and its
events are those of the plain driver fed these verdicts. No text keeps the goal
from going on: while it acts, a poll sends the prompt, reads all that the link
hands out, or ends a turn. -/
theorem turns_refine_driver (goal : GoalId) (objective : String) (maxSteps : Nat) (mesh : M)
    (turns : Nat → List String)
    (answered : ∃ n, signals (Link.unread mesh) <+:
      (List.range n).flatMap fun k => (turns k).map .delta ++ [.complete])
    (polls : Nat) :
    let start := GoalRun.start goal objective maxSteps (MeshInference.new mesh)
    let g := GoalRun.poll^[polls] start
    (∀ k < polls, (GoalRun.poll^[k] start).driver.acting = true →
      Moves (GoalRun.poll^[k] start) (GoalRun.poll^[k + 1] start)) ∧
    ∃ (c : Nat) (taken deltas : List String),
      Link.unread mesh = taken ++ Link.unread g.inf.mesh ∧
      signals taken = ((List.range c).flatMap fun k => (turns k).map .delta ++ [.complete]) ++
        deltas.map .delta ∧
      g.applied = (List.range c).map (fun k =>
        (k + 1, (parseGoalStep (String.join (turns k))).getD (.continue none))) ∧
      g.driver = (fed goal objective maxSteps (g.applied.map Prod.snd)).driver ∧
      g.emitted = (fed goal objective maxSteps (g.applied.map Prod.snd)).emitted := by
  intro start g
  refine ⟨fun k _ act => ?_, ?_⟩
  · rw [Function.iterate_succ_apply']
    exact moves act
  have follows : Follows turns 0 (signals (Link.unread mesh)) := by
    obtain ⟨n, part⟩ := answered
    exact ⟨n, by rw [← List.range_eq_range']; exact part⟩
  obtain ⟨c, taken, deltas, h⟩ := (Refines.start goal objective maxSteps mesh follows).polls polls
  have verdicts : g.applied.map Prod.snd = (List.range c).map (verdictOf turns) := by
    rw [h.applied, List.map_map]
    rfl
  refine ⟨c, taken, deltas, h.stream, h.heard, h.applied, ?_, ?_⟩
  · rw [verdicts, h.driver]
  · rw [verdicts, h.emitted]

end

/-! ## The mock gateway's session -/

section

/-- The turns of the scripted gateway in `xtest/src/bin/mockd.rs`. -/
def mockTurns : Nat → List String
  | 2 => ["Step 3 objective complete.\n", "GOAL_STEP: done"]
  | k => ["Step " ++ toString (k + 1) ++ " acknowledged — proceeding.\n", "GOAL_STEP: continue"]

def mockEvents : List Event :=
  (List.range 3).flatMap fun k => (mockTurns k).map (.agentText ⟨42⟩) ++ [.turnComplete ⟨42⟩]

/-- The session with its first delta late and a second `session_init` between
two turns. -/
def mockMesh : Mesh where
  sessionId := 42
  inbound :=
    let texts := mockEvents.map fun event => some (Wire.eventText event)
    none :: texts.take 1 ++ none :: (texts.drop 1).take 2 ++
      none :: some "\x7b\"type\":\"session_init\",\"session_id\":42,\"history\":[]\x7d" ::
        texts.drop 3
  sent := []

local instance mockJson : SerdeJson := Wire.json mockEvents

/-- The mock gateway's session is such a stream, and nine polls read the whole of it. -/
theorem mock_turns_refine_driver :
    let start := GoalRun.start ⟨1⟩ "objective" 8 (MeshInference.new mockMesh)
    let g := GoalRun.poll^[9] start
    (∀ k < 9, (GoalRun.poll^[k] start).driver.acting = true →
      Moves (GoalRun.poll^[k] start) (GoalRun.poll^[k + 1] start)) ∧
    ∃ taken, Link.unread mockMesh = taken ++ Link.unread g.inf.mesh ∧
      signals taken = (List.range 3).flatMap (fun k => (mockTurns k).map .delta ++ [.complete]) ∧
      g.applied = [(1, .continue none), (2, .continue none), (3, .done)] ∧
      g.driver.state = .done ∧
      g.emitted =
        (fed ⟨1⟩ "objective" 8 [.continue none, .continue none, .done]).emitted := by
  have all : signals (Link.unread mockMesh) =
      (List.range 3).flatMap fun k => (mockTurns k).map .delta ++ [.complete] := by
    decide +kernel
  obtain ⟨moves, c, taken, deltas, stream, heard, applied, -, emitted⟩ :=
    turns_refine_driver ⟨1⟩ "objective" 8 mockMesh mockTurns ⟨3, all ▸ List.prefix_rfl⟩ 9
  have seen : (GoalRun.poll^[9] (GoalRun.start ⟨1⟩ "objective" 8
        (MeshInference.new mockMesh))).applied =
      [(1, .continue none), (2, .continue none), (3, .done)] := by
    decide +kernel
  have ended : (GoalRun.poll^[9] (GoalRun.start ⟨1⟩ "objective" 8
      (MeshInference.new mockMesh))).driver.state = .done := by
    decide +kernel
  obtain rfl : c = 3 := by
    have length := congrArg List.length applied
    rw [seen, List.length_map, List.length_range] at length
    exact length.symm
  have quiet : deltas = [] := by
    have same := congrArg signals stream
    rw [signals_append, heard, all, List.append_assoc] at same
    exact List.map_eq_nil_iff.mp (List.append_eq_nil_iff.mp (List.self_eq_append_right.mp same)).1
  rw [quiet, List.map_nil, List.append_nil] at heard
  rw [seen] at emitted
  exact ⟨moves, taken, stream, heard, seen, ended, emitted⟩

end

end ApexosRv
