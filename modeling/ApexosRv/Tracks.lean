import ApexosRv.Dialogue

/-!
# The two ends in step

`Tracks` is the invariant of a session with a gateway that keeps to a script:
`c` turns have been read to their end, `b` prompts have been read by the
gateway, and what is still under way either means nothing to the node or is the
rest of turn `c`. Every move of every party keeps it (`Dialogue.synced`), for
all clocks and with the watchdog at any moment.
-/

namespace ApexosRv

/-- The driver and the events of a run are those of `t`. -/
def GoalRun.Tells {I : Type} (run : GoalRun I) (t : Trace) : Prop :=
  run.driver = t.driver ∧ run.emitted = t.emitted

/-- A goal `c` turns into a script: as the plain driver is then, or failed by
the watchdog from there. -/
inductive Script.Reached [SerdeJson] (script : Script) (build : Build) (c : ℕ) {I : Type}
    (run : GoalRun I) : Prop where
  | follows (tells : run.Tells (script.trace build c))
  | stalled (acted : (script.trace build c).driver.acting = true)
      (tells : run.Tells ((script.trace build c).call (.advance .stalled)))

section
variable [SerdeJson] {script : Script} {build : Build} {c : ℕ} {I : Type} {run : GoalRun I}

theorem Script.Reached.acting (h : script.Reached build c run)
    (act : run.driver.acting = true) : run.Tells (script.trace build c) := by
  cases h with
  | follows tells => exact tells
  | stalled acted tells =>
    rw [tells.1] at act
    simp [Trace.call, GoalDriver.advance_stalled acted, GoalDriver.acting] at act

theorem Script.Reached.alive (h : script.Reached build c run)
    (alive : run.driver.state ≠ .failed) : run.Tells (script.trace build c) := by
  cases h with
  | follows tells => exact tells
  | stalled acted tells =>
    refine absurd ?_ alive
    rw [tells.1]
    simp [Trace.call, GoalDriver.advance_stalled acted]

theorem Script.Reached.stall (h : script.Reached build c run)
    (act : run.driver.acting = true) : script.Reached build c (run.advance .stalled) := by
  obtain ⟨driver, emitted⟩ := h.acting act
  refine .stalled (driver ▸ act) ⟨?_, ?_⟩
  · simp [GoalRun.advance, Trace.call, driver]
  · simp [GoalRun.advance, Trace.call, driver, emitted]

end

theorem Script.Reached.congr [SerdeJson] {script : Script} {build : Build} {c : ℕ} {I : Type}
    {run run' : GoalRun I} (h : script.Reached build c run) (driver : run'.driver = run.driver)
    (emitted : run'.emitted = run.emitted) : script.Reached build c run' := by
  cases h with
  | follows tells => exact .follows ⟨driver.trans tells.1, emitted.trans tells.2⟩
  | stalled acted tells => exact .stalled acted ⟨driver.trans tells.1, emitted.trans tells.2⟩

/-- `ahead` are the texts that have still to arrive at the node, `deltas` what
it has heard of turn `c`. -/
structure Tracks [SerdeJson] (script : Script) (build : Build) (run : GoalRun (MeshInference Pipe))
    (ahead : List String) (c b : ℕ) (deltas : List String) : Prop where
  node : script.Reached build c run
  applied : run.applied = (List.range c).map fun k => (k + 1, verdictOf script.turns k)
  acted : ∀ k < c, (script.trace build k).driver.acting = true ∧ script.ends k = true
  flying : run.inf.inFlight = true → (script.trace build c).driver.acting = true
  sent : run.inf.mesh.sent = (List.range (c + run.inf.inFlight.toNat)).map (script.prompt build)
  reads : c ≤ b ∧ b ≤ c + run.inf.inFlight.toNat
  stale : b = c → signals (run.inf.mesh.inbox ++ ahead) = [] ∧ deltas = []
  current : b = c + 1 → deltas.map .delta ++ signals (run.inf.mesh.inbox ++ ahead) =
    (script.turns c).map .delta ++ if script.ends c then [.complete] else []
  reply : run.inf.inFlight = true → run.inf.reply = hear "" deltas

namespace Tracks

/-- What ends a turn ends the turn that was answered. -/
theorem whole_turn {heard deltas : List String} {later : List Signal} {ends : Bool}
    (same : heard.map .delta ++ .complete :: later =
      deltas.map .delta ++ if ends then [.complete] else []) :
    ends = true ∧ heard = deltas ∧ later = [] := by
  have silent : ∀ ds : List String, ∀ s ∈ ds.map Signal.delta, (s != .complete) = true := by
    intro ds s hs
    obtain ⟨d, -, rfl⟩ := List.mem_map.mp hs
    rfl
  cases ends with
  | false =>
    have here : Signal.complete ∈ deltas.map Signal.delta := by
      simp only [Bool.false_eq_true, ↓reduceIte, List.append_nil] at same
      rw [← same]
      simp
    simp at here
  | true =>
    have texts := (split_first_unique (silent heard) (silent deltas) rfl rfl same).1
    rw [texts] at same
    exact ⟨rfl, List.map_injective_iff.mpr (fun _ _ h => Signal.delta.inj h) texts,
      (List.cons.inj (List.append_cancel_left same)).2⟩

section
variable [SerdeJson] {script : Script} {build : Build} {run : GoalRun (MeshInference Pipe)}
  {ahead : List String} {c b : ℕ} {deltas : List String}

theorem start (build : Build) :
    Tracks script build (GoalRun.start ⟨1⟩ build.objective 8 (MeshInference.new ⟨[], []⟩)) [] 0 0
      [] where
  node := .follows ⟨rfl, rfl⟩
  applied := rfl
  acted k lt := absurd lt (Nat.not_lt_zero k)
  flying flies := by simp [GoalRun.start, MeshInference.new] at flies
  sent := rfl
  reads := ⟨Nat.le_refl _, Nat.le_refl _⟩
  stale _ := ⟨rfl, rfl⟩
  current next := by omega
  reply flies := by simp [GoalRun.start, MeshInference.new] at flies

/-- A text arrives. -/
theorem arrive {text : String} (h : Tracks script build run (text :: ahead) c b deltas) :
    Tracks script build
      { run with
        inf :=
          { run.inf with mesh := { run.inf.mesh with inbox := run.inf.mesh.inbox ++ [text] } } }
      ahead c b deltas where
  node := h.node.congr rfl rfl
  applied := h.applied
  acted := h.acted
  flying := h.flying
  sent := h.sent
  reads := h.reads
  stale same := by simpa using h.stale same
  current next := by simpa using h.current next
  reply := h.reply

/-- The gateway reads a prompt: it is the one in flight, and its answer comes
behind what has no meaning. -/
theorem read (h : Tracks script build run ahead c b deltas)
    (unread : b < run.inf.mesh.sent.length) :
    b = c ∧ run.inf.mesh.sent[b]? = some (script.prompt build b) ∧
      Tracks script build run (ahead ++ script.answer b) c (b + 1) deltas := by
  have sent := h.sent
  have count : run.inf.mesh.sent.length = c + run.inf.inFlight.toNat := by simp [sent]
  obtain ⟨low, _⟩ := h.reads
  cases flies : run.inf.inFlight with
  | false =>
    rw [flies, Bool.toNat_false] at count
    omega
  | true =>
    rw [flies, Bool.toNat_true] at count sent
    obtain rfl : b = c := by omega
    obtain ⟨quiet, none⟩ := h.stale rfl
    refine ⟨rfl, by simp [sent], { h with
      reads := ⟨Nat.le_succ b, by simp [flies]⟩
      stale := fun same => absurd same (Nat.succ_ne_self b)
      current := fun _ => ?_ }⟩
    rw [signals_append] at quiet
    obtain ⟨inbox, later⟩ := List.append_eq_nil_iff.mp quiet
    simp [none, inbox, later, script.means]

/-- The watchdog fails the goal. -/
theorem stall (h : Tracks script build run ahead c b deltas) (act : run.driver.acting = true) :
    Tracks script build (run.advance .stalled) ahead c b deltas where
  node := h.node.stall act
  applied := h.applied
  acted := h.acted
  flying := h.flying
  sent := h.sent
  reads := h.reads
  stale := h.stale
  current := h.current
  reply := h.reply

/-- The step's prompt goes out: everything sent before has been read, and
nothing under way means anything. -/
theorem prompts (h : Tracks script build run ahead c b deltas) (act : run.driver.acting = true)
    (grounded : run.inf.inFlight = false) :
    Tracks script build
      { run with
        inf := ⟨Link.send run.inf.mesh (MeshInference.promptText run.driver.context), "", true⟩
        consulted := run.consulted ++ [(run.driver.context, .pending)] } ahead c b deltas := by
  obtain ⟨driver, _⟩ := h.node.acting act
  have reads := h.reads
  rw [grounded, Bool.toNat_false] at reads
  obtain rfl : b = c := by omega
  obtain ⟨quiet, none⟩ := h.stale rfl
  refine
    { h with
      node := h.node.congr rfl rfl
      applied := (GoalRun.applied_of_consulted (g := run) run.driver.context rfl).trans
        (by simpa using h.applied)
      flying := fun _ => driver ▸ act
      sent := ?_
      reads := ⟨Nat.le_refl b, Nat.le_succ b⟩
      stale := fun _ => ⟨quiet, none⟩
      current := fun next => by omega
      reply := fun _ => by rw [none, hear_nil] }
  show run.inf.mesh.sent ++ [MeshInference.promptText run.driver.context] = _
  rw [h.sent, grounded, driver]
  simp [List.range_succ, Script.prompt]

/-- The node takes what means no more than deltas. -/
theorem waits (h : Tracks script build run ahead c b deltas) (flying : run.inf.inFlight = true)
    {mesh : Pipe} {taken heard : List String}
    (stream : Link.unread run.inf.mesh = taken ++ Link.unread mesh)
    (sent : Link.sent mesh = Link.sent run.inf.mesh) (means : signals taken = heard.map .delta) :
    Tracks script build
      { run with
        inf := ⟨mesh, hear run.inf.reply heard, true⟩
        consulted := run.consulted ++ [(run.driver.context, .pending)] }
      ahead c b (deltas ++ heard) := by
  have inbox : run.inf.mesh.inbox = taken ++ mesh.inbox := stream
  refine
    { h with
      node := h.node.congr rfl rfl
      applied := (GoalRun.applied_of_consulted (g := run) run.driver.context rfl).trans
        (by simpa using h.applied)
      flying := fun _ => h.flying flying
      sent := ?_
      reads := by simpa [flying] using h.reads
      stale := fun same => ?_
      current := fun next => ?_
      reply := fun _ => by rw [h.reply flying, hear_append] }
  · show mesh.sent = _
    have := h.sent
    rw [flying] at this
    exact sent.trans this
  · obtain ⟨quiet, none⟩ := h.stale same
    rw [inbox, List.append_assoc, signals_append] at quiet
    obtain ⟨taken_none, later⟩ := List.append_eq_nil_iff.mp quiet
    rw [means, List.map_eq_nil_iff] at taken_none
    exact ⟨later, by rw [none, taken_none]; rfl⟩
  · have current := h.current next
    rw [inbox, List.append_assoc, signals_append, means] at current
    simpa using current

/-- The node takes the end of a turn: it is turn `c`, and nothing of it is left. -/
theorem answers (h : Tracks script build run ahead c b deltas) (act : run.driver.acting = true)
    (flying : run.inf.inFlight = true) {mesh : Pipe} {taken heard : List String}
    (stream : Link.unread run.inf.mesh = taken ++ Link.unread mesh)
    (sent : Link.sent mesh = Link.sent run.inf.mesh)
    (means : signals taken = heard.map .delta ++ [.complete]) :
    Tracks script build
      { driver :=
          (run.driver.advance (.completed (turnVerdict (hear run.inf.reply heard)))).1
        inf := ⟨mesh, hear run.inf.reply heard, false⟩
        emitted := run.emitted ++
          (run.driver.advance (.completed (turnVerdict (hear run.inf.reply heard)))).2
        consulted := run.consulted ++
          [(run.driver.context, .completed (turnVerdict (hear run.inf.reply heard)))] }
      ahead (c + 1) b [] := by
  have inbox : run.inf.mesh.inbox = taken ++ mesh.inbox := stream
  obtain ⟨driver, emitted⟩ := h.node.acting act
  have reads := h.reads
  rw [flying, Bool.toNat_true] at reads
  -- A prompt the gateway has not read is not answered.
  have answered : b = c + 1 := by
    by_contra other
    obtain ⟨quiet, _⟩ := h.stale (by omega)
    rw [inbox, List.append_assoc, signals_append, means] at quiet
    simp at quiet
  have current := h.current answered
  rw [inbox, List.append_assoc, signals_append, means] at current
  rw [← List.append_assoc, ← List.append_assoc, ← List.map_append, List.append_assoc] at current
  obtain ⟨ends, whole, quiet⟩ := whole_turn current
  have verdict : turnVerdict (hear run.inf.reply heard) = verdictOf script.turns c := by
    rw [h.reply flying, ← hear_append, whole]
    rfl
  rw [verdict]
  refine
    { node := .follows ⟨?_, ?_⟩
      applied := ?_
      acted := fun k lt => ?_
      flying := fun flies => by simp at flies
      sent := ?_
      reads := ⟨by omega, by simp; omega⟩
      stale := fun _ => ⟨quiet, rfl⟩
      current := fun next => by omega
      reply := fun flies => by simp at flies }
  · simp only [Script.trace_succ, Trace.call, driver]
  · simp only [Script.trace_succ, Trace.call, driver, emitted]
  · rw [GoalRun.applied_of_consulted (g := run) run.driver.context rfl, h.applied,
      List.range_succ, List.map_append]
    simp [GoalDriver.context, driver, (Script.trace_step c).1 (driver ▸ act)]
  · rcases Nat.lt_succ_iff_lt_or_eq.mp lt with earlier | rfl
    · exact h.acted k earlier
    · exact ⟨driver ▸ act, ends⟩
  · show mesh.sent = _
    have := h.sent
    rw [flying] at this
    exact sent.trans this

/-- A poll keeps the ends in step, and a turn it has counted stays counted. -/
theorem poll (h : Tracks script build run ahead c b deltas) :
    ∃ c' deltas', Tracks script build run.poll ahead c' b deltas' := by
  have step := polled run
  generalize run.poll = run' at step
  cases step with
  | idle idle => exact ⟨c, deltas, h⟩
  | prompts act grounded => exact ⟨c, deltas, h.prompts act grounded⟩
  | waits act flying mesh taken heard stream sent means =>
    exact ⟨c, deltas ++ heard, h.waits flying stream sent means⟩
  | answers act flying mesh taken heard verdict stream sent means reads =>
    subst reads
    exact ⟨c + 1, [], h.answers act flying stream sent means⟩

end

end Tracks

/-! ## Every move -/

section
variable {P : Type} [SerdeJson] [Gateway P] {script : Script} (keeps : Keeps P script)

/-- A session in which the gateway keeps to its script and the node is in step. -/
structure Synced (build : Build) (d : Dialogue P) (c : ℕ) (deltas : List String) : Prop where
  fine : keeps.Fine d.gateway
  heard : keeps.heard d.gateway = d.heard
  tracks : Tracks script build d.run (d.travelling ++ keeps.left d.gateway) c d.heard deltas

variable {keeps} {build : Build} {clock : Clock} {d : Dialogue P} {c : ℕ} {deltas : List String}

namespace Synced

theorem start (keeps : Keeps P script) (build : Build) (clock : Clock) :
    Synced keeps build (Dialogue.start build clock keeps.first) 0 [] where
  fine := keeps.fine_first
  heard := keeps.heard_first
  tracks := by
    show Tracks script build _ ([] ++ keeps.left keeps.first) 0 0 []
    rw [keeps.left_first]
    exact .start build

/-- What the gateway's move does. -/
inductive Moved (keeps : Keeps P script) (build : Build) (clock : Clock) (d : Dialogue P) : Prop where
  | sends (text : String) (rest : List String) (more : keeps.left d.gateway = text :: rest)
      (gateway : P) (fine : keeps.Fine gateway) (heard : keeps.heard gateway = d.heard)
      (left : keeps.left gateway = rest)
      (moves : d.turn build clock .gateway =
        { d with travelling := d.travelling ++ [text], gateway })
  | reads (none : keeps.left d.gateway = []) (unread : d.heard < d.run.inf.mesh.sent.length)
      (gateway : P) (fine : keeps.Fine gateway) (heard : keeps.heard gateway = d.heard + 1)
      (left : keeps.left gateway = script.answer d.heard)
      (moves : d.turn build clock .gateway = { d with heard := d.heard + 1, gateway })
  | idle (none : keeps.left d.gateway = []) (all : d.run.inf.mesh.sent.length ≤ d.heard)
      (moves : d.turn build clock .gateway = d)

theorem moved (clock : Clock) (h : Synced keeps build d c deltas) : Moved keeps build clock d := by
  cases left : keeps.left d.gateway with
  | cons text rest =>
    obtain ⟨gateway, sent, fine, heard, rest_eq⟩ := keeps.sends h.fine left
    exact .sends text rest left gateway fine (heard.trans h.heard) rest_eq
      (by simp [Dialogue.turn, sent])
  | nil =>
    have waits := keeps.waits h.fine left
    rcases Nat.lt_or_ge d.heard d.run.inf.mesh.sent.length with unread | all
    · obtain ⟨_, text, _⟩ := h.tracks.read unread
      obtain ⟨fine, heard, answer⟩ :=
        keeps.reads (stepDirective (script.trace build d.heard).driver.context) h.fine left
      refine .reads left unread _ fine (by rw [heard, h.heard]) (by rw [answer, h.heard]) ?_
      simp only [Dialogue.turn, waits, text]
      rfl
    · have none : d.run.inf.mesh.sent[d.heard]? = none := List.getElem?_eq_none all
      exact .idle left all (by simp [Dialogue.turn, waits, none])

/-- Every move keeps the ends in step. -/
theorem turn (clock : Clock) (h : Synced keeps build d c deltas) (party : Party) :
    ∃ c' deltas', Synced keeps build (d.turn build clock party) c' deltas' := by
  cases party with
  | node =>
    simp only [Dialogue.turn]
    split
    · obtain ⟨c', deltas', polled⟩ := h.tracks.poll
      refine ⟨c', deltas', h.fine, h.heard, ?_⟩
      rcases d.node.iterate_run build clock with same | ⟨act, stalls⟩
      · show Tracks script build (d.node.iterate build clock).run _ _ _ _
        rw [same]
        exact polled
      · show Tracks script build (d.node.iterate build clock).run _ _ _ _
        rw [stalls]
        exact polled.stall act
    · exact ⟨c, deltas, h⟩
  | wire =>
    simp only [Dialogue.turn]
    split
    · exact ⟨c, deltas, h⟩
    · rename_i text later travelling
      have tracks := h.tracks
      rw [travelling] at tracks
      exact ⟨c, deltas, h.fine, h.heard, tracks.arrive⟩
  | gateway =>
    refine ⟨c, deltas, ?_⟩
    cases h.moved clock with
    | sends text rest more gateway fine heard left moves =>
      rw [moves]
      refine ⟨fine, heard, ?_⟩
      have tracks := h.tracks
      rw [more] at tracks
      simpa [left, Dialogue.run] using tracks
    | reads none unread gateway fine heard left moves =>
      rw [moves]
      refine ⟨fine, heard, ?_⟩
      obtain ⟨_, _, tracks⟩ := h.tracks.read unread
      rw [none, List.append_nil] at tracks
      rw [left]
      exact tracks
    | idle none all moves =>
      rw [moves]
      exact h

end Synced

/-- The ends are in step before every move of every schedule. -/
theorem Dialogue.synced (keeps : Keeps P script) (build : Build) (clock : Clock)
    (schedule : ℕ → Party) (n : ℕ) :
    ∃ c deltas, Synced keeps build (before build clock keeps.first schedule n) c deltas :=
  Fair.always (I := fun d => ∃ c deltas, Synced keeps build d c deltas)
    (fun _ party h => by
      obtain ⟨c, deltas, synced⟩ := h
      exact synced.turn clock party)
    ⟨0, [], .start keeps build clock⟩ schedule n

end

end ApexosRv
