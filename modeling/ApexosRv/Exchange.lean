import ApexosRv.Tracks
import Mathlib.Data.Nat.Find

/-!
# A session makes progress

The parties of a session that is in step cannot keep it from ending: `rank` is
what is left to send, to carry and to take, and `helper` the party whose move
lowers it (`session_progress`). `Synced.ended` is what a session that was not
ended by the watchdog leaves behind.
-/

namespace ApexosRv

section
variable {P : Type} [SerdeJson] [Gateway P] {script : Script}

/-! ## Progress -/

/-- What the turns from the `k`-th on can still cost, `n` of them. -/
def Script.cost (script : Script) : ℕ → ℕ → ℕ
  | 0, _ => 0
  | n + 1, k => 4 * (script.answer k).length + 1 + script.cost n (k + 1)

/-- Each text counts more the further it is from being taken. -/
def Keeps.rank (keeps : Keeps P script) (d : Dialogue P) : ℕ :=
  script.cost (8 - d.heard) d.heard + 4 * (keeps.left d.gateway).length +
    3 * d.travelling.length + 2 * d.run.inf.mesh.inbox.length +
    (!d.run.inf.inFlight).toNat

/-- The party that can bring the session forward. -/
def Dialogue.helper (d : Dialogue P) : Party :=
  if !d.run.inf.inFlight || !d.run.inf.mesh.inbox.isEmpty then .node
  else if !d.travelling.isEmpty then .wire
  else .gateway

/-- The goal has left `Acting`. -/
def Dialogue.Ended (d : Dialogue P) : Prop := d.node.acting = false

end

section
variable [SerdeJson]

/-- A turn in flight takes a text that has arrived. -/
theorem listen_takes (self : MeshInference Pipe) {fuel : ℕ}
    (enough : self.mesh.inbox.length < fuel) (some : self.mesh.inbox ≠ []) :
    (MeshInference.listen fuel self).2.mesh.inbox.length < self.mesh.inbox.length := by
  have shrinks : ∀ (self : MeshInference Pipe) (fuel : ℕ), self.mesh.inbox.length < fuel →
      (MeshInference.listen fuel self).2.mesh.inbox.length ≤ self.mesh.inbox.length := by
    intro self fuel enough
    have heard := MeshInference.listen_spec self enough
    generalize MeshInference.listen fuel self = out at heard
    cases heard with
    | quiet mesh taken deltas stream sent heard =>
      have := congrArg List.length stream
      simp at this
      simp only
      omega
    | complete mesh taken deltas stream sent heard =>
      have := congrArg List.length stream
      simp at this
      simp only
      omega
  cases fuel with
  | zero => omega
  | succ fuel =>
    obtain ⟨text, later, inbox⟩ := List.exists_cons_of_ne_nil some
    have received : Link.receive self.mesh =
        (Option.some text, { self.mesh with inbox := later }) := by
      show self.mesh.tryNextText = _
      simp [Pipe.tryNextText, inbox]
    rw [inbox, List.length_cons] at enough ⊢
    have rest : ∀ self' : MeshInference Pipe, self'.mesh.inbox = later →
        (MeshInference.listen fuel self').2.mesh.inbox.length < later.length + 1 := by
      intro self' same
      have := shrinks self' fuel (by rw [same]; omega)
      rw [same] at this
      omega
    simp only [MeshInference.listen, received]
    split
    · exact rest _ rfl
    · exact Nat.lt_succ_self _
    · exact rest _ rfl
    · exact rest _ rfl

/-- What a poll does to the node's side of the rank: it lowers it, or the node
waits with an empty inbox. -/
theorem poll_lowers (run : GoalRun (MeshInference Pipe)) (act : run.driver.acting = true) :
    2 * run.poll.inf.mesh.inbox.length + (!run.poll.inf.inFlight).toNat <
        2 * run.inf.mesh.inbox.length + (!run.inf.inFlight).toNat ∨
      run.inf.inFlight = true ∧ run.inf.mesh.inbox = [] ∧
        run.poll.inf.inFlight = true ∧ run.poll.inf.mesh.inbox = [] := by
  rcases Decidable.em (run.inf.inFlight = true ∧ run.inf.mesh.inbox ≠ []) with ⟨flies, some⟩ | other
  · have takes := listen_takes run.inf (Nat.lt_add_one _) some
    left
    have inf : run.poll.inf = (Inference.next run.inf run.driver.context).2 := by
      rw [GoalRun.poll_acting act]
    rw [inf]
    simp only [Inference.next, MeshInference.next, flies, Bool.not_true, Bool.false_eq_true,
      ↓reduceIte, Pipe.unread_eq] at takes ⊢
    have := Bool.toNat_le
      (!(MeshInference.listen (run.inf.mesh.inbox.length + 1) run.inf).2.inFlight)
    omega
  · have step := polled run
    generalize run.poll = run' at step
    cases step with
    | idle idle => exact absurd (act.symm.trans idle) (by decide)
    | prompts act grounded =>
      left
      show 2 * run.inf.mesh.inbox.length + 0 < _
      rw [grounded]
      exact Nat.lt_succ_self _
    | waits act flies mesh taken heard stream sent means =>
      right
      have none : run.inf.mesh.inbox = [] := by
        by_contra some
        exact other ⟨flies, some⟩
      rw [Pipe.unread_eq, none] at stream
      exact ⟨flies, none, rfl, (List.append_eq_nil_iff.mp stream.symm).2⟩
    | answers act flies mesh taken heard verdict stream sent means reads =>
      have none : run.inf.mesh.inbox = [] := by
        by_contra some
        exact other ⟨flies, some⟩
      rw [Pipe.unread_eq, none] at stream
      rw [(List.append_eq_nil_iff.mp stream.symm).1] at means
      simp at means

end

section
variable {P : Type} [SerdeJson] [Gateway P] {script : Script} {keeps : Keeps P script}
  {build : Build} {clock : Clock} {d : Dialogue P} {c : ℕ} {deltas : List String}

namespace Synced

/-- No more prompts than the budget has steps. -/
theorem sent_length (h : Synced keeps build d c deltas) :
    d.run.inf.mesh.sent.length = c + d.run.inf.inFlight.toNat := by
  rw [h.tracks.sent, List.length_map, List.length_range]

theorem sent_le (h : Synced keeps build d c deltas) : d.run.inf.mesh.sent.length ≤ 8 := by
  rw [h.sent_length]
  cases flies : d.run.inf.inFlight with
  | true =>
    have := Script.lt_of_acting (h.tracks.flying flies)
    rw [Bool.toNat_true]
    omega
  | false =>
    rw [Bool.toNat_false]
    cases c with
    | zero => omega
    | succ c =>
      have := Script.lt_of_acting (h.tracks.acted c (Nat.lt_succ_self c)).1
      omega

/-- The node's move ends the goal, lowers the rank, or finds nothing. -/
theorem node_moves (keeps : Keeps P script) (clock : Clock) (act : d.node.acting = true) :
    (d.turn build clock .node).Ended ∨ keeps.rank (d.turn build clock .node) < keeps.rank d ∨
      d.run.inf.inFlight = true ∧ d.run.inf.mesh.inbox = [] ∧
        keeps.rank (d.turn build clock .node) = keeps.rank d ∧
        (d.turn build clock .node).helper = d.helper := by
  have moves : d.turn build clock .node = { d with node := d.node.iterate build clock } := by
    simp [Dialogue.turn, act]
  rw [moves]
  rcases d.node.iterate_run build clock with same | ⟨acts, stalls⟩
  · have run : (Dialogue.run { d with node := d.node.iterate build clock }) = d.run.poll := same
    right
    rcases poll_lowers d.run act with lower | ⟨flies, none, flies', none'⟩
    · left
      simp only [Keeps.rank, run]
      omega
    · right
      refine ⟨flies, none, ?_, ?_⟩
      · simp only [Keeps.rank, run, flies, none, flies', none']
      · simp only [Dialogue.helper, run, flies, none, flies', none']
  · left
    show (d.node.iterate build clock).run.driver.acting = false
    rw [stalls]
    simp [GoalRun.advance, GoalDriver.advance_stalled acts, GoalDriver.acting]

theorem wire_moves {text : String} {later : List String}
    (travelling : d.travelling = text :: later) :
    keeps.rank (d.turn build clock .wire) < keeps.rank d := by
  simp only [Dialogue.turn, travelling, Keeps.rank, Dialogue.run, Dialogue.arrive,
    List.length_append, List.length_cons, List.length_nil]
  omega

theorem gateway_moves (clock : Clock) (h : Synced keeps build d c deltas) :
    keeps.rank (d.turn build clock .gateway) < keeps.rank d ∨
      keeps.left d.gateway = [] ∧ d.run.inf.mesh.sent.length ≤ d.heard ∧
        d.turn build clock .gateway = d := by
  cases h.moved clock with
  | sends text rest more gateway fine heard left moves =>
    left
    rw [moves]
    simp only [Keeps.rank, more, left, Dialogue.run, List.length_append, List.length_cons,
      List.length_nil]
    omega
  | reads none unread gateway fine heard left moves =>
    left
    have within := h.sent_le
    obtain ⟨n, remaining⟩ : ∃ n, 8 - d.heard = n + 1 := ⟨7 - d.heard, by omega⟩
    have fewer : 8 - (d.heard + 1) = n := by omega
    rw [moves]
    simp only [Keeps.rank, none, left, Dialogue.run, remaining, fewer, Script.cost,
      List.length_nil]
    omega
  | idle none all moves => exact .inr ⟨none, all, moves⟩

/-- While a prompt is in flight and no text is under way, the gateway has one
to read or more to send. -/
theorem unanswered (h : Synced keeps build d c deltas) (ends : script.ends c = true)
    (flies : d.run.inf.inFlight = true) (inbox : d.run.inf.mesh.inbox = [])
    (travelling : d.travelling = []) (left : keeps.left d.gateway = []) :
    d.heard < d.run.inf.mesh.sent.length := by
  have reads := h.tracks.reads
  rw [flies, Bool.toNat_true] at reads
  rw [h.sent_length, flies, Bool.toNat_true]
  by_contra all
  have current := h.tracks.current (by omega)
  rw [inbox, travelling, left, ends] at current
  have here : Signal.complete ∈ deltas.map Signal.delta := by
    simp only [List.append_nil, signals_nil, ↓reduceIte] at current
    rw [current]
    simp
  simp at here

/-- The helper's move brings the session forward. -/
theorem helper_moves (h : Synced keeps build d c deltas) (ends : ∀ k < 8, script.ends k = true)
    (act : d.node.acting = true) :
    (d.turn build clock d.helper).Ended ∨
      keeps.rank (d.turn build clock d.helper) < keeps.rank d := by
  unfold Dialogue.helper
  split
  · rename_i node
    rcases node_moves keeps clock act with ended | lower | ⟨flies, none, _⟩
    · exact .inl ended
    · exact .inr lower
    · simp [flies, none] at node
  · rename_i waits
    simp only [Bool.or_eq_true, Bool.not_eq_true', List.isEmpty_eq_false_iff, not_or, not_not,
      Bool.not_eq_false] at waits
    split
    · rename_i wire
      obtain ⟨text, later, travelling⟩ :=
        List.exists_cons_of_ne_nil (by simpa using wire : d.travelling ≠ [])
      exact .inr (wire_moves travelling)
    · rename_i quiet
      rcases h.gateway_moves clock with lower | ⟨left, all, _⟩
      · exact .inr lower
      · have answered := h.unanswered (ends c (Script.lt_of_acting (h.tracks.flying waits.1)))
          waits.1 waits.2 (by simpa using quiet) left
        omega

end Synced

theorem session_progress (keeps : Keeps P script) (build : Build) (clock : Clock)
    (ends : ∀ k < 8, script.ends k = true) :
    Fair.Progress keeps.rank Dialogue.helper (Dialogue.turn build clock)
      (fun d => ∃ c deltas, Synced keeps build d c deltas) Dialogue.Ended where
  keeps d party h := by
    obtain ⟨c, deltas, synced⟩ := h
    exact synced.turn clock party
  waits d party h running := by
    obtain ⟨c, deltas, synced⟩ := h
    cases party with
    | node =>
      have act : d.node.acting = true := by simpa [Dialogue.Ended] using running
      rcases Synced.node_moves keeps clock act with ended | lower | ⟨_, _, rank, helper⟩
      · exact .inl ended
      · exact .inr (.inl lower)
      · exact .inr (.inr ⟨rank, helper⟩)
    | wire =>
      cases travelling : d.travelling with
      | nil =>
        have still : d.turn build clock .wire = d := by simp [Dialogue.turn, travelling]
        rw [still]
        exact .inr (.inr ⟨rfl, rfl⟩)
      | cons text later => exact .inr (.inl (Synced.wire_moves travelling))
    | gateway =>
      rcases synced.gateway_moves clock with lower | ⟨_, _, still⟩
      · exact .inr (.inl lower)
      · rw [still]
        exact .inr (.inr ⟨rfl, rfl⟩)
  helps d h running := by
    obtain ⟨c, deltas, synced⟩ := h
    exact synced.helper_moves ends (by simpa [Dialogue.Ended] using running)

/-! ## How a session ends -/

/-- The turn after which the plain driver first leaves `Acting`. -/
theorem Script.last_turn (script : Script) (build : Build) :
    ∃ c ≤ 8, (script.trace build c).driver.acting = false ∧
      ∀ k < c, (script.trace build k).driver.acting = true := by
  have ends : ∃ c, (script.trace build c).driver.acting = false := by
    refine ⟨8, ?_⟩
    cases act : (script.trace build 8).driver.acting with
    | false => rfl
    | true => exact absurd (Script.lt_of_acting act) (Nat.lt_irrefl 8)
  refine ⟨Nat.find ends, ?_, Nat.find_spec ends, fun k lt => ?_⟩
  · by_contra late
    have act : (script.trace build 8).driver.acting = true := by
      simpa using Nat.find_min ends (Nat.lt_of_not_le late)
    exact absurd (Script.lt_of_acting act) (Nat.lt_irrefl 8)
  · simpa using Nat.find_min ends lt

/-- The lines a goal on the mesh leaves behind when `t` is how it went. -/
def Trace.lines (t : Trace) : List String :=
  t.emitted.map SerdeJson.eventToString ++
    if t.driver.state = .done then
      ["loop: goal reached Done over the mesh", "APEXOS-RV: goal done — halting"]
    else []

theorem Synced.ended (h : Synced keeps build d c deltas) (ended : d.node.acting = false)
    (alive : d.run.driver.state ≠ .failed) (mesh : build.meshGoal = true) :
    (script.trace build c).driver.acting = false ∧
      d.run.inf.mesh.sent = (List.range c).map (script.prompt build) ∧
      (d.node.finish build).lines = (script.trace build c).lines ∧
      (d.node.finish build).done = decide ((script.trace build c).driver.state = .done) := by
  obtain ⟨driver, emitted⟩ := h.tracks.node.alive alive
  have acting : (script.trace build c).driver.acting = false := driver ▸ ended
  refine ⟨acting, ?_, ?_, ?_⟩
  · have grounded : d.run.inf.inFlight = false := by
      cases flies : d.run.inf.inFlight with
      | false => rfl
      | true => exact absurd ((h.tracks.flying flies).symm.trans acting) (by decide)
    simpa [grounded] using h.tracks.sent
  · have run : d.node.run.driver = (script.trace build c).driver := driver
    have told : d.node.run.emitted = (script.trace build c).emitted := emitted
    unfold Drive.finish Trace.lines
    split <;> simp_all [Drive.closing]
  · have run : d.node.run.driver = (script.trace build c).driver := driver
    unfold Drive.finish
    split <;> simp_all

end

end ApexosRv
