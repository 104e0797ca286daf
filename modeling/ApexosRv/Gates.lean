import ApexosRv.Mockd

/-!
# What a session does

For every gateway that keeps to a script, every clock and every order of moves:
prompts and turns alternate and nothing of an answered turn is left when the
next prompt goes out (`prompts_alternate`); as long as each party moves again
and again, the goal ends (`session_ends`); and unless it was the watchdog that
ended it, the narrated lines are always the same (`session_outcome`). From this
what the `llm` and `silent` modes of `scripts/run-mesh-qemu.sh` check on one run:
`llm_gate` and `silent_gate`.
-/

namespace ApexosRv

/-- The build of the mesh gates. -/
def gateBuild : Build := { Build.default with meshGoal := true }

/-- A clock that stands still. -/
def gateClock : Clock := ⟨0, fun _ => 0, fun _ => 0⟩

/-! ## Every session -/

section
variable {P : Type} [SerdeJson] [Gateway P] {script : Script}

end

section
attribute [local instance] Mockd.valueTexts Mockd.eventTexts

end

section
variable {P : Type} [SerdeJson] [Gateway P] {script : Script}

end

section
attribute [local instance] Mockd.valueTexts Mockd.eventTexts

end

section
variable {P : Type} [SerdeJson] [Gateway P] {script : Script}

end

section
attribute [local instance] Mockd.valueTexts Mockd.eventTexts

end

namespace Mockd

section
variable [SerdeJson] [SerdeValue] (speaks : Speaks) (build : Build)

/-- A scripted session between its first and its last turn. -/
theorem three_turns {d : Dialogue Mockd} {c : ℕ} {deltas : List String}
    (h : Synced (keeps speaks false) build d c deltas) :
    c ≤ 3 ∧ (c = 3 ∨ c < 3 ∧ ((script speaks false).trace build c).driver.acting = true) := by
  have ended : ((script speaks false).trace build 3).driver.acting = false := by
    rw [(trace_done speaks build).1]
    rfl
  have within : c ≤ 3 := by
    by_contra more
    have acted := (h.tracks.acted 3 (by omega)).1
    exact absurd (acted.symm.trans ended) (by decide)
  refine ⟨within, ?_⟩
  rcases Nat.lt_or_eq_of_le within with early | last
  · right
    refine ⟨early, ?_⟩
    rw [(trace_acting speaks build early).1]
    rfl
  · exact .inl last

theorem three_prompts {d : Dialogue Mockd} {c : ℕ} {deltas : List String}
    (h : Synced (keeps speaks false) build d c deltas) : d.run.inf.mesh.sent.length ≤ 3 := by
  obtain ⟨within, last | ⟨early, _⟩⟩ := three_turns speaks build h
  · rw [h.sent_length]
    cases flies : d.run.inf.inFlight with
    | false =>
      rw [Bool.toNat_false]
      omega
    | true =>
      have acting := h.tracks.flying flies
      rw [last, (trace_done speaks build).1] at acting
      cases acting
  · have atMost := Bool.toNat_le d.run.inf.inFlight
    rw [h.sent_length]
    omega

/-- The lines of a goal that the mock gateway brings to its end. -/
def gateLines (build : Build) : List String :=
  (actings build 3 ++ [Event.goalStateChanged ⟨1⟩ build.objective .done 3 8 "" false]).map
      SerdeJson.eventToString ++
    ["loop: goal reached Done over the mesh", "APEXOS-RV: goal done — halting"]

theorem trace_lines : ((script speaks false).trace build 3).lines = gateLines build := by
  obtain ⟨driver, emitted⟩ := trace_done speaks build
  unfold Trace.lines gateLines
  rw [driver, emitted]
  simp

end

/-- **The llm gate.** The gateway's assertions hold in every run, and it never
reads more than three prompts. A goal that ends other than by the watchdog is
done, with three prompts read and nothing left under way, and its lines are
always the same. If node, wire and gateway move again and again, it ends. -/
theorem llm_gate [SerdeJson] [SerdeValue] (speaks : Speaks) (build : Build)
    (mesh : build.meshGoal = true) (clock : Clock) (schedule : ℕ → Party) :
    (∀ n, let d := Dialogue.before build clock (start false) schedule n
      d.gateway.panicked = false ∧ d.gateway.turn ≤ d.run.inf.mesh.sent.length ∧
        d.run.inf.mesh.sent.length ≤ 3 ∧
        (d.node.acting = false → d.run.driver.state ≠ .failed →
          d.run.driver.state = .done ∧ d.gateway.turn = 3 ∧
            signals (d.run.inf.mesh.inbox ++ d.travelling ++ d.gateway.toSend) = [] ∧
            (d.node.finish build).lines = gateLines build ∧
            (d.node.finish build).done = true)) ∧
      (Fair.Schedule schedule →
        ∃ n, (Dialogue.before build clock (start false) schedule n).node.acting = false) := by
  refine ⟨fun n => ?_, fun fair => ?_⟩
  · intro d
    obtain ⟨c, deltas, h⟩ : ∃ c deltas, Synced (keeps speaks false) build d c deltas :=
      Dialogue.synced (keeps speaks false) build clock schedule n
    have reads := h.tracks.reads
    have turn : d.gateway.turn = d.heard := h.heard
    have prompts := three_prompts speaks build h
    have length := h.sent_length
    refine ⟨h.fine.2, by omega, prompts, ?_⟩
    intro ended alive
    obtain ⟨idle, sent, lines, done⟩ := h.ended ended alive mesh
    obtain ⟨_, rfl | ⟨_, acting⟩⟩ := three_turns speaks build h
    · obtain ⟨driver, _⟩ := h.tracks.node.alive alive
      have count : d.run.inf.mesh.sent.length = 3 := by simp [sent]
      have all : d.heard = 3 := by omega
      have quiet := (h.tracks.stale all).1
      rw [(trace_done speaks build).1] at driver done
      rw [trace_lines] at lines
      refine ⟨by rw [driver], turn.trans all, ?_, lines, by simpa using done⟩
      rw [List.append_assoc]
      exact quiet
    · exact absurd (acting.symm.trans idle) (by decide)
  · exact (session_progress (keeps speaks false) build clock (fun _ _ => rfl)).eventually fair
      ⟨0, [], .start (keeps speaks false) build clock⟩

section
attribute [local instance] valueTexts eventTexts

/-- The gate on JSON texts, the three moving in turn under a clock that stands still. -/
theorem llm_gate_in_turn :
    ∃ n, (Dialogue.before gateBuild gateClock (start false) inTurn n).node.acting = false :=
  (llm_gate texts_speak gateBuild rfl gateClock inTurn).2 inTurn_fair

end

/-! ## The silent gateway -/

/-- Iteration `i` reads the clock too long after the start. -/
def Late (build : Build) (clock : Clock) (i : ℕ) : Prop :=
  clock.watchdog i - clock.start > build.stepTimeout

instance (build : Build) (clock : Clock) (i : ℕ) : Decidable (Late build clock i) :=
  inferInstanceAs (Decidable (_ > _))

section
variable [SerdeJson] [SerdeValue] (speaks : Speaks) (build : Build) (clock : Clock)

/-- A goal whose first turn does not end: its timer is the first one, and it
has left `Acting` if and only if a reading was late. -/
structure Waiting (d : Dialogue Mockd) : Prop where
  synced : ∃ deltas, Synced (keeps speaks true) build d 0 deltas
  timer : d.node.acting = true →
    d.node.lastStep = d.node.run.driver.step ∧ d.node.stepStarted = clock.start
  ended : d.node.acting = false ↔ ∃ i < d.node.polls, Late build clock i

variable {speaks build clock}

/-- No turn of the silent gateway is ever counted. -/
theorem silent_turn {d : Dialogue Mockd} {c : ℕ} {deltas : List String}
    (h : Synced (keeps speaks true) build d c deltas) : c = 0 := by
  by_contra some
  have ends := (h.tracks.acted 0 (Nat.pos_of_ne_zero some)).2
  cases ends

/-- A poll leaves the driver alone. -/
theorem silent_poll {d : Dialogue Mockd} {deltas : List String}
    (h : Synced (keeps speaks true) build d 0 deltas) : d.run.poll.driver = d.run.driver := by
  have step := polled d.run
  generalize d.run.poll = run at step
  cases step with
  | idle idle => rfl
  | prompts act grounded => rfl
  | waits act flying mesh taken heard stream sent means => rfl
  | answers act flying mesh taken heard verdict stream sent means reads =>
    have counted := (h.tracks.answers act flying stream sent means).acted 0 Nat.zero_lt_one
    cases counted.2

/-- An iteration stalls the goal exactly if its reading is late. -/
theorem silent_iterate {d : Dialogue Mockd} (h : Waiting speaks build clock d)
    (act : d.node.acting = true) :
    (d.node.iterate build clock).polls = d.node.polls + 1 ∧
      (d.node.iterate build clock).lastStep = (d.node.iterate build clock).run.driver.step ∧
      (d.node.iterate build clock).stepStarted = clock.start ∧
      ((d.node.iterate build clock).acting = false ↔ Late build clock d.node.polls) := by
  obtain ⟨deltas, synced⟩ := h.synced
  obtain ⟨last, started⟩ := h.timer act
  have same : d.node.run.poll.driver = d.node.run.driver := silent_poll synced
  have polled : d.node.run.poll.driver.acting = true := same ▸ act
  have timer : d.node.timer clock = clock.start := by simp [Drive.timer, same, started]
  have stalls : d.node.stalls build clock = decide (Late build clock d.node.polls) := by
    simp [Drive.stalls, polled, timer, Late]
  rw [Drive.iterate_eq last, stalls, timer]
  refine ⟨rfl, ?_, rfl, ?_⟩
  · simp only
    split
    · exact (GoalRun.advance_stalled_step _).symm
    · rfl
  · by_cases late : Late build clock d.node.polls
    · simp [late, Drive.acting, GoalRun.advance, GoalDriver.advance_stalled polled,
        GoalDriver.acting]
    · simp [late, Drive.acting, polled]

theorem Waiting.turn {d : Dialogue Mockd} (h : Waiting speaks build clock d) (party : Party) :
    Waiting speaks build clock (d.turn build clock party) := by
  obtain ⟨deltas, synced⟩ := h.synced
  obtain ⟨c, deltas', next⟩ := synced.turn clock party
  obtain rfl := silent_turn next
  cases party with
  | node =>
    by_cases act : d.node.acting = true
    · obtain ⟨polls, last, started, ended⟩ := silent_iterate h act
      have moves : d.turn build clock .node = { d with node := d.node.iterate build clock } := by
        simp [Dialogue.turn, act]
      rw [moves] at next ⊢
      refine ⟨⟨deltas', next⟩, fun _ => ⟨last, started⟩, ended.trans ?_⟩
      show _ ↔ ∃ i < (d.node.iterate build clock).polls, Late build clock i
      rw [polls]
      have early : ¬ ∃ i < d.node.polls, Late build clock i :=
        fun some => absurd (act.symm.trans (h.ended.mpr some)) (by decide)
      constructor
      · exact fun late => ⟨_, Nat.lt_succ_self _, late⟩
      · rintro ⟨i, lt, late⟩
        rcases Nat.lt_succ_iff_lt_or_eq.mp lt with before | rfl
        · exact absurd ⟨i, before, late⟩ early
        · exact late
    · have still : d.turn build clock .node = d := by simp [Dialogue.turn, act]
      rw [still]
      exact h
  | wire =>
    refine ⟨⟨deltas', next⟩, ?_, ?_⟩
    · cases travelling : d.travelling <;> simpa [Dialogue.turn, travelling, Dialogue.arrive,
        Drive.acting] using h.timer
    · cases travelling : d.travelling <;> simpa [Dialogue.turn, travelling, Dialogue.arrive,
        Drive.acting] using h.ended
  | gateway =>
    have node : (d.turn build clock .gateway).node = d.node := by
      cases synced.moved clock with
      | sends text rest more gateway fine heard left moves => rw [moves]
      | reads none unread gateway fine heard left moves => rw [moves]
      | idle none all moves => rw [moves]
    refine ⟨⟨deltas', next⟩, ?_, ?_⟩
    · rw [node]
      exact h.timer
    · rw [node]
      exact h.ended

theorem waiting_start (speaks : Speaks) (build : Build) (clock : Clock) :
    Waiting speaks build clock (Dialogue.start build clock (start true)) where
  synced := ⟨[], .start (keeps speaks true) build clock⟩
  timer _ := ⟨rfl, rfl⟩
  ended := by
    constructor
    · intro ended
      cases ended
    · rintro ⟨i, lt, _⟩
      exact absurd lt (Nat.not_lt_zero i)

/-- The moves of wire and gateway leave the loop's variables alone. -/
theorem turn_polls {d : Dialogue Mockd} (h : Waiting speaks build clock d) {party : Party}
    (other : party ≠ .node) : (d.turn build clock party).node.polls = d.node.polls := by
  obtain ⟨deltas, synced⟩ := h.synced
  cases party with
  | node => exact absurd rfl other
  | wire => cases travelling : d.travelling <;> simp [Dialogue.turn, travelling, Dialogue.arrive]
  | gateway =>
    cases synced.moved clock with
    | sends text rest more gateway fine heard left moves => rw [moves]
    | reads none unread gateway fine heard left moves => rw [moves]
    | idle none all moves => rw [moves]

/-- The node's moves count up to the late reading. -/
theorem silent_progress {i : ℕ} (late : Late build clock i) :
    Fair.Progress (fun d => i + 1 - d.node.polls) (fun _ => Party.node)
      (Dialogue.turn build clock) (Waiting speaks build clock) Dialogue.Ended := by
  have counts : ∀ d : Dialogue Mockd, Waiting speaks build clock d → ¬ d.Ended →
      i + 1 - (d.turn build clock .node).node.polls < i + 1 - d.node.polls := by
    intro d h running
    have act : d.node.acting = true := by simpa [Dialogue.Ended] using running
    have early : d.node.polls ≤ i := by
      by_contra past
      exact running (h.ended.mpr ⟨i, by omega, late⟩)
    have moves : d.turn build clock .node = { d with node := d.node.iterate build clock } := by
      simp [Dialogue.turn, act]
    rw [moves]
    show i + 1 - (d.node.iterate build clock).polls < _
    rw [(silent_iterate h act).1]
    omega
  refine ⟨fun d party h => h.turn party, fun d party h running => ?_, fun d h running => ?_⟩
  · by_cases node : party = .node
    · subst node
      exact .inr (.inl (counts d h running))
    · exact .inr (.inr ⟨by rw [turn_polls h node], rfl⟩)
  · exact .inr (counts d h running)

/-- The lines of a goal whose first step is stalled. -/
def stalledLines (build : Build) : List String :=
  [Event.goalStateChanged ⟨1⟩ build.objective .acting 1 8 "" false,
    .goalStateChanged ⟨1⟩ build.objective .failed 1 8 "step stalled — no completion" false].map
    SerdeJson.eventToString

theorem Waiting.lines {d : Dialogue Mockd} (h : Waiting speaks build clock d)
    (ended : d.node.acting = false) :
    (d.node.finish build).lines = stalledLines build ∧ (d.node.finish build).done = false := by
  obtain ⟨deltas, synced⟩ := h.synced
  cases synced.tracks.node with
  | follows tells =>
    have acting : d.run.driver.acting = true := by
      rw [tells.1]
      rfl
    exact absurd (acting.symm.trans ended) (by decide)
  | stalled acted tells =>
    obtain ⟨driver, emitted⟩ := tells
    have state : d.node.run.driver.state = .failed := by
      show d.run.driver.state = _
      rw [driver]
      rfl
    have told : d.node.run.emitted = _ := emitted
    unfold Drive.finish
    rw [if_neg (by rw [state]; decide)]
    refine ⟨?_, rfl⟩
    show d.node.run.emitted.map SerdeJson.eventToString = _
    rw [told]
    rfl

end

/-- **The silent gate.** In every run at most one prompt is sent, its
assertions hold, no turn ends, and the goal leaves `Acting` exactly when an
iteration's reading is late: it has then failed at step 1, with the same lines
each time. If node, wire and gateway move again and again and some reading is
late, it ends. -/
theorem silent_gate [SerdeJson] [SerdeValue] (speaks : Speaks) (build : Build) (clock : Clock)
    (schedule : ℕ → Party) :
    (∀ n, let d := Dialogue.before build clock (start true) schedule n
      d.gateway.panicked = false ∧ d.run.inf.mesh.sent.length ≤ 1 ∧ d.run.applied = [] ∧
        (d.node.acting = false ↔
          ∃ i < d.node.polls, clock.watchdog i - clock.start > build.stepTimeout) ∧
        (d.node.acting = false → (d.node.finish build).lines = stalledLines build ∧
          (d.node.finish build).done = false)) ∧
      (Fair.Schedule schedule → (∃ i, clock.watchdog i - clock.start > build.stepTimeout) →
        ∃ n, (Dialogue.before build clock (start true) schedule n).node.acting = false) := by
  have waiting : ∀ n,
      Waiting speaks build clock (Dialogue.before build clock (start true) schedule n) :=
    Fair.always (fun _ party h => h.turn party) (waiting_start speaks build clock) schedule
  refine ⟨fun n => ?_, fun fair late => ?_⟩
  · intro d
    have h : Waiting speaks build clock d := waiting n
    obtain ⟨deltas, synced⟩ := h.synced
    refine ⟨synced.fine.2, ?_, synced.tracks.applied, h.ended, h.lines⟩
    rw [synced.sent_length, Nat.zero_add]
    exact Bool.toNat_le _
  · obtain ⟨i, late⟩ := late
    exact (silent_progress late).eventually fair (waiting_start speaks build clock)

section
attribute [local instance] valueTexts eventTexts

/-- The same with a clock that gains a second with each reading. -/
theorem silent_gate_in_turn :
    ∃ n, (Dialogue.before gateBuild ⟨0, fun _ => 0, fun i => .ofNat (i * 10000000)⟩
      (start true) inTurn n).node.acting = false :=
  (silent_gate texts_speak gateBuild ⟨0, fun _ => 0, fun i => .ofNat (i * 10000000)⟩ inTurn).2
    inTurn_fair ⟨3, by decide⟩

end

end Mockd

end ApexosRv
