import ApexosRv.Schedule
import ApexosRv.Wire

/-!
# What a step can hear of an earlier turn

A step's prompt empties the reply but not the link: what is unread then is
heard as the step's own answer. It goes unnoticed exactly when it is `Silent`
(`leftovers_unnoticed_iff`).
-/

namespace ApexosRv

open GoalRun

section
variable [SerdeJson]

/-- A goal started on a fresh mesh that is about to answer `inbound`. -/
def goalOn (goal : GoalId) (objective : String) (maxSteps : Nat) (sid : UInt64)
    (inbound : List (Option String)) : GoalRun (MeshInference Mesh) :=
  GoalRun.start goal objective maxSteps (MeshInference.new ⟨sid, inbound, []⟩)

def Signal.text : Signal → String
  | .delta text => text
  | .complete => ""

/-- The deltas among some texts, as one text. -/
def spoken (texts : List String) : String := String.join ((signals texts).map Signal.text)

/-- Texts no turn can notice: they complete none, and what they say is neither
a verdict nor the beginning of a line. -/
structure Silent (texts : List String) : Prop where
  open_turn : .complete ∉ signals texts
  neutral : Neutral (spoken texts)

/-! ## Turns that start with leftovers -/

theorem readTurn_open {texts : List String} (quiet : Signal.complete ∉ signals texts)
    (reply : String) (back : List (Option String)) :
    readTurn reply (texts.map some ++ back) = readTurn (reply ++ spoken texts) back := by
  induction texts generalizing reply with
  | nil => simp [spoken]
  | cons text rest ih =>
    rw [signals_cons] at quiet
    cases means : signal text with
    | none =>
      simp only [means, Option.toList_none, List.nil_append] at quiet
      simpa [readTurn, means, spoken, signals_cons] using ih quiet reply
    | some s =>
      cases s with
      | delta d =>
        simp only [means, Option.toList_some, List.cons_append, List.nil_append, List.mem_cons,
          reduceCtorEq, false_or] at quiet
        simpa [readTurn, means, spoken, signals_cons, Signal.text, String.append_assoc]
          using ih quiet (reply ++ d)
      | complete => simp [means] at quiet

theorem readTurn_complete {texts : List String} (ends : Signal.complete ∈ signals texts)
    (reply : String) (back : List (Option String)) :
    ∃ v, (readTurn reply (texts.map some ++ back)).1 = .completed v := by
  induction texts generalizing reply with
  | nil => simp at ends
  | cons text rest ih =>
    rw [signals_cons] at ends
    cases means : signal text with
    | none =>
      simp only [means, Option.toList_none, List.nil_append] at ends
      simpa [readTurn, means] using ih ends reply
    | some s =>
      cases s with
      | delta d =>
        simp only [means, Option.toList_some, List.cons_append, List.nil_append, List.mem_cons,
          reduceCtorEq, false_or] at ends
        simpa [readTurn, means] using ih ends (reply ++ d)
      | complete => exact ⟨turnVerdict reply, by simp [readTurn, means]⟩

theorem readTurn_neutral {text : String} (neutral : Neutral text) (reply : String)
    (inbound : List (Option String)) :
    readTurn (text ++ reply) inbound =
      ((readTurn reply inbound).1, text ++ (readTurn reply inbound).2.1,
        (readTurn reply inbound).2.2) := by
  induction inbound generalizing reply with
  | nil => rfl
  | cons answer later ih =>
    cases answer with
    | none => rfl
    | some t =>
      simp only [readTurn]
      split
      · rw [String.append_assoc]
        exact ih _
      · rw [turnVerdict_append neutral]
      · exact ih _

/-! ## Two goals that differ in a neutral text -/

/-- `g` heard something neutral that `g'` did not, and nothing else. -/
structure Shadowed (g g' : GoalRun (MeshInference Mesh)) : Prop where
  driver : g.driver = g'.driver
  emitted : g.emitted = g'.emitted
  consulted : g.consulted = g'.consulted
  mesh : g.inf.mesh = g'.inf.mesh
  inFlight : g.inf.inFlight = g'.inf.inFlight
  reply : ∃ text, Neutral text ∧ g.inf.reply = text ++ g'.inf.reply

theorem Shadowed.poll {g g' : GoalRun (MeshInference Mesh)} (h : Shadowed g g') :
    Shadowed g.poll g'.poll := by
  obtain ⟨text, neutral, reply⟩ := h.reply
  cases act : g'.driver.acting
  · rw [GoalRun.poll_idle act, GoalRun.poll_idle (h.driver ▸ act)]
    exact h
  · have act' : g.driver.acting = true := h.driver ▸ act
    cases flying : g'.inf.inFlight
    · rw [GoalRun.poll_prompts act flying, GoalRun.poll_prompts act' (h.inFlight.trans flying)]
      exact {
        driver := h.driver
        emitted := h.emitted
        consulted := by simp only [prompted, h.consulted, h.driver]
        mesh := by simp only [prompted, h.mesh, h.driver]
        inFlight := rfl
        reply := ⟨"", neutral_empty, rfl⟩ }
    · rw [GoalRun.poll_hears act flying, GoalRun.poll_hears act' (h.inFlight.trans flying), reply,
        readTurn_neutral neutral, h.mesh]
      exact {
        driver := by simp only [GoalRun.hears, h.driver]
        emitted := by simp only [GoalRun.hears, h.driver, h.emitted]
        consulted := by simp only [GoalRun.hears, h.driver, h.consulted]
        mesh := by simp only [GoalRun.hears, h.mesh]
        inFlight := rfl
        reply := ⟨text, neutral, rfl⟩ }

theorem Shadowed.polls {g g' : GoalRun (MeshInference Mesh)} (h : Shadowed g g') (n : Nat) :
    Shadowed (GoalRun.poll^[n] g) (GoalRun.poll^[n] g') := by
  induction n generalizing g g' with
  | zero => exact h
  | succ n ih => exact ih h.poll

/-! ## The step after its prompt -/

/-- The first turn read after a prompt decides the step's verdict. -/
theorem verdictAt_second_poll {g : GoalRun (MeshInference Mesh)} (act : g.driver.acting = true)
    (grounded : g.inf.inFlight = false) (earlier : ∀ q ∈ g.applied, q.1 < g.driver.step)
    (inbound : List (Option String)) :
    (GoalRun.poll^[2] (g.reading inbound)).verdictAt g.driver.step =
      (readTurn "" inbound).1.verdict? := by
  have twice : GoalRun.poll^[2] (g.reading inbound) =
      g.prompted.hears (readTurn "" inbound) := by
    rw [Function.iterate_succ_apply, reading_poll_prompts act grounded]
    exact reading_poll_hears (g := g.prompted) act rfl inbound
  have before : g.prompted.applied = g.applied :=
    (applied_of_consulted (g := g) g.driver.context rfl).trans (List.append_nil _)
  have after : (g.prompted.hears (readTurn "" inbound)).applied = g.prompted.applied ++
      ((readTurn "" inbound).1.verdict?.map fun v => (g.driver.step, v)).toList :=
    applied_of_consulted (g := g.prompted) g.driver.context rfl
  rw [twice, verdictAt, after, before, List.lookup_append, lookup_of_earlier earlier]
  cases (readTurn "" inbound).1.verdict? <;> simp

/-- Silent leftovers leave the goal as it would be, but for the reply. -/
theorem silent_unnoticed {g : GoalRun (MeshInference Mesh)} (act : g.driver.acting = true)
    (grounded : g.inf.inFlight = false) {late : List String} (silent : Silent late)
    (future : List (Option String)) (n : Nat) :
    (GoalRun.poll^[n] (g.reading (late.map some ++ future))).consulted =
      (GoalRun.poll^[n] (g.reading future)).consulted := by
  cases n with
  | zero => rfl
  | succ n =>
    rw [Function.iterate_succ_apply, Function.iterate_succ_apply,
      reading_poll_prompts act grounded, reading_poll_prompts act grounded]
    cases n with
    | zero => rfl
    | succ n =>
      have act' : g.prompted.driver.acting = true := act
      rw [Function.iterate_succ_apply, Function.iterate_succ_apply,
        reading_poll_hears act' rfl, reading_poll_hears act' rfl]
      have shadow := readTurn_neutral silent.neutral "" future
      rw [String.append_empty] at shadow
      have reads : readTurn g.prompted.inf.reply (late.map some ++ future) =
          readTurn (spoken late) future := by
        rw [readTurn_open silent.open_turn]
        exact congrArg (readTurn · future) String.empty_append
      rw [reads, shadow]
      refine (Shadowed.polls ?_ n).consulted
      exact ⟨rfl, rfl, rfl, rfl, rfl, spoken late, silent.neutral, rfl⟩

/-- Where the first polls read `past` and nothing behind it, they lead to the
same goal whatever comes behind it. -/
theorem reaches_prompt {goal : GoalId} {objective : String} {maxSteps : Nat} {sid : UInt64}
    {past : List (Option String)} {p : Nat}
    (unread : (GoalRun.poll^[p] (goalOn goal objective maxSteps sid
      (past ++ [none]))).inf.mesh.inbound = [none]) :
    ∃ g : GoalRun (MeshInference Mesh),
      (∀ back, GoalRun.poll^[p] (goalOn goal objective maxSteps sid (past ++ back)) =
        g.reading back) ∧
      (g.driver.acting = true → ∀ q ∈ g.applied, q.1 < g.driver.step) := by
  have reading : ∀ back, goalOn goal objective maxSteps sid (past ++ back) =
      (goalOn goal objective maxSteps sid []).reading (past ++ back) := fun _ => rfl
  rcases polls_frame p (goalOn goal objective maxSteps sid []) past with ⟨g, left, same⟩ | reads
  · rw [reading, same] at unread
    have nothing : left = [] := List.append_left_eq_self.mp unread
    subst nothing
    refine ⟨g, same, ?_⟩
    have all : ∀ n, (GoalRun.poll^[n] (goalOn goal objective maxSteps sid past)).driver.acting
          = true →
        ∀ q ∈ (GoalRun.poll^[n] (goalOn goal objective maxSteps sid past)).applied,
          q.1 < (GoalRun.poll^[n] (goalOn goal objective maxSteps sid past)).driver.step := by
      intro n
      induction n with
      | zero => intro _ q hq; simp [goalOn, GoalRun.start, applied] at hq
      | succ n ih =>
        simp only [Function.iterate_succ_apply'] at ih ⊢
        exact poll_applied_lt ih
    have h := all p
    have here : GoalRun.poll^[p] (goalOn goal objective maxSteps sid past) = g.reading [] := by
      have := same []
      rwa [← reading, List.append_nil] at this
    rw [here] at h
    exact h
  · have short := reads [none] (by simp)
    rw [← reading, unread] at short
    exact absurd short (Nat.lt_irrefl _)

/-- **Leftovers go unnoticed exactly when they are silent.** Let the first `p`
polls of a goal read `past` and nothing behind it, and let the next one send
the prompt of step `k`. The texts `late` that are there then, unread, change
the verdict of step `k` for no future of the stream if and only if they hold no
`turn_complete` and their deltas neither say a verdict nor leave a line begun. -/
theorem leftovers_unnoticed_iff (ends : ∃ text, signal text = some .complete)
    (blocks : ∃ text, signal text = some (.delta "GOAL_STEP: blocked x"))
    (goal : GoalId) (objective : String) (maxSteps : Nat) (sid : UInt64)
    (past : List (Option String)) (p : Nat) :
    let run := fun inbound n => GoalRun.poll^[n] (goalOn goal objective maxSteps sid inbound)
    let prompting := run (past ++ [none]) p
    prompting.inf.mesh.inbound = [none] → prompting.driver.acting = true →
    prompting.inf.inFlight = false → ∀ late : List String,
      (∀ future n,
        (run (past ++ late.map some ++ future) (p + n)).verdictAt prompting.driver.step =
          (run (past ++ future) (p + n)).verdictAt prompting.driver.step) ↔ Silent late := by
  intro run prompting unread act grounded late
  obtain ⟨g, reaches, earlier⟩ := reaches_prompt unread
  have reached : prompting = g.reading [none] := reaches [none]
  have later : ∀ back n, run (past ++ back) (p + n) = GoalRun.poll^[n] (g.reading back) := by
    intro back n
    rw [← reaches back, ← Function.iterate_add_apply, Nat.add_comm n p]
  rw [reached] at act grounded
  rw [reached]
  constructor
  · intro same
    have second : ∀ future, (readTurn "" (late.map some ++ future)).1.verdict? =
        (readTurn "" future).1.verdict? := by
      intro future
      have h := same future 2
      rw [List.append_assoc, later, later] at h
      rw [← verdictAt_second_poll act grounded (earlier act),
        ← verdictAt_second_poll act grounded (earlier act)]
      exact h
    have open_turn : Signal.complete ∉ signals late := by
      intro completes
      obtain ⟨v, answer⟩ := readTurn_complete completes "" []
      have := second []
      rw [answer] at this
      cases this
    refine ⟨open_turn, ?_⟩
    obtain ⟨done, ends⟩ := ends
    obtain ⟨block, blocks⟩ := blocks
    have quiet := second [some done]
    have probe := second [some block, some done]
    simp only [readTurn_open open_turn, String.empty_append] at quiet probe
    simp only [readTurn, ends, blocks, TurnResult.verdict?_completed, Option.some.injEq,
      String.empty_append] at quiet probe
    exact neutral_of_probe (quiet.trans (by decide)) (probe.trans (by decide))
  · intro silent future n
    rw [List.append_assoc, later, later]
    simp only [verdictAt, applied, silent_unnoticed (g := g) act grounded silent future n]

end

/-! ## A second `turn_complete` -/

section

local instance leftoverJson : SerdeJson :=
  Wire.json (.turnComplete ⟨42⟩ :: ["continue", "done", "blocked x"].map fun status =>
    .agentText ⟨42⟩ ("GOAL_STEP: " ++ status))

/-- The texts of a turn that ends in a verdict line. -/
def turnTexts (line : String) : List String :=
  [Wire.eventText (.agentText ⟨42⟩ line), Wire.eventText (.turnComplete ⟨42⟩)]

/-- What the node has read of turn 1 when it sends the prompt of step 2. -/
def firstTurn : List (Option String) := (turnTexts "GOAL_STEP: continue").map some

/-- What the gateway answers to that prompt. -/
def secondTurn : List (Option String) := (turnTexts "GOAL_STEP: done").map some

/-- Between the two, the gateway ended turn 1 once more. -/
def leftover : List String := [Wire.eventText (.turnComplete ⟨42⟩)]

/-- The same goal with and without a `turn_complete` left over when the prompt
of step 2 is sent: the leftover ends step 2 before its answer is read. -/
theorem leftover_ends_next_step :
    let run := fun inbound n => GoalRun.poll^[n] (goalOn ⟨1⟩ "objective" 8 42 inbound)
    let with_leftover := run (firstTurn ++ leftover.map some ++ secondTurn)
    let without := run (firstTurn ++ secondTurn)
    (with_leftover 2).inf.mesh.inbound = leftover.map some ++ secondTurn ∧
      (without 2).inf.mesh.inbound = secondTurn ∧
      (with_leftover 2).driver = (without 2).driver ∧
      (with_leftover 4).verdictAt 2 = some (.continue none) ∧
      (without 4).verdictAt 2 = some .done := by
  decide +kernel

/-- After turn 1 nothing but silent leftovers leaves step 2 alone; the second
`turn_complete` is not silent. -/
theorem leftover_noticed : ¬ Silent leftover ∧ ¬ ∀ future n,
    (GoalRun.poll^[2 + n] (goalOn ⟨1⟩ "objective" 8 42
      (firstTurn ++ leftover.map some ++ future))).verdictAt 2 =
      (GoalRun.poll^[2 + n] (goalOn ⟨1⟩ "objective" 8 42 (firstTurn ++ future))).verdictAt 2 := by
  have loud : ¬ Silent leftover := fun h => absurd h.open_turn (by decide +kernel)
  have exact_here := leftovers_unnoticed_iff
    ⟨Wire.eventText (.turnComplete ⟨42⟩), by decide +kernel⟩
    ⟨Wire.eventText (.agentText ⟨42⟩ "GOAL_STEP: blocked x"), by decide +kernel⟩
    ⟨1⟩ "objective" 8 42 firstTurn 2 (by decide +kernel) (by decide +kernel) (by decide +kernel)
    leftover
  have step : (GoalRun.poll^[2] (goalOn ⟨1⟩ "objective" 8 42
      (firstTurn ++ [none]))).driver.step = 2 := by decide +kernel
  refine ⟨loud, fun same => loud (exact_here.mp fun future n => ?_)⟩
  simp only [step]
  exact same future n

end

end ApexosRv
