import ApexosRv.Drive
import ApexosRv.Schedule
import ApexosRv.Wire

/-!
# Events of another session

`session_id` is stored at the start and never compared with an event's session.
Two runs of `drive_goal`, one of them with events of other sessions inserted in
its stream, stay alike as long as the inserted ones are `tolerable`: none ends
a turn, and none changes the verdict of the text it gets into.
-/

namespace ApexosRv

section
variable [SerdeJson]

/-- An `agent_text` or a `turn_complete` of a session other than `sid`. -/
def Foreign (sid : UInt64) (answer : Option String) : Prop :=
  ∃ text session, answer = some text ∧ session ≠ (⟨sid⟩ : SessionId) ∧
    ((∃ delta, SerdeJson.eventFromStr text = some (.agentText session delta)) ∨
      SerdeJson.eventFromStr text = some (.turnComplete session))

end

/-- A stream of answers in which the inserted ones are marked. -/
abbrev Marked := List (Bool × Option String)

namespace Marked

/-- The answers with the inserted ones. -/
def whole (stream : Marked) : List (Option String) := stream.map Prod.snd

/-- The answers without them. -/
def own (stream : Marked) : List (Option String) := (stream.filter (!·.1)).map Prod.snd

@[simp] theorem whole_cons (inserted : Bool) (answer : Option String) (rest : Marked) :
    whole ((inserted, answer) :: rest) = answer :: whole rest := rfl

@[simp] theorem own_cons_true (answer : Option String) (rest : Marked) :
    own ((true, answer) :: rest) = own rest := rfl

@[simp] theorem own_cons_false (answer : Option String) (rest : Marked) :
    own ((false, answer) :: rest) = answer :: own rest := rfl

@[simp] theorem whole_length (stream : Marked) : (whole stream).length = stream.length :=
  List.length_map _

variable [SerdeJson]

/-- Whether the inserted events leave every turn its end and its verdict, where
`own` and `all` are the replies so far without and with inserted deltas. -/
def tolerable (own all : String) : Marked → Bool
  | [] => true
  | (inserted, answer) :: rest =>
    match answer.bind signal with
    | none => tolerable own all rest
    | some (.delta delta) =>
      tolerable (if inserted then own else own ++ delta) (all ++ delta) rest
    | some .complete =>
      !inserted && turnVerdict own == turnVerdict all && tolerable "" "" rest

/-- What a turn makes of a stream and of its own part, when it stops before
`rest`: the same result, and tolerable replies again. -/
structure ReadAlike (own all : String) (stream rest left : Marked) (result : TurnResult)
    (own' all' : String) : Prop where
  whole : readTurn all (whole (stream ++ rest)) = (result, all', Marked.whole (left ++ rest))
  own : readTurn own (Marked.own (stream ++ rest)) = (result, own', Marked.own (left ++ rest))
  pending : result = .pending → tolerable own' all' left = true
  answered : result ≠ .pending → tolerable "" "" left = true

theorem readTurn_alike (own all : String) {stream : Marked} (rest : Marked)
    (texts : ∀ q ∈ stream, q.1 = true → q.2.isSome = true)
    (tolerates : tolerable own all stream = true) :
    (∃ left result own' all', (∀ q ∈ left, q ∈ stream) ∧
        ReadAlike own all stream rest left result own' all') ∨
      (readTurn all (whole (stream ++ rest))).2.2.length < rest.length := by
  induction stream generalizing own all with
  | nil =>
    by_cases more : rest = []
    · subst more
      exact .inl ⟨[], .pending, own, all, fun _ h => h, rfl, rfl, fun _ => rfl, fun _ => rfl⟩
    · right
      have short : (readTurn all (whole rest)).2.2.length < (whole rest).length :=
        readTurn_left all (by simpa [whole] using more)
      rwa [whole_length] at short
  | cons q later ih =>
    obtain ⟨inserted, answer⟩ := q
    have texts' : ∀ q ∈ later, q.1 = true → q.2.isSome = true :=
      fun q hq => texts q (List.mem_cons_of_mem _ hq)
    have member : ∀ {left : Marked}, (∀ q ∈ left, q ∈ later) →
        ∀ q ∈ left, q ∈ (inserted, answer) :: later :=
      fun sub q hq => List.mem_cons_of_mem _ (sub q hq)
    cases answer with
    | none =>
      cases inserted with
      | true => exact absurd (texts (true, none) List.mem_cons_self rfl) (by simp)
      | false =>
        exact .inl ⟨later, .pending, own, all, member (fun _ h => h), rfl, rfl,
          fun _ => tolerates, fun h => absurd rfl h⟩
    | some text =>
      simp only [List.cons_append, whole_cons]
      cases means : signal text with
      | none =>
        simp only [tolerable, Option.bind_some, means] at tolerates
        rcases ih own all texts' tolerates with
          ⟨left, result, own', all', sub, h⟩ | short
        · refine .inl ⟨left, result, own', all', member sub, ?_, ?_, h.pending, h.answered⟩
          · simpa only [List.cons_append, whole_cons, readTurn, means] using h.whole
          · cases inserted
            · simpa only [List.cons_append, own_cons_false, readTurn, means] using h.own
            · exact h.own
        · exact .inr (by simpa only [readTurn, means] using short)
      | some s =>
        cases s with
        | delta d =>
          simp only [tolerable, Option.bind_some, means] at tolerates
          rcases ih _ _ texts' tolerates with
            ⟨left, result, own', all', sub, h⟩ | short
          · refine .inl ⟨left, result, own', all', member sub, ?_, ?_, h.pending, h.answered⟩
            · simpa only [List.cons_append, whole_cons, readTurn, means] using h.whole
            · cases inserted
              · simpa only [List.cons_append, own_cons_false, readTurn, means, Bool.false_eq_true,
                  ↓reduceIte] using h.own
              · exact h.own
          · exact .inr (by simpa only [readTurn, means] using short)
        | complete =>
          simp only [tolerable, Option.bind_some, means, Bool.and_eq_true, Bool.not_eq_true',
            beq_iff_eq] at tolerates
          obtain ⟨⟨rfl, same⟩, tolerates⟩ := tolerates
          refine .inl ⟨later, .completed (turnVerdict all), own, all, member (fun _ h => h),
            ?_, ?_, fun h => by simp at h, fun _ => tolerates⟩
          · simp only [List.cons_append, whole_cons, readTurn, means]
          · simp only [List.cons_append, own_cons_false, readTurn, means, same]

end Marked

/-! ## Two runs, one with insertions -/

section
variable [SerdeJson]

open Marked

/-- The goal `g` with inserted events in its stream and `g'` without them,
where `left` is still to be read before `rest`. -/
structure Unmoved (rest left : Marked) (g g' : GoalRun (MeshInference Mesh)) : Prop where
  driver : g.driver = g'.driver
  emitted : g.emitted = g'.emitted
  consulted : g.consulted = g'.consulted
  inFlight : g.inf.inFlight = g'.inf.inFlight
  mesh : ∃ sid sent, g.inf.mesh = ⟨sid, whole (left ++ rest), sent⟩ ∧
    g'.inf.mesh = ⟨sid, own (left ++ rest), sent⟩
  texts : ∀ q ∈ left, q.1 = true → q.2.isSome = true
  flying : g.inf.inFlight = true → tolerable g'.inf.reply g.inf.reply left = true
  grounded : g.inf.inFlight = false → tolerable "" "" left = true

namespace Unmoved

variable {rest left : Marked} {g g' : GoalRun (MeshInference Mesh)}

theorem poll (h : Unmoved rest left g g') :
    (∃ left', Unmoved rest left' g.poll g'.poll) ∨
      g.poll.inf.mesh.inbound.length < rest.length := by
  cases act : g'.driver.acting
  · rw [GoalRun.poll_idle act, GoalRun.poll_idle (h.driver ▸ act)]
    exact .inl ⟨left, h⟩
  · have act' : g.driver.acting = true := h.driver ▸ act
    obtain ⟨sid, sent, mesh, mesh'⟩ := h.mesh
    cases flying : g'.inf.inFlight
    · have grounded := h.inFlight.trans flying
      rw [GoalRun.poll_prompts act flying, GoalRun.poll_prompts act' grounded]
      exact .inl ⟨left, {
        driver := h.driver
        emitted := h.emitted
        consulted := by simp only [GoalRun.prompted, h.consulted, h.driver]
        inFlight := rfl
        mesh := ⟨sid, sent ++ [MeshInference.promptText g.driver.context], by
          simp only [GoalRun.prompted, mesh, Mesh.sendText], by
          simp only [GoalRun.prompted, mesh', Mesh.sendText, h.driver]⟩
        texts := h.texts
        flying := fun _ => h.grounded grounded
        grounded := fun ground => by simp [GoalRun.prompted] at ground }⟩
    · have flying' := h.inFlight.trans flying
      rw [GoalRun.poll_hears act flying, GoalRun.poll_hears act' flying', mesh, mesh']
      rcases readTurn_alike g'.inf.reply g.inf.reply rest h.texts (h.flying flying') with
        ⟨left', result, own', all', sub, alike⟩ | short
      · rw [alike.whole, alike.own]
        refine .inl ⟨left', {
          driver := by simp only [GoalRun.hears, h.driver]
          emitted := by simp only [GoalRun.hears, h.driver, h.emitted]
          consulted := by simp only [GoalRun.hears, h.driver, h.consulted]
          inFlight := rfl
          mesh := ⟨sid, sent, by simp only [GoalRun.hears, mesh], by
            simp only [GoalRun.hears, mesh']⟩
          texts := fun q hq => h.texts q (sub q hq)
          flying := fun pending => alike.pending (by simpa [GoalRun.hears] using pending)
          grounded := fun answered => alike.answered (by simpa [GoalRun.hears] using answered) }⟩
      · exact .inr short

theorem stalled (h : Unmoved rest left g g') :
    Unmoved rest left (g.advance .stalled) (g'.advance .stalled) :=
  { h with
    driver := by simp only [GoalRun.advance, h.driver]
    emitted := by simp only [GoalRun.advance, h.driver, h.emitted] }

end Unmoved

/-- The two loops at the same place. -/
structure SideBySide (rest left : Marked) (d d' : Drive (MeshInference Mesh)) : Prop where
  run : Unmoved rest left d.run d'.run
  polls : d.polls = d'.polls
  since : d.stepStarted = d'.stepStarted
  last : d.lastStep = d.run.driver.step
  last' : d'.lastStep = d'.run.driver.step

theorem SideBySide.iterate {build : Build} {clock : Clock} {rest left : Marked}
    {d d' : Drive (MeshInference Mesh)} (h : SideBySide rest left d d') :
    (∃ left', SideBySide rest left' (d.iterate build clock) (d'.iterate build clock)) ∨
      (d.iterate build clock).run.inf.mesh.inbound.length < rest.length := by
  rw [Drive.iterate_eq h.last, Drive.iterate_eq h.last']
  rcases h.run.poll with ⟨left', polled⟩ | short
  · left
    have timer : d.timer clock = d'.timer clock := by
      rw [Drive.timer, Drive.timer, polled.driver, h.run.driver, h.polls, h.since]
    have stalls : d.stalls build clock = d'.stalls build clock := by
      rw [Drive.stalls, Drive.stalls, polled.driver, h.polls, timer]
    rw [stalls]
    refine ⟨left', ?_, by simp only [h.polls], timer, ?_, ?_⟩
    · cases d'.stalls build clock
      · exact polled
      · exact polled.stalled
    · simp only
      split
      · exact (GoalRun.advance_stalled_step _).symm
      · rfl
    · simp only
      split
      · exact (GoalRun.advance_stalled_step _).symm
      · rfl
  · right
    simp only
    split <;> exact short

/-- The loop on a fresh mesh that is about to answer `inbound`, before its
`n`-th iteration. -/
def driveOn (build : Build) (clock : Clock) (sid : UInt64) (inbound : List (Option String))
    (n : Nat) : Drive (MeshInference Mesh) :=
  Drive.before build clock (MeshInference.new ⟨sid, inbound, []⟩) n

theorem driveOn_succ {build : Build} {clock : Clock} {sid : UInt64}
    {inbound : List (Option String)} {n : Nat}
    (act : (driveOn build clock sid inbound n).acting = true) :
    driveOn build clock sid inbound (n + 1) =
      (driveOn build clock sid inbound n).iterate build clock := Drive.before_succ act

theorem driveOn_of_ended {build : Build} {clock : Clock} {sid : UInt64}
    {inbound : List (Option String)} {n : Nat}
    (ended : (driveOn build clock sid inbound n).acting = false) :
    driveOn build clock sid inbound (n + 1) = driveOn build clock sid inbound n :=
  Drive.before_of_ended ended

/-- Either the loops are side by side, or the one with insertions has read into
`rest`. -/
theorem sideBySide_before (build : Build) (clock : Clock) (sid : UInt64) {read rest : Marked}
    (texts : ∀ q ∈ read, q.1 = true → q.2.isSome = true)
    (tolerates : tolerable "" "" read = true) (n : Nat) :
    (∃ left, SideBySide rest left (driveOn build clock sid (whole (read ++ rest)) n)
        (driveOn build clock sid (own (read ++ rest)) n)) ∨
      (driveOn build clock sid (whole (read ++ rest)) n).run.inf.mesh.inbound.length <
        rest.length := by
  induction n with
  | zero =>
    exact .inl ⟨read, ⟨rfl, rfl, rfl, rfl, ⟨sid, [], rfl, rfl⟩, texts, fun flying => by
      simp [driveOn, Drive.before, WhileLoop.run, Drive.start, GoalRun.start,
        MeshInference.new] at flying, fun _ => tolerates⟩, rfl, rfl, rfl, rfl⟩
  | succ n ih =>
    rcases ih with ⟨left, h⟩ | short
    · cases act : (driveOn build clock sid (whole (read ++ rest)) n).acting
      · have act' : (driveOn build clock sid (own (read ++ rest)) n).acting = false := by
          rw [Drive.acting, ← h.run.driver]
          exact act
        rw [driveOn_of_ended act, driveOn_of_ended act']
        exact .inl ⟨left, h⟩
      · have act' : (driveOn build clock sid (own (read ++ rest)) n).acting = true := by
          rw [Drive.acting, ← h.run.driver]
          exact act
        rw [driveOn_succ act, driveOn_succ act']
        exact h.iterate
    · right
      refine Nat.lt_of_le_of_lt ?_ short
      cases act : (driveOn build clock sid (whole (read ++ rest)) n).acting
      · rw [driveOn_of_ended act]
      · have last : (driveOn build clock sid (whole (read ++ rest)) n).lastStep =
            (driveOn build clock sid (whole (read ++ rest)) n).run.driver.step :=
          (Drive.before_counts _ _ _ _).1
        rw [driveOn_succ act, Drive.iterate_eq last]
        simp only
        split <;> exact GoalRun.poll_inbound_le _

/-- **Tolerable insertions go unnoticed.** Insert events of other sessions
anywhere in the inbound stream of `drive_goal`. As long as those among the
`read` part leave every turn its end and the verdict of its text, the prompts
sent, the consultations with their verdicts, the events and the driver are
those of the run without the insertions. -/
theorem insertions_unnoticed (build : Build) (clock : Clock) (sid : UInt64) (read rest : Marked)
    (foreign : ∀ q ∈ read ++ rest, q.1 = true → Foreign sid q.2) (n : Nat)
    (reads : (driveOn build clock sid (whole (read ++ rest)) n).run.inf.mesh.inbound = whole rest)
    (tolerates : tolerable "" "" read = true) :
    let with_foreign := (driveOn build clock sid (whole (read ++ rest)) n).run
    let without := (driveOn build clock sid (own (read ++ rest)) n).run
    with_foreign.inf.mesh.sent = without.inf.mesh.sent ∧
      with_foreign.consulted = without.consulted ∧ with_foreign.applied = without.applied ∧
      with_foreign.emitted = without.emitted ∧ with_foreign.driver = without.driver := by
  intro with_foreign without
  have texts : ∀ q ∈ read, q.1 = true → q.2.isSome = true := by
    intro q hq inserted
    obtain ⟨text, session, answer, -⟩ := foreign q (List.mem_append_left _ hq) inserted
    simp [answer]
  rcases sideBySide_before build clock sid texts tolerates n with ⟨left, h⟩ | short
  · obtain ⟨sid', sent, mesh, mesh'⟩ := h.run.mesh
    refine ⟨?_, h.run.consulted, ?_, h.run.emitted, h.run.driver⟩
    · exact (congrArg Mesh.sent mesh).trans (congrArg Mesh.sent mesh').symm
    · rw [GoalRun.applied, GoalRun.applied, h.run.consulted]
  · rw [reads, whole_length] at short
    exact absurd short (Nat.lt_irrefl _)

end

/-! ## A second session on the wire -/

section

open Marked

local instance twoSessionsJson : SerdeJson :=
  Wire.json [.agentText ⟨42⟩ "GOAL_STEP: blocked no network", .turnComplete ⟨42⟩,
    .agentText ⟨7⟩ "hello\n", .agentText ⟨7⟩ "GOAL_STEP: done\n", .turnComplete ⟨7⟩]

def answerOf (event : Event) : Option String := some (Wire.eventText event)

/-- Session 42 blocks the goal in its first turn; `inserted` comes before. -/
def blockedTurn (inserted : List Event) : Marked :=
  inserted.map (fun event => (true, answerOf event)) ++
    [(false, answerOf (.agentText ⟨42⟩ "GOAL_STEP: blocked no network")),
      (false, answerOf (.turnComplete ⟨42⟩))]

/-- A clock that never moves. -/
def stillClock : Clock := ⟨0, fun _ => 0, fun _ => 0⟩

/-- Session 7 ends session 42's turn, or finishes its goal. -/
theorem foreign_events_move_the_goal :
    let drive := fun inbound => driveOn Build.default stillClock 42 inbound 2
    let ended := blockedTurn [.turnComplete ⟨7⟩]
    let finished := blockedTurn [.agentText ⟨7⟩ "GOAL_STEP: done\n", .turnComplete ⟨7⟩]
    (drive (own ended)).run.verdictAt 1 = some (.blocked "no network") ∧
      (drive (whole ended)).run.verdictAt 1 = some (.continue none) ∧
      (drive (own finished)).run.driver.state = .blocked ∧
      (drive (whole finished)).run.driver.state = .done := by
  decide +kernel

/-- A line of session 7 that says nothing is tolerable. -/
theorem foreign_hello_unnoticed :
    let stream := blockedTurn [.agentText ⟨7⟩ "hello\n"]
    (driveOn Build.default stillClock 42 (whole stream) 2).run.applied =
      (driveOn Build.default stillClock 42 (own stream) 2).run.applied := by
  have foreign : ∀ q ∈ blockedTurn [.agentText ⟨7⟩ "hello\n"] ++ [], q.1 = true →
      Foreign 42 q.2 := by
    intro q hq inserted
    simp only [blockedTurn, List.map_cons, List.map_nil, List.cons_append, List.nil_append,
      List.append_nil, List.mem_cons, List.not_mem_nil, or_false] at hq
    rcases hq with rfl | rfl | rfl
    · exact ⟨_, ⟨7⟩, rfl, by decide, .inl ⟨"hello\n", by decide +kernel⟩⟩
    · cases inserted
    · cases inserted
  exact (insertions_unnoticed Build.default stillClock 42 (blockedTurn [.agentText ⟨7⟩ "hello\n"])
    [] foreign 2 (by decide +kernel) (by decide +kernel)).2.2.1

end

end ApexosRv
