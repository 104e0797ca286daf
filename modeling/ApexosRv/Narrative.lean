import ApexosRv.JsonText
import ApexosRv.Kernel
import ApexosRv.Replay

/-!
# What the log of a run says

The log that the host captures of a run of the kernel, however its lines are
cut: it is read back into the events that were emitted, its last event says what
the exit code says, and folding it gives the state that was folded on metal
(`kernel_log`).
-/

namespace ApexosRv

open RustStr

/-! ## Reading a capture -/

section
variable {E : Type} [EventJson E] {S : E → Prop}

/-- The codec of the events that are looked at. -/
@[reducible] noncomputable def EventJson.on (S : E → Prop) : EventJson { event // S event } where
  toString event := EventJson.toString event.val
  fromStr text := (EventJson.fromStr text).bind fun event =>
    open Classical in if here : S event then some ⟨event, here⟩ else none

theorem EventJson.LosslessOn.on (lossless : EventJson.LosslessOn S) :
    @EventJson.Lossless { event // S event } (EventJson.on S) := by
  let on := EventJson.on S
  exact
    { opens := fun event => lossless.opens event.2
      closes := fun event => lossless.closes event.2
      escaped := fun event => lossless.escaped event.2
      reads := fun event => by
        show (EventJson.fromStr (EventJson.toString event.val)).bind _ = _
        rw [lossless.reads event.2]
        simp [event.2] }

/-- Calls that print only such events are calls of that codec. -/
theorem calls_on (calls : List (Println E))
    (within : ∀ call ∈ calls, ∀ event, call.print.event? = some event → S event) :
    let _ := EventJson.on S
    ∃ calls' : List (Println { event // S event }),
      calls'.map Println.pieces = calls.map Println.pieces ∧
        (calls'.filterMap fun call => call.print.event?).map Subtype.val =
          calls.filterMap fun call => call.print.event? := by
  intro on
  induction calls with
  | nil => exact ⟨[], rfl, rfl⟩
  | cons call rest ih =>
    obtain ⟨calls', pieces, told⟩ := ih fun call' here => within call' (List.mem_cons_of_mem _ here)
    have here := within call List.mem_cons_self
    obtain ⟨print, cut, whole⟩ := call
    cases print with
    | emit event =>
      refine ⟨⟨.emit ⟨event, here event rfl⟩, cut, whole⟩ :: calls', by simp [pieces], ?_⟩
      exact congrArg (event :: ·) told
    | narrate line single other =>
      exact ⟨⟨.narrate line single other, cut, whole⟩ :: calls', by simp [pieces], told⟩

/-- What that codec reads is read. -/
theorem frames_on {capture : List UInt8} {events : List { event // S event }}
    (read : @frames _ (EventJson.on S) capture = some events) :
    frames capture = some (events.map Subtype.val) := by
  have reads : ∀ (kept : List (List Char)) (events : List { event // S event }),
      kept.mapM (fun l => (EventJson.on S).fromStr (String.ofList l)) = some events →
        kept.mapM (fun l => EventJson.fromStr (String.ofList l)) =
          some (events.map Subtype.val) := by
    intro kept
    induction kept with
    | nil =>
      intro events none
      cases none
      rfl
    | cons l rest ih =>
      intro events all
      rw [List.mapM_cons] at all ⊢
      obtain ⟨event, first, later⟩ := Option.bind_eq_some_iff.mp all
      obtain ⟨events', rest_read, same⟩ := Option.bind_eq_some_iff.mp later
      cases same
      obtain ⟨event', read', kept⟩ := Option.bind_eq_some_iff.mp first
      split at kept
      · cases kept
        simp [read', ih events' rest_read]
      · cases kept
  unfold frames at read ⊢
  cases decoded : fromUtf8 capture with
  | none => simp [decoded] at read
  | some log =>
    simp only [decoded, Option.bind_eq_bind, Option.bind_some] at read ⊢
    exact reads _ _ read

/-- Calls that print only events that are not lost are read back. -/
theorem read_on (lossless : EventJson.LosslessOn S) (calls : List (Println E))
    (within : ∀ call ∈ calls, ∀ event, call.print.event? = some event → S event) :
    frames (calls.foldl Uart.println []) =
      some (calls.filterMap fun call => call.print.event?) := by
  let on := EventJson.on S
  have clear := lossless.on
  obtain ⟨calls', pieces, told⟩ := calls_on calls within
  have same : calls.foldl Uart.println [] = calls'.foldl Uart.println [] := by
    have cut : ∀ {E : Type} [EventJson E] (calls : List (Println E)) (uart : Uart),
        calls.foldl Uart.println uart =
          (calls.map Println.pieces).foldl (fun uart pieces => pieces.foldl Uart.writeStr uart)
            uart := by
      intro E _ calls uart
      rw [List.foldl_map]
      rfl
    rw [cut, cut, pieces]
  have read := read_lines clear (calls'.map Println.print)
  rw [List.map_map, List.map_map, List.filterMap_map] at read
  rw [← told, same]
  refine frames_on ?_
  rw [printlns_eq clear, List.nil_append, frames, fromUtf8_bytes]
  simp only [Option.bind_eq_bind, Option.bind_some, String.toList_ofList,
    lines_captured clear, List.map_map]
  exact read

end

/-! ## The events of a goal -/

/-- The states the driver enters. -/
def GoalState.Entered (state : GoalState) : Prop :=
  state = .acting ∨ state = .blocked ∨ state = .done ∨ state = .failed

theorem GoalDriver.advance_enters {d : GoalDriver} (entered : d.state.Entered) (r : TurnResult) :
    (d.advance r).1.state.Entered := by
  unfold GoalDriver.advance
  split
  · exact entered
  · split
    · exact entered
    · exact .inr (.inr (.inr rfl))
    · exact .inr (.inr (.inl rfl))
    · exact .inr (.inl rfl)
    · split
      · exact .inr (.inr (.inl rfl))
      · exact entered

namespace GoalDriver

/-- A driver has told nothing but its states, the last of them where it is. -/
structure Narrated (d : GoalDriver) (told : List Event) : Prop where
  entered : d.state.Entered
  states : ∀ event ∈ told, event.goalState?.isSome = true
  last : told.getLast?.bind Event.goalState? = some d.state

theorem start_narrated (goal : GoalId) (objective : String) (maxSteps : Nat) :
    (start goal objective maxSteps).1.Narrated (start goal objective maxSteps).2 := by
  constructor
  · exact .inl rfl
  · intro event told
    rw [List.mem_singleton.mp told]
    rfl
  · rfl

/-- What `advance` tells is the state it has come to. -/
theorem Narrated.advance {d : GoalDriver} {told : List Event} (h : d.Narrated told)
    (r : TurnResult) : (d.advance r).1.Narrated (told ++ (d.advance r).2) := by
  rcases d.advance_emits r with still | ⟨detail, new⟩
  · rw [still, List.append_nil]
    exact h
  · rw [new]
    constructor
    · exact advance_enters h.entered r
    · intro event here
      rcases List.mem_append.mp here with before | last
      · exact h.states event before
      · rw [List.mem_singleton.mp last]
        rfl
    · rw [emitState, List.getLast?_concat]
      rfl

/-- A driver and all it has told, once it has been shown these results. -/
def after (begun : GoalDriver × List Event) (results : List TurnResult) :
    GoalDriver × List Event :=
  results.foldl (fun (d, told) r => ((d.advance r).1, told ++ (d.advance r).2)) begun

theorem after_concat (begun : GoalDriver × List Event) (results : List TurnResult)
    (r : TurnResult) :
    after begun (results ++ [r]) = (((after begun results).1.advance r).1,
      (after begun results).2 ++ ((after begun results).1.advance r).2) := by
  rw [after, List.foldl_concat]
  rfl

theorem after_narrated {begun : GoalDriver × List Event} (h : begun.1.Narrated begun.2)
    (results : List TurnResult) :
    (after begun results).1.Narrated (after begun results).2 := by
  induction results using List.reverseRecOn with
  | nil => exact h
  | append_singleton results r ih =>
    rw [after_concat]
    exact ih.advance r

end GoalDriver

/-- The driver of the kernel's goal, and all it has told, once shown these results. -/
def Build.goalAfter (build : Build) (results : List TurnResult) : GoalDriver × List Event :=
  GoalDriver.after (GoalDriver.start ⟨1⟩ build.objective 8) results

theorem Build.goalAfter_narrated (build : Build) (results : List TurnResult) :
    (build.goalAfter results).1.Narrated (build.goalAfter results).2 :=
  GoalDriver.after_narrated (GoalDriver.start_narrated _ _ _) results

/-- A run of the kernel's goal: its driver has been shown some results. -/
def GoalRun.OfDriver {I : Type} (build : Build) (g : GoalRun I) : Prop :=
  ∃ results, build.goalAfter results = (g.driver, g.emitted)

namespace GoalRun.OfDriver

variable {I : Type} {build : Build} {g : GoalRun I}

theorem narrated (h : g.OfDriver build) : g.driver.Narrated g.emitted := by
  obtain ⟨results, same⟩ := h
  have told := build.goalAfter_narrated results
  rwa [same] at told

theorem start (build : Build) (inf : I) :
    (GoalRun.start ⟨1⟩ build.objective 8 inf).OfDriver build :=
  ⟨[], rfl⟩

theorem next (h : g.OfDriver build) (r : TurnResult) {g' : GoalRun I}
    (driver : g'.driver = (g.driver.advance r).1)
    (emitted : g'.emitted = g.emitted ++ (g.driver.advance r).2) : g'.OfDriver build := by
  obtain ⟨results, same⟩ := h
  refine ⟨results ++ [r], ?_⟩
  rw [Build.goalAfter] at same ⊢
  rw [GoalDriver.after_concat, same, driver, emitted]

theorem advance (h : g.OfDriver build) (r : TurnResult) : (g.advance r).OfDriver build :=
  h.next r rfl rfl

variable [Inference I]

theorem poll (h : g.OfDriver build) : g.poll.OfDriver build := by
  cases act : g.driver.acting with
  | false => rwa [GoalRun.poll_idle act]
  | true =>
    rw [GoalRun.poll_acting act]
    exact h.next _ rfl rfl

theorem before (build : Build) (clock : Clock) (inf : I) (n : Nat) :
    (Drive.before build clock inf n).run.OfDriver build := by
  refine WhileLoop.invariant (I := fun d : Drive I => d.run.OfDriver build) ?_ (start _ _) n
  intro d h _
  rcases d.iterate_run build clock with polled | ⟨_, stalled⟩
  · rw [polled]
    exact h.poll
  · rw [stalled]
    exact h.poll.advance _

end GoalRun.OfDriver

/-- A goal that `drive_goal` returns has ended, and is done as far as it says so. -/
theorem driveGoal_ofDriver {I : Type} [Inference I] [SerdeJson] {build : Build} {clock : Clock}
    {inf : I} {fuel : Nat} {o : Outcome I} (drove : driveGoal build clock inf fuel = some o) :
    o.run.OfDriver build ∧ o.run.driver.acting = false ∧
      (o.done = true ↔ o.run.driver.state = .done) := by
  obtain ⟨d, ran, rfl⟩ := Option.map_eq_some_iff.mp drove
  obtain ⟨rfl, ended⟩ := WhileLoop.result_eq_some.mp ran
  have shown : (Drive.before build clock inf fuel).run.OfDriver build :=
    .before build clock inf fuel
  unfold Drive.finish
  split
  · rename_i done
    exact ⟨shown, ended, iff_of_true rfl done⟩
  · rename_i other
    exact ⟨shown, ended, iff_of_false Bool.false_ne_true other⟩

namespace Kernel

open Console

section
variable [MetalJson] [SerdeJson] {I : Type} [Inference I] {build : Build} {clock : Clock}
  {fuel : Nat}

/-- A goal whose session holds. -/
theorem tells_goal {inf : I} {fails : Option (Nat × String)} {o : Outcome I}
    (holds : (fails.map fun (n, message) => (Drive.before build clock inf n, message)).filter
      (·.1.acting) = none)
    (drove : driveGoal build clock inf fuel = some o) :
    Tells (goal build clock fuel fails inf) (o.run.emitted.map .told) (.ok o) := by
  have driven : Tells (liftM (some o) : Console (Outcome I)) [] (.ok o) := by
    intro log
    exact ⟨[], by rw [List.append_nil]; rfl, rfl⟩
  have closing : ∀ print ∈ closingLines build o, print.event? = none := by
    intro print here
    unfold closingLines at here
    split at here
    · simp only [List.mem_cons, List.not_mem_nil, or_false] at here
      rcases here with rfl | rfl <;> rfl
    · cases here
  have rest : Tells (do
      (o.run.emitted.map .told).forM emit
      (closingLines build o).forM println
      return o) (o.run.emitted.map .told) (.ok o) := by
    have all := (Tells.emits (o.run.emitted.map .told)).bind (f := fun _ => _)
      ((Tells.forM (closingLines build o) fun print _ => .println print).bind
        (f := fun _ => _) (.return o))
    have silent : (closingLines build o).flatMap (fun print => print.event?.toList) = [] :=
      List.flatMap_eq_nil_iff.mpr fun print here => by rw [closing print here]; rfl
    rw [silent, List.nil_append, List.append_nil] at all
    exact all
  unfold goal
  simp only [holds, drove]
  exact driven.bind rest

/-- What a goal tells: where a run of it stands. -/
theorem goal_comes (fails : Option (Nat × String)) (inf : I) :
    Comes (goal build clock fuel fails inf) fun events result =>
      ∃ g : GoalRun I, g.OfDriver build ∧ events = g.emitted.map .told ∧
        ∀ o, result = .ok o → g.driver.acting = false ∧
          (o.done = true ↔ g.driver.state = .done) := by
  cases failed : (fails.map fun (n, message) => (Drive.before build clock inf n, message)).filter
      (·.1.acting) with
  | some stopped =>
    obtain ⟨d, message⟩ := stopped
    have shown : d.run.OfDriver build := by
      obtain ⟨⟨n, m⟩, _, same⟩ := Option.map_eq_some_iff.mp (Option.filter_eq_some_iff.mp failed).1
      cases same
      exact .before build clock inf n
    have tells : Tells (do (d.run.emitted.map .told).forM emit; throw message)
        (d.run.emitted.map .told ++ []) (.error message : Except String (Outcome I)) :=
      (Tells.emits _).bind (Tells.panic message)
    rw [List.append_nil] at tells
    have same : goal build clock fuel fails inf =
        (do (d.run.emitted.map .told).forM emit; throw message) := by
      unfold goal
      simp only [failed]
    rw [same]
    exact .inr ⟨_, _, tells, d.run, shown, rfl, by simp⟩
  | none =>
    cases drove : driveGoal build clock inf fuel with
    | none =>
      left
      intro log
      unfold goal
      simp only [failed, drove]
      rfl
    | some o =>
      obtain ⟨shown, ended, done⟩ := driveGoal_ofDriver drove
      refine .inr ⟨_, _, tells_goal failed drove, o.run, shown, rfl, ?_⟩
      intro o' same
      cases same
      exact ⟨ended, done⟩

/-- What the kernel's goal has told, nothing before it starts. -/
def OfGoal (build : Build) (told : List Event) : Prop :=
  told = [] ∨ ∃ results, told = (build.goalAfter results).2

omit [MetalJson] [SerdeJson] in
theorem OfGoal.states {told : List Event} (h : OfGoal build told) :
    ∀ event ∈ told, event.goalState?.isSome = true := by
  rcases h with rfl | ⟨results, rfl⟩
  · simp
  · exact (build.goalAfter_narrated results).states

/-- The events of a goal, and the answer of a run that told them. -/
structure Narrative (build : Build) (told : List Event) (result : Except String Bool) : Prop where
  goal : OfGoal build told
  ended : ∀ done, result = .ok done → ∃ state, told.getLast?.bind Event.goalState? = some state ∧
    (state = .blocked ∨ state = .done ∨ state = .failed) ∧ (done = true ↔ state = .done)

/-- A goal and what follows it: nothing more is told. -/
theorem goal_then (fails : Option (Nat × String)) (inf : I) {f : Outcome I → Console Bool}
    (follows : ∀ o, Tells (f o) [] (.ok o.done) ∨ ∃ message, Tells (f o) [] (.error message)) :
    Comes (goal build clock fuel fails inf >>= f) fun events result =>
      ∃ states : List Event, events = states.map .told ∧ Narrative build states result := by
  have ofGoal {g : GoalRun I} (shown : g.OfDriver build) : OfGoal build g.emitted := by
    obtain ⟨results, same⟩ := shown
    exact .inr ⟨results, by rw [same]⟩
  refine (goal_comes fails inf).before ?_ ?_
  · rintro events message ⟨g, shown, told, _⟩
    exact ⟨g.emitted, told, ofGoal shown, by simp⟩
  · rintro events o ⟨g, shown, told, finished⟩
    obtain ⟨ended, done⟩ := finished o rfl
    rcases follows o with answers | ⟨message, panics⟩
    · refine ⟨_, answers, g.emitted, told, ofGoal shown, ?_⟩
      intro answer same
      cases same
      refine ⟨_, shown.narrated.last, ?_, done⟩
      rcases shown.narrated.entered with acting | rest
      · simp [GoalDriver.acting, acting] at ended
      · exact rest
    · exact ⟨_, panics, g.emitted, told, ofGoal shown, by simp⟩

/-- What `run` tells: the log of the demo, and a goal. -/
theorem run_comes {M : Type} [TextLink M] (fw : Firmware) (world : World M) (fuel : Nat) :
    Comes (run fw world fuel) fun events result =>
      ∃ states : List Event, events = (foldEvents ++ states).map .told ∧
        Narrative fw.toBuild states result := by
  have panics : ∀ message : String, Comes (throw message : Console Bool) fun later result =>
      ∃ states : List Event, foldEvents.map .told ++ later = (foldEvents ++ states).map .told ∧
        Narrative fw.toBuild states result := fun message =>
    .inr ⟨[], _, .panic message, [], by simp, .inl rfl, by simp⟩
  have drives : ∀ {c : Console Bool}, (Comes c fun events result =>
      ∃ states : List Event, events = states.map .told ∧ Narrative fw.toBuild states result) →
      Comes c fun later result =>
        ∃ states : List Event, foldEvents.map .told ++ later = (foldEvents ++ states).map .told ∧
          Narrative fw.toBuild states result := by
    rintro c (endless | ⟨events, result, tells, states, rfl, narrative⟩)
    · exact .inl endless
    · exact .inr ⟨_, result, tells, states, by simp, narrative⟩
  refine Comes.after tells_foldDemo ?_
  split
  · split
    · exact panics _
    · split
      · exact panics _
      · rename_i session _
        refine Comes.after (tells_narration _ _ _) (drives (goal_then _ _ fun o => ?_))
        split
        · exact .inr ⟨_, .panic _⟩
        · exact .inl (.return _)
  · exact drives (goal_then none _ fun o => .inl (.return o.done))

/-- `main` up to the panic handler. -/
theorem boot_comes (lossless : Lossless) {M : Type} [TextLink M] (fw : Firmware) (world : World M)
    (fuel : Nat) :
    Comes (boot fw world fuel) fun events result =>
      if fw.panicTest then events = protoEvents ∧ ∃ message, result = .error message
      else ∃ states : List Event, events = protoEvents ++ (foldEvents ++ states).map .told ∧
        Narrative fw.toBuild states result := by
  unfold boot normalFlow
  refine .after (tells_narration _ _ _) (.after (tells_netInit _) (.after (tells_narration _ _ _)
    (.after (tells_proto lossless) ?_)))
  simp only [List.nil_append]
  cases test : fw.panicTest with
  | true =>
    simp only [↓reduceIte]
    exact .inr ⟨[], _, .panic _, List.append_nil _, _, rfl⟩
  | false =>
    simp only [Bool.false_eq_true, ↓reduceIte]
    rcases run_comes fw world fuel with endless | ⟨events, result, tells, states, rfl, narrative⟩
    · exact .inl endless
    · exact .inr ⟨_, result, tells, states, rfl, narrative⟩

end

end Kernel

/-- The state that the last event announces. -/
def lastState (events : List Emitted) : Option GoalState :=
  (events.map Emitted.view).getLast?.bind Event.goalState?

namespace Kernel

/-- The log of a run in which a goal has told these states. -/
def log (states : List Event) : List Emitted :=
  protoEvents ++ (foldEvents ++ states).map .told

/-- Nothing but the log of the demo is folded. -/
theorem folded_log {states : List Event}
    (goal : ∀ event ∈ states, event.goalState?.isSome = true) :
    ((log states).map Emitted.view).foldl SystemState.apply .default = folded := by
  have idle : ∀ (states : List Event), (∀ event ∈ states, event.goalState?.isSome = true) →
      ∀ st, states.foldl SystemState.apply st = st := by
    intro states
    induction states with
    | nil => exact fun _ st => rfl
    | cons event rest ih =>
      intro goal st
      have kept : st.apply event = st := by
        have state := goal event List.mem_cons_self
        cases event <;> first | rfl | cases state
      rw [List.foldl_cons, kept]
      exact ih (fun later here => goal later (List.mem_cons_of_mem _ here)) st
  have views : (log states).map Emitted.view =
      protoEvents.map Emitted.view ++ (foldEvents ++ states) := by
    have same : Emitted.view ∘ Emitted.told = id := rfl
    rw [log, List.map_append, List.map_map, same, List.map_id]
  rw [views, List.foldl_append, List.foldl_append, idle states goal]
  rfl

theorem emits_log {states : List Event}
    (goal : ∀ event ∈ states, event.goalState?.isSome = true) :
    ∀ event ∈ log states, Emits event := by
  intro event here
  rcases List.mem_append.mp here with proto | told
  · exact emits_proto proto
  · obtain ⟨event, one, rfl⟩ := List.mem_map.mp told
    rcases List.mem_append.mp one with demo | state
    · exact .inl demo
    · exact .inr (goal event state)

theorem lastState_log {states : List Event} {state : GoalState}
    (last : states.getLast?.bind Event.goalState? = some state) :
    lastState (log states) = some state := by
  have some : states.getLast?.isSome = true := by
    cases none : states.getLast? with
    | none => simp [none] at last
    | some event => rfl
  have same : Emitted.view ∘ Emitted.told = id := rfl
  rw [lastState, log, List.map_append, List.map_map, same, List.map_id, List.getLast?_append,
    List.getLast?_append, Option.or_of_isSome some, Option.or_of_isSome some]
  exact last

end Kernel

section
variable [MetalJson] [SerdeJson]

/-- How a run exits that comes to this result and has told these events. -/
inductive Kernel.Exits (fw : Firmware) : Except String Bool → List Emitted → ℕ → Prop where
  | test {message : String} (test : fw.panicTest = true) : Exits fw (.error message) protoEvents 1
  | panic {message : String} {states : List Event} (normal : fw.panicTest = false)
      (goal : OfGoal fw.toBuild states) : Exits fw (.error message) (log states) 1
  | pass {states : List Event} (normal : fw.panicTest = false) (goal : OfGoal fw.toBuild states)
      (done : states.getLast?.bind Event.goalState? = some .done) :
      Exits fw (.ok true) (log states) 0
  | fail {states : List Event} (normal : fw.panicTest = false) (goal : OfGoal fw.toBuild states)
      (other : states.getLast?.bind Event.goalState? = some .blocked ∨
        states.getLast?.bind Event.goalState? = some .failed) :
      Exits fw (.ok false) (log states) 2

open Kernel

theorem Kernel.main_exits (lossless : Lossless) {M : Type} [TextLink M] {fw : Firmware}
    {world : World M} {report : String → List (Print Emitted)}
    (quiet : ∀ message, (report message).filterMap Print.event? = []) {fuel : ℕ}
    {prints : List (Print Emitted)} {code : ℕ}
    (ran : main fw world report fuel = some (prints, code)) :
    ∃ result printed, (boot fw world fuel).run.run [] = some (result, printed) ∧
      Exits fw result (prints.filterMap Print.event?) code := by
  obtain ⟨⟨result, all⟩, booted, exit⟩ := Option.map_eq_some_iff.mp ran
  refine ⟨result, all, booted, ?_⟩
  rcases boot_comes lossless fw world fuel with endless | ⟨events, result', tells, told⟩
  · rw [endless] at booted
    cases booted
  obtain ⟨prints', booted', events_eq⟩ := tells []
  obtain ⟨rfl, rfl⟩ : result' = result ∧ prints' = all := by
    simpa using booted'.symm.trans booted
  -- What the panic handler prints tells nothing.
  have same : prints.filterMap Print.event? = events := by
    cases result' with
    | ok done =>
      cases exit
      exact events_eq
    | error message =>
      cases exit
      rw [List.filterMap_append, quiet, List.append_nil, events_eq]
  rw [same]
  split at told
  · rename_i test
    obtain ⟨rfl, message, rfl⟩ := told
    cases exit
    exact .test test
  · rename_i normal
    have normal := Bool.eq_false_iff.mpr normal
    obtain ⟨states, rfl, narrative⟩ := told
    cases result' with
    | error message =>
      cases exit
      exact .panic normal narrative.goal
    | ok done =>
      obtain ⟨state, last, ended, answer⟩ := narrative.ended done rfl
      cases done with
      | true =>
        cases exit
        obtain rfl := answer.mp rfl
        exact .pass normal narrative.goal last
      | false =>
        cases exit
        rcases ended with rfl | rfl | rfl
        · exact .fail normal narrative.goal (.inl last)
        · cases answer.mpr rfl
        · exact .fail normal narrative.goal (.inr last)

omit [MetalJson] [SerdeJson] in
/-- What such a run has told is what is relied on. -/
theorem Kernel.Exits.emits {fw : Firmware} {result : Except String Bool} {events : List Emitted}
    {code : ℕ} (exits : Exits fw result events code) : ∀ event ∈ events, Emits event := by
  cases exits with
  | test => exact fun event here => emits_proto here
  | panic _ goal => exact emits_log goal.states
  | pass _ goal => exact emits_log goal.states
  | fail _ goal => exact emits_log goal.states

omit [MetalJson] [SerdeJson] in
theorem Kernel.Exits.tested {fw : Firmware} {result : Except String Bool} {events : List Emitted}
    {code : ℕ} (exits : Exits fw result events code) (test : fw.panicTest = true) :
    events = protoEvents := by
  cases exits with
  | test => rfl
  | panic normal => exact absurd (test.symm.trans normal) (by decide)
  | pass normal => exact absurd (test.symm.trans normal) (by decide)
  | fail normal => exact absurd (test.symm.trans normal) (by decide)

omit [MetalJson] [SerdeJson] in
/-- After a boot that is not meant to panic, the log is of the demo and of the goal. -/
theorem Kernel.Exits.logged {fw : Firmware} {result : Except String Bool} {events : List Emitted}
    {code : ℕ} (exits : Exits fw result events code) (normal : fw.panicTest = false) :
    ∃ states, events = log states ∧ OfGoal fw.toBuild states := by
  cases exits with
  | test test => exact absurd (normal.symm.trans test) Bool.false_ne_true
  | panic _ goal => exact ⟨_, rfl, goal⟩
  | pass _ goal => exact ⟨_, rfl, goal⟩
  | fail _ goal => exact ⟨_, rfl, goal⟩

/-- Without a session nothing panics: the goal's result is the exit code. -/
theorem Kernel.scripted_exits (lossless : Lossless) {M : Type} [TextLink M] (fw : Firmware)
    (scripted : fw.meshGoal = false) (normal : fw.panicTest = false) (world : World M)
    (report : String → List (Print Emitted)) {fuel : ℕ} {o : Outcome ScriptedInference}
    (drove : driveGoal fw.toBuild world.clock
      (ScriptedInference.new (if fw.failScript then SCRIPT_HANG else SCRIPT_SUCCESS)) fuel =
        some o) :
    ∃ prints, main fw world report fuel = some (prints, if o.done then 0 else 2) ∧
      prints.filterMap Print.event? = log o.run.emitted := by
  have ran : Console.Tells (run fw world fuel)
      (foldEvents.map .told ++ (o.run.emitted.map .told ++ [])) (.ok o.done) := by
    unfold run
    simp only [scripted, Bool.false_eq_true, ↓reduceIte]
    exact tells_foldDemo.bind ((tells_goal rfl drove).bind (f := fun o => _) (.return o.done))
  have flows : Console.Tells (normalFlow fw world fuel)
      ([] ++ (protoEvents ++ (foldEvents.map .told ++ (o.run.emitted.map .told ++ []))))
      (.ok o.done) := by
    unfold normalFlow
    simp only [normal, Bool.false_eq_true, ↓reduceIte]
    exact (tells_narration _ _ _).bind ((tells_proto lossless).bind (f := fun _ => _) ran)
  have booted : Console.Tells (boot fw world fuel)
      ([] ++ ([] ++ ([] ++ (protoEvents ++ (foldEvents.map .told ++
        (o.run.emitted.map .told ++ [])))))) (.ok o.done) :=
    (tells_narration _ _ _).bind ((tells_netInit world.nic).bind (f := fun _ => _) flows)
  obtain ⟨prints, all, told⟩ := booted []
  refine ⟨prints, ?_, ?_⟩
  · rw [main, all]
    rfl
  · rw [told, log, List.map_append]
    simp

/-- The events that calls emit. -/
def eventsOf (calls : List (Println Emitted)) : List Emitted :=
  calls.filterMap fun call => call.print.event?

omit [SerdeJson] in
theorem filterMap_prints (calls : List (Println Emitted)) :
    (calls.map Println.print).filterMap Print.event? = eventsOf calls := List.filterMap_map

/-- **The log says what the exit code says.** However its lines are cut, what a run has
printed is read back into the events it emitted. It exits with 0 if it returns and the last
of them says `Done`, with 2 if it returns and the last says `Blocked` or `Failed`, and with 1
if it panics. After the events of `proto.rs` and the log of the demo it tells of the one goal
only, and it folds to the state that was asserted on metal. -/
theorem kernel_log (lossless : Lossless) {M : Type} [TextLink M] (fw : Firmware) (world : World M)
    {report : String → List (Print Emitted)}
    (quiet : ∀ message, (report message).filterMap Print.event? = []) {fuel : ℕ}
    {calls : List (Println Emitted)} {code : ℕ}
    (ran : Kernel.main fw world report fuel = some (calls.map Println.print, code)) :
    frames (calls.foldl Uart.println []) = some (eventsOf calls) ∧
      (∃ result printed, (Kernel.boot fw world fuel).run.run [] = some (result, printed) ∧
        (result = .ok true ∧ code = 0 ∧ lastState (eventsOf calls) = some .done ∨
          result = .ok false ∧ code = 2 ∧ (lastState (eventsOf calls) = some .blocked ∨
            lastState (eventsOf calls) = some .failed) ∨
          ∃ message, result = .error message ∧ code = 1 ∧
            calls.map Println.print = printed ++ report message)) ∧
      (fw.panicTest = true → eventsOf calls = protoEvents) ∧
      (fw.panicTest = false → (∃ states, eventsOf calls = log states ∧ OfGoal fw.toBuild states) ∧
        ((eventsOf calls).map Emitted.view).foldl SystemState.apply .default = folded) := by
  obtain ⟨result, printed, booted, exits⟩ := Kernel.main_exits lossless quiet ran
  rw [filterMap_prints] at exits
  refine ⟨?_, ⟨result, printed, booted, ?_⟩, ?_, ?_⟩
  · apply read_on lossless.toLosslessOn calls
    intro call here event told
    exact exits.emits event (List.mem_filterMap.mpr ⟨call, here, told⟩)
  · have panicked : ∀ message, result = .error message → code = 1 →
        ∃ message, result = .error message ∧ code = 1 ∧
          calls.map Println.print = printed ++ report message := by
      intro message panics one
      subst panics
      rw [main, booted] at ran
      exact ⟨message, rfl, one, (congrArg Prod.fst (Option.some.inj ran)).symm⟩
    generalize eventsOf calls = events at exits
    cases exits with
    | test => exact .inr (.inr (panicked _ rfl rfl))
    | panic => exact .inr (.inr (panicked _ rfl rfl))
    | pass _ _ done => exact .inl ⟨rfl, rfl, lastState_log done⟩
    | fail _ _ other => exact .inr (.inl ⟨rfl, rfl, other.imp lastState_log lastState_log⟩)
  · intro test
    exact exits.tested test
  · intro normal
    obtain ⟨states, logged, goal⟩ := exits.logged normal
    refine ⟨⟨states, logged, goal⟩, ?_⟩
    rw [logged]
    exact folded_log goal.states

end

/-! ## The texts of what the kernel emits -/

namespace Wire

/-- An object whose fields' values are JSON. -/
def object (fields : List (String × List Char)) : List Char :=
  '\x7b' :: [','].intercalate (fields.map fun (name, value) =>
    Json.quote name.toList ++ ':' :: value) ++ ['\x7d']

def array (items : List (List Char)) : List Char := '[' :: [','].intercalate items ++ [']']

def text (s : String) : List Char := Json.quote s.toList

def number (n : ℕ) : List Char := Nat.toDigits 10 n

def flag (b : Bool) : List Char := (Json.bool b).print

def readingText (r : AirQuality) : List Char :=
  object [("kind", text "air_quality"), ("iaq", r.iaq.toList), ("co2_eq_ppm", r.co2EqPpm.toList),
    ("voc_ppm", r.vocPpm.toList), ("accuracy", number r.accuracy.toNat),
    ("temperature_c", r.temperatureC.toList), ("humidity_pct", r.humidityPct.toList),
    ("pressure_hpa", r.pressureHpa.toList), ("sensor_id", text r.sensorId)]

def callText (call : ToolCall) : List Char :=
  object [("id", number call.id.val.toNat), ("tool", text call.tool), ("args", call.args.toList),
    ("needs_approval", flag call.needsApproval)]

def specText (spec : ToolSpec) : List Char :=
  object [("name", text spec.name), ("description", text spec.description),
    ("input_schema", spec.inputSchema.toList)]

def imageText (image : ImageSource) : List Char :=
  object [("media_type", text image.mediaType), ("data", text image.data)]

/-- The state of a goal as a value. -/
def stateJson (goal : GoalId) (objective : String) (state : GoalState) (step maxSteps : ℕ)
    (detail : String) (yolo : Bool) : Json :=
  .obj [("type".toList, .str "goal_state_changed".toList), ("goal".toList, .num goal.val.toNat),
    ("objective".toList, .str objective.toList), ("state".toList, .str (stateName state).toList),
    ("step".toList, .num step), ("max_steps".toList, .num maxSteps),
    ("detail".toList, .str detail.toList), ("yolo".toList, .bool yolo)]

/-- The text of an event of the kernel, in the order of its fields. -/
def emittedText : Emitted → List Char
  | .sensorReading nodeId reading timestamp =>
    object [("type", text "sensor_reading"), ("node_id", text nodeId),
      ("reading", readingText reading), ("timestamp", number timestamp.toNat)]
  | .vastInstanceLaunched instanceId recipe costPerHr =>
    object [("type", text "vast_instance_launched"), ("instance_id", text instanceId),
      ("recipe", text recipe), ("cost_per_hr", costPerHr.toList)]
  | .toolRequested session call =>
    object [("type", text "tool_requested"), ("session", number session.val.toNat),
      ("call", callText call)]
  | .told (.userPrompt session prompt images) =>
    object [("type", text "user_prompt"), ("session", number session.val.toNat),
      ("text", text prompt), ("images", array (images.map imageText))]
  | .told (.pluginUp plugin tools) =>
    object [("type", text "plugin_up"), ("plugin", text plugin.val),
      ("tools", array (tools.map specText))]
  | .told (.approvalPending session call) =>
    object [("type", text "approval_pending"), ("session", number session.val.toNat),
      ("call", callText call)]
  | .told (.userApproval session action granted) =>
    object [("type", text "user_approval"), ("session", number session.val.toNat),
      ("action", number action.val.toNat), ("granted", flag granted)]
  | .told (.goalStateChanged goal objective state step maxSteps detail yolo) =>
    (stateJson goal objective state step maxSteps detail yolo).print
  | _ => []

def stateNamed (name : List Char) : Option GoalState :=
  [.planning, .acting, .blocked, .reflecting, .done, .failed, .cancelled].find? fun state =>
    (stateName state).toList == name

def stateOf : Json → Option Event
  | .obj [(_, .str type), (_, .num (.ofNat goal)), (_, .str objective), (_, .str state),
      (_, .num (.ofNat step)), (_, .num (.ofNat maxSteps)), (_, .str detail), (_, .bool yolo)] =>
    if type = "goal_state_changed".toList then
      (stateNamed state).map fun state => .goalStateChanged ⟨.ofNat goal⟩ (String.ofList objective)
        state step maxSteps (String.ofList detail) yolo
    else none
  | _ => none

theorem stateOf_stateJson (goal : GoalId) (objective : String) (state : GoalState)
    (step maxSteps : ℕ) (detail : String) (yolo : Bool) :
    stateOf (stateJson goal objective state step maxSteps detail yolo) =
      some (.goalStateChanged goal objective state step maxSteps detail yolo) := by
  have named : stateNamed (stateName state).toList = some state := by
    cases state <;> decide +kernel
  simp only [stateJson, stateOf, ↓reduceIte, named, Option.map_some, String.ofList_toList,
    UInt64.ofNat_toNat]

/-- The events of a run that do not depend on its goal. -/
def bootEvents : List Emitted := Kernel.protoEvents ++ Kernel.foldEvents.map .told

def readText (cs : List Char) : Option Emitted :=
  match (Json.parse cs).bind stateOf with
  | some event => some (.told event)
  | none => bootEvents.find? (emittedText · == cs)

/-- `serde_json` on what the kernel emits. A value is carried along as its text. -/
@[reducible] def metalJson : MetalJson where
  toString event := String.ofList (emittedText event)
  fromStr text := readText text.toList
  valueFromStr := some
  toValue event := String.ofList (emittedText event)

/-- A text as a reader of lines wants it. -/
structure Framed (event : Emitted) : Prop where
  opens : (emittedText event).head? = some '\x7b'
  closes : (emittedText event).getLast? = some '\x7d'
  escaped : ∀ c ∈ emittedText event, 0x20 ≤ c.toNat
  reads : readText (emittedText event) = some event

theorem object_framed (fields : List (String × List Char)) :
    (object fields).head? = some '\x7b' ∧ (object fields).getLast? = some '\x7d' :=
  ⟨rfl, by rw [object, List.getLast?_concat]⟩

theorem framed_boot {event : Emitted} (here : event ∈ bootEvents) : Framed event := by
  have objects : ∃ fields, emittedText event = object fields := by
    simp only [bootEvents, Kernel.protoEvents, Kernel.foldEvents, List.map_cons, List.map_nil,
      List.cons_append, List.nil_append, List.mem_cons, List.not_mem_nil, or_false] at here
    rcases here with rfl | rfl | rfl | rfl | rfl | rfl | rfl <;> exact ⟨_, rfl⟩
  have texts : ∀ event ∈ bootEvents, (emittedText event).all (32 ≤ ·.toNat) = true ∧
      readText (emittedText event) = some event := by decide +kernel
  obtain ⟨fields, object⟩ := objects
  obtain ⟨opens, closes⟩ := object_framed fields
  obtain ⟨escaped, reads⟩ := texts event here
  exact ⟨object ▸ opens, object ▸ closes, Json.printable_of_all escaped, reads⟩

theorem framed_state (goal : GoalId) (objective : String) (state : GoalState) (step maxSteps : ℕ)
    (detail : String) (yolo : Bool) :
    Framed (.told (.goalStateChanged goal objective state step maxSteps detail yolo)) where
  opens := rfl
  closes := by
    show (stateJson goal objective state step maxSteps detail yolo).print.getLast? = _
    rw [stateJson, Json.print, List.getLast?_concat]
  escaped := Json.print_printable _
  reads := by
    show readText (stateJson goal objective state step maxSteps detail yolo).print = _
    rw [readText, Json.parse_print, Option.bind_some, stateOf_stateJson]

theorem framed_emits {event : Emitted} (emits : Kernel.Emits event) : Framed event := by
  cases event with
  | told event =>
    rcases emits with demo | state
    · exact framed_boot (List.mem_append_right _ (List.mem_map_of_mem demo))
    · cases event with
      | goalStateChanged => exact framed_state _ _ _ _ _ _ _
      | _ => cases state
  | _ => exact framed_boot (List.mem_append_left _ emits)

section
attribute [local instance] metalJson

theorem metal_lossless : Kernel.Lossless where
  opens {event} here := by
    have same : (EventJson.toString event).toList = emittedText event := String.toList_ofList
    rw [same]
    exact (framed_emits here).opens
  closes {event} here := by
    have same : (EventJson.toString event).toList = emittedText event := String.toList_ofList
    rw [same]
    exact (framed_emits here).closes
  escaped {event} here := by
    have same : (EventJson.toString event).toList = emittedText event := String.toList_ofList
    rw [same]
    exact (framed_emits here).escaped
  reads here := by
    show readText (String.toList (String.ofList _)) = _
    rw [String.toList_ofList]
    exact (framed_emits here).reads
  trees _ := rfl

/-- A world without a gateway, whose clock stands still. -/
def aloneWorld : World Mesh where
  nic := some #v[0x52, 0x54, 0x00, 0x0b, 0xee, 0xf1]
  establish := .error "mesh: timed out during ws handshake"
  clock := ⟨0, fun _ => 0, fun _ => 0⟩

end

end Wire

/-- A line handed to the writer in two pieces. -/
def Println.atOnce {E : Type} [EventJson E] (print : Print E) : Println E where
  print
  pieces := [print.text, "\n"]
  whole := by simp [String.join]

section
attribute [local instance] Wire.metalJson
local instance aloneJson : SerdeJson := Wire.json []

/-- The states of the release kernel's goal. -/
def releaseStates : List Event :=
  [(.acting, 1), (.acting, 2), (.acting, 3), (.done, 3)].map fun (state, step) =>
    .goalStateChanged ⟨1⟩ "prove the colony contract end-to-end on bare metal" state step 8 "" false

/-- The release kernel, with its panics on a line of their own. -/
theorem release_log : ∃ calls : List (Println Emitted),
    Kernel.main ⟨.default, false, false⟩ Wire.aloneWorld
        (fun _ => [narration "KERNEL PANIC"]) 3 = some (calls.map Println.print, 0) ∧
      frames (calls.foldl Uart.println []) = some (Kernel.log releaseStates) ∧
      lastState (Kernel.log releaseStates) = some .done ∧
      ((Kernel.log releaseStates).map Emitted.view).foldl SystemState.apply .default =
        Kernel.folded := by
  obtain ⟨o, drove, done, states⟩ : ∃ o, driveGoal Build.default Wire.aloneWorld.clock
      (ScriptedInference.new SCRIPT_SUCCESS) 3 = some o ∧ o.done = true ∧
        o.run.emitted = releaseStates := ⟨_, rfl, rfl, rfl⟩
  obtain ⟨prints, ran, printed⟩ := Kernel.scripted_exits Wire.metal_lossless
    ⟨.default, false, false⟩ rfl rfl Wire.aloneWorld (fun _ => [narration "KERNEL PANIC"]) drove
  have cut : (prints.map Println.atOnce).map Println.print = prints := by
    rw [List.map_map]
    exact List.map_id prints
  have events : eventsOf (prints.map Println.atOnce) = Kernel.log releaseStates := by
    rw [← filterMap_prints, cut, printed, states]
  rw [done, if_pos rfl, ← cut] at ran
  obtain ⟨read, exit, _, log⟩ := kernel_log Wire.metal_lossless ⟨.default, false, false⟩
    Wire.aloneWorld (fun _ => rfl) ran
  rw [events] at read exit log
  refine ⟨_, ran, read, ?_, (log rfl).2⟩
  obtain ⟨_, _, _, ⟨_, _, last⟩ | ⟨_, other, _⟩ | ⟨_, _, other, _⟩⟩ := exit
  · exact last
  · cases other
  · cases other

end

end ApexosRv
