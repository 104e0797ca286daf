import ApexosRv.Contexts
import ApexosRv.Convention
import ApexosRv.Mesh

/-!
# Steers in prompts

A steer or a reason read from a reply fills one line and needs no trimming, so
it is the same verdict when it is written back. In the next prompt it adds one
line of its own, and that line is no verdict line, whatever the steer holds
(`steers_cannot_forge`).
-/

namespace ApexosRv

open RustStr

/-! ## What a reply can bring -/

theorem Status.steer_plain {status : List Char} {steer : String}
    (spelled : Status status (.continue (some steer))) : Plain steer.toList := by
  cases spelled with
  | continueWith _ plain => rwa [String.toList_ofList]

theorem Status.reason_plain {status : List Char} {reason : String}
    (spelled : Status status (.blocked reason)) : Plain reason.toList := by
  cases spelled with
  | blocked => exact ⟨by decide, by decide, by decide⟩
  | blockedWith _ plain => rwa [String.toList_ofList]

theorem steer_plain {reply steer : String}
    (parsed : parseGoalStep reply = some (.continue (some steer))) : Plain steer.toList := by
  obtain ⟨line, -, pre, gap, status, post, -, -, -, -, spelled⟩ := spells_of_parse parsed
  exact spelled.steer_plain

theorem reason_plain {reply reason : String}
    (parsed : parseGoalStep reply = some (.blocked reason)) : Plain reason.toList := by
  obtain ⟨line, -, pre, gap, status, post, -, -, -, -, spelled⟩ := spells_of_parse parsed
  exact spelled.reason_plain

/-- A line of its own is read as what it spells. -/
theorem parse_line {gap status : List Char} {v : Verdict} (white : Blank gap)
    (spelled : Status status v) (single : '\n' ∉ gap ++ status) {reply : String}
    (shape : reply.toList = "GOAL_STEP:".toList ++ (gap ++ status)) :
    parseGoalStep reply = some v := by
  have single' : '\n' ∉ reply.toList := by
    rw [shape, List.mem_append]
    exact not_or.mpr ⟨by decide, single⟩
  have spells : Spells reply.toList v :=
    ⟨[], gap, status, [], by rw [shape]; simp, by simp [Blank], white, by simp [Blank], spelled⟩
  obtain ⟨rest, found, read⟩ := (spells_iff single').mp spells
  rw [parseGoalStep_eq, lastMark_line single', found]
  exact read

theorem parse_steer {steer : String} (plain : Plain steer.toList) :
    parseGoalStep ("GOAL_STEP: continue " ++ steer) = some (.continue (some steer)) := by
  have apart : Gap [' '] := ⟨by decide, by simp⟩
  have spelled := Status.continueWith apart plain
  rw [String.ofList_toList] at spelled
  refine parse_line apart.1 spelled ?_ (by simp)
  simpa using plain.single

theorem parse_reason {reason : String} (plain : Plain reason.toList) :
    parseGoalStep ("GOAL_STEP: blocked " ++ reason) = some (.blocked reason) := by
  have apart : Gap [' '] := ⟨by decide, by simp⟩
  have spelled := Status.blockedWith apart plain
  rw [String.ofList_toList] at spelled
  refine parse_line apart.1 spelled ?_ (by simp)
  simpa using plain.single

/-! ## The lines of a prompt -/

theorem silent_wholeLines {text : List Char} :
    (∀ line ∈ wholeLines text, ¬ IsVerdictLine line) ↔ lastMark text = none := by
  have kept : ∀ line, verdictRest (stripCr line) = verdictRest line := by
    intro line
    rw [verdictRest, verdictRest, trim_stripCr]
  rw [lastMark, List.findSome?_eq_none_iff, wholeLines]
  simp only [List.mem_map, forall_exists_index, and_imp, forall_apply_eq_imp_iff₂,
    ← verdictRest_eq_none, kept, List.mem_reverse]

/-- A line that starts with another character is no verdict line. -/
theorem verdictRest_other {c : Char} {rest : List Char} (solid : isWhitespace c = false)
    (other : c ≠ 'G') : verdictRest (c :: rest) = none := by
  rw [verdictRest_eq_none]
  rintro ⟨after, starts⟩
  obtain ⟨pre, post, split, before, -⟩ := trim_split (c :: rest)
  rw [← starts] at split
  cases pre with
  | nil => exact other (List.cons.inj split).1
  | cons d pre =>
    have same := (List.cons.inj split).1
    have white := before d List.mem_cons_self
    rw [← same, solid] at white
    cases white

/-- Text behind a line that has started with another character. -/
theorem lastMark_behind {c : Char} {start text : List Char} (solid : isWhitespace c = false)
    (other : c ≠ 'G') (single : '\n' ∉ c :: start) (silent : lastMark text = none) :
    lastMark (c :: start ++ text) = none := by
  by_cases multi : '\n' ∈ text
  · obtain ⟨first, rest, rfl, firstSingle⟩ := List.eq_append_cons_of_mem multi
    rw [lastMark_newline, Option.or_eq_none_iff] at silent
    rw [← List.append_assoc, lastMark_newline, silent.1,
      lastMark_line (by rw [List.mem_append]; exact not_or.mpr ⟨single, firstSingle⟩)]
    exact verdictRest_other solid other
  · rw [lastMark_line (by rw [List.mem_append]; exact not_or.mpr ⟨single, multi⟩)]
    exact verdictRest_other solid other

theorem toString_single (n : Nat) : '\n' ∉ (toString n).toList := by
  intro newline
  rw [Nat.toString_eq_ofList_toDigits, String.toList_ofList] at newline
  have digit := Nat.isDigit_of_mem_toDigits (by decide) (by decide) newline
  exact absurd digit (by decide)

/-- The line of a prompt that names the step, up to the objective. -/
def promptHead (ctx : TickContext) : String :=
  "[apexos-rv goal driver — step " ++ toString ctx.step ++ "/" ++ toString ctx.maxSteps ++
    "] Objective: "

def taskLine : String :=
  "You are executing one bounded step of this goal on a bare-metal RISC-V " ++
    "node. Do this step's work in your reply."

def steerLine (steer : String) : String := "Steer from the previous step: " ++ steer

def askLine : String := "End your reply with exactly one line:"

def verdictLine : String :=
  "GOAL_STEP: continue <optional steer for the next step> | done | blocked <reason>"

/-- A prompt before its last line. -/
def promptFront (ctx : TickContext) : String :=
  promptHead ctx ++ ctx.objective ++ "\n" ++ taskLine ++
    (match ctx.steer with
    | some steer => "\n" ++ steerLine steer
    | none => "") ++
    "\n" ++ askLine

theorem stepDirective_eq (ctx : TickContext) :
    stepDirective ctx = promptFront ctx ++ "\n" ++ verdictLine := by
  have task : "\nYou are executing one bounded step of this goal on a bare-metal RISC-V " =
      "\n" ++ "You are executing one bounded step of this goal on a bare-metal RISC-V " := by simp
  have steer : "\nSteer from the previous step: " = "\n" ++ "Steer from the previous step: " := by
    simp
  have ask : "\nEnd your reply with exactly one line:\n" =
      "\n" ++ "End your reply with exactly one line:" ++ "\n" := by simp
  unfold stepDirective
  rw [task, steer, ask]
  unfold promptFront promptHead taskLine steerLine askLine verdictLine
  cases ctx.steer <;> simp only [String.append_assoc]

theorem single_append {a b : String} (front : '\n' ∉ a.toList) (back : '\n' ∉ b.toList) :
    '\n' ∉ (a ++ b).toList := by
  rw [String.toList_append, List.mem_append]
  exact not_or.mpr ⟨front, back⟩

theorem starts_append {a b : String} {c : Char} (starts : a.toList.head? = some c) :
    (a ++ b).toList.head? = some c := by
  rw [String.toList_append, List.head?_append, starts, Option.some_or]

theorem promptHead_single (ctx : TickContext) : '\n' ∉ (promptHead ctx).toList :=
  single_append (single_append (single_append (single_append (by simp)
    (toString_single _)) (by decide)) (toString_single _)) (by simp)

theorem promptHead_starts (ctx : TickContext) : (promptHead ctx).toList.head? = some '[' :=
  starts_append (starts_append (starts_append (starts_append (by simp))))

theorem taskLine_single : '\n' ∉ taskLine.toList := single_append (by simp) (by simp)

theorem steerLine_single {steer : String} (plain : Plain steer.toList) :
    '\n' ∉ (steerLine steer).toList :=
  single_append (by simp) plain.single

theorem steerLine_starts (steer : String) : (steerLine steer).toList.head? = some 'S' :=
  starts_append (by simp)

theorem askLine_single : '\n' ∉ askLine.toList := by simp [askLine]

theorem verdictLine_single : '\n' ∉ verdictLine.toList := by simp [verdictLine]

theorem verdictLine_marked : "GOAL_STEP:".toList <+: verdictLine.toList := by simp [verdictLine]

/-- A line that starts with another character than the marker's, and text behind it. -/
theorem lastMark_fixed {start : String} {c : Char} (first : start.toList.head? = some c)
    (solid : isWhitespace c = false) (other : c ≠ 'G') (single : '\n' ∉ start.toList)
    {text : List Char} (silent : lastMark text = none) :
    lastMark (start.toList ++ text) = none := by
  obtain ⟨rest, shape⟩ := List.head?_eq_some_iff.mp first
  rw [shape] at single ⊢
  exact lastMark_behind solid other single silent

theorem promptFront_toList (ctx : TickContext) :
    (promptFront ctx).toList = (promptHead ctx).toList ++ ctx.objective.toList ++ '\n' ::
      match ctx.steer with
      | some steer =>
        taskLine.toList ++ '\n' :: ((steerLine steer).toList ++ '\n' :: askLine.toList)
      | none => taskLine.toList ++ '\n' :: askLine.toList := by
  have newline : "\n".toList = ['\n'] := by simp
  unfold promptFront
  cases ctx.steer <;>
    simp only [String.toList_append, newline, String.toList_empty, List.append_nil,
      List.append_assoc, List.cons_append, List.nil_append]

/-- No line before the last one is a verdict line. -/
theorem promptFront_silent {ctx : TickContext} (objective : lastMark ctx.objective.toList = none)
    (plain : ∀ steer, ctx.steer = some steer → Plain steer.toList) :
    lastMark (promptFront ctx).toList = none := by
  have fixed : ∀ {line : String} {c : Char}, line.toList.head? = some c →
      isWhitespace c = false → c ≠ 'G' → '\n' ∉ line.toList → lastMark line.toList = none := by
    intro line c first solid other single
    have bare : lastMark [] = none := by decide
    have silent := lastMark_fixed first solid other single bare
    rwa [List.append_nil] at silent
  have head : lastMark ((promptHead ctx).toList ++ ctx.objective.toList) = none :=
    lastMark_fixed (promptHead_starts ctx) (by decide) (by decide) (promptHead_single ctx) objective
  have task : lastMark taskLine.toList = none :=
    fixed (c := 'Y') (starts_append (by simp)) (by decide) (by decide) taskLine_single
  have ask : lastMark askLine.toList = none :=
    fixed (c := 'E') (by simp [askLine]) (by decide) (by decide) askLine_single
  rw [promptFront_toList]
  cases given : ctx.steer with
  | none => simp only [lastMark_newline, head, task, ask, Option.or_none]
  | some steer =>
    have line : lastMark (steerLine steer).toList = none :=
      fixed (steerLine_starts steer) (by decide) (by decide) (steerLine_single (plain steer given))
    simp only [lastMark_newline, head, task, ask, line, Option.or_none]

theorem lines_prompt (ctx : TickContext) :
    lines (stepDirective ctx).toList =
      wholeLines (promptFront ctx).toList ++ [verdictLine.toList] := by
  have newline : "\n".toList = ['\n'] := by simp
  have some : verdictLine.toList ≠ [] := by simp [verdictLine]
  rw [stepDirective_eq, String.toList_append, String.toList_append, newline, List.append_assoc,
    List.singleton_append, lines_newline, lines_single verdictLine_single some]

/-- A prompt is lines of which only the last is a verdict line. -/
theorem prompt_lines {ctx : TickContext}
    (objective : ∀ line ∈ lines ctx.objective.toList, ¬ IsVerdictLine line)
    (plain : ∀ steer, ctx.steer = some steer → Plain steer.toList) :
    ∃ front, lines (stepDirective ctx).toList = front ++ [verdictLine.toList] ∧
      ∀ line ∈ front, ¬ IsVerdictLine line :=
  ⟨_, lines_prompt ctx,
    silent_wholeLines.mpr (promptFront_silent (lastMark_eq_none.mpr objective) plain)⟩

/-- A steer adds one line. -/
theorem prompt_length {ctx : TickContext} {steer : String} (given : ctx.steer = some steer)
    (plain : Plain steer.toList) :
    (lines (stepDirective ctx).toList).length =
      (lines (stepDirective { ctx with steer := none }).toList).length + 1 := by
  have same : promptHead { ctx with steer := none } = promptHead ctx := rfl
  rw [lines_prompt, lines_prompt, promptFront_toList, promptFront_toList, given, same]
  simp only [wholeLines_newline, wholeLines_single (steerLine_single plain), List.length_append,
    List.length_singleton]
  omega

/-! ## Goals whose steers are parsed -/

/-- A steer or a reason in the result was read from a reply. -/
def Sourced : TurnResult → Prop
  | .completed (.continue (some steer)) =>
    ∃ reply, parseGoalStep reply = some (.continue (some steer))
  | .completed (.blocked reason) => ∃ reply, parseGoalStep reply = some (.blocked reason)
  | _ => True

theorem Sourced.steer_plain {r : TurnResult} (sourced : Sourced r) {steer : String}
    (brings : r.steer? = some steer) : Plain steer.toList := by
  unfold TurnResult.steer? at brings
  split at brings
  · subst brings
    obtain ⟨reply, parsed⟩ := sourced
    exact ApexosRv.steer_plain parsed
  · cases brings

/-- A goal is blocked only for a reason it was given. -/
theorem Phase.blocked {c : Charter} {t : Trace} (phase : Phase c t) {goal : GoalId}
    {objective detail : String} {step maxSteps : Nat} {yolo : Bool}
    (emitted : .goalStateChanged goal objective .blocked step maxSteps detail yolo ∈ t.emitted) :
    .completed (.blocked detail) ∈ t.results := by
  have none_acting : ∀ n, .goalStateChanged goal objective .blocked step maxSteps detail yolo ∉
      c.actings n := by
    simp [Charter.actings, Charter.event]
  cases phase with
  | running steer all short driver events =>
    rw [events] at emitted
    exact absurd emitted (none_acting _)
  | spent before rest results all exact idle events =>
    rw [events] at emitted
    simp [none_acting, Charter.event] at emitted
  | ended before r rest results all stops short idle events =>
    rw [events] at emitted
    simp only [List.mem_append, none_acting, List.mem_singleton, false_or] at emitted
    rw [results]
    cases r with
    | pending => simp [Charter.ending, Charter.event] at emitted
    | stalled => simp [Charter.ending, Charter.event] at emitted
    | completed v =>
      cases v with
      | «continue» steer => simp [Charter.ending, Charter.event] at emitted
      | done => simp [Charter.ending, Charter.event] at emitted
      | blocked reason =>
        obtain ⟨-, -, -, -, rfl, -⟩ : _ ∧ _ ∧ _ ∧ _ ∧ detail = reason ∧ _ := by
          simpa [Charter.ending, Charter.event] using emitted
        simp

/-- What the last of such results brings can be shown in the next prompt. -/
theorem sourced_steer {results : List TurnResult} (sourced : ∀ r ∈ results, Sourced r)
    {steer : String} (given : lastSteer results = some steer) : Plain steer.toList := by
  obtain ⟨r, last, brings⟩ := Option.bind_eq_some_iff.mp given
  exact (sourced r (List.mem_of_getLast? last)).steer_plain brings

/-- **A steer cannot forge protocol lines.** What a reply brings fills one line
and is read back as it was written; so in a goal whose steers and reasons are
read from replies, every prompt has one verdict line, its last, and one line
more than without its steer, and a blocked goal's detail is one line. -/
theorem steers_cannot_forge :
    (∀ reply text : String,
      (parseGoalStep reply = some (.continue (some text)) → Plain text.toList ∧
        parseGoalStep ("GOAL_STEP: continue " ++ text) = some (.continue (some text))) ∧
      (parseGoalStep reply = some (.blocked text) → Plain text.toList ∧
        parseGoalStep ("GOAL_STEP: blocked " ++ text) = some (.blocked text))) ∧
    ∀ (goal : GoalId) (objective : String) (maxSteps : Nat) (calls : List Call),
      (∀ line ∈ lines objective.toList, ¬ IsVerdictLine line) →
      let t := calls.foldl Trace.call (Trace.start goal objective maxSteps)
      (∀ r ∈ t.results, Sourced r) →
      (∀ {I : Type} [Inference I] (inf : I), ∀ ctx ∈ t.driver.shown inf,
        (∃ front last, lines (stepDirective ctx).toList = front ++ [last] ∧
          "GOAL_STEP:".toList <+: last ∧ ∀ line ∈ front, ¬ IsVerdictLine line) ∧
        (ctx.steer ≠ none → (lines (stepDirective ctx).toList).length =
          (lines (stepDirective { ctx with steer := none }).toList).length + 1)) ∧
      ∀ goal objective step maxSteps detail yolo,
        .goalStateChanged goal objective .blocked step maxSteps detail yolo ∈ t.emitted →
          Plain detail.toList := by
  constructor
  · intro reply text
    constructor
    · intro parsed
      exact ⟨steer_plain parsed, parse_steer (steer_plain parsed)⟩
    · intro parsed
      exact ⟨reason_plain parsed, parse_reason (reason_plain parsed)⟩
  · intro goal objective maxSteps calls silent t sourced
    constructor
    · intro I _ inf ctx shown
      obtain ⟨act, rfl⟩ := GoalDriver.mem_shown.mp shown
      have informed : Informed (.of goal objective maxSteps) t :=
        (Informed.start goal objective maxSteps).calls calls
      rw [informed.context act]
      have plain : ∀ steer, lastSteer t.results = some steer → Plain steer.toList :=
        fun _ given => sourced_steer sourced given
      constructor
      · obtain ⟨front, split, others⟩ := @prompt_lines
          ⟨goal, objective, 1 + t.results.length, clampSteps maxSteps, _⟩ silent plain
        exact ⟨front, _, split, verdictLine_marked, others⟩
      · intro steered
        obtain ⟨steer, given⟩ := Option.ne_none_iff_exists'.mp steered
        exact prompt_length given (plain steer given)
    · intro _ _ _ _ detail _ emitted
      have phase : Phase (.of goal objective maxSteps) t :=
        (Phase.start goal objective maxSteps).calls calls
      obtain ⟨reply, parsed⟩ : Sourced (.completed (.blocked detail)) :=
        sourced _ (phase.blocked emitted)
      exact reason_plain parsed

end ApexosRv
