import ApexosRv.Driver
import ApexosRv.RustStr

/-!
# Mesh directives and verdicts

The prompt a step is turned into and the verdict line read back from a reply
(`agent-core/src/goal.rs`).
-/

namespace ApexosRv

open RustStr

/-- The turn prompt for one goal step. -/
def stepDirective (ctx : TickContext) : String :=
  "[apexos-rv goal driver — step " ++ toString ctx.step ++ "/" ++ toString ctx.maxSteps ++
    "] Objective: " ++ ctx.objective ++
    "\nYou are executing one bounded step of this goal on a bare-metal RISC-V " ++
    "node. Do this step's work in your reply." ++
    (match ctx.steer with
    | some s => "\nSteer from the previous step: " ++ s
    | none => "") ++
    "\nEnd your reply with exactly one line:\n" ++
    "GOAL_STEP: continue <optional steer for the next step> | done | blocked <reason>"

/-- What follows the marker on a verdict line. -/
def verdictRest (line : List Char) : Option (List Char) :=
  stripPrefix (trim line) "GOAL_STEP:".toList

/-- The verdict spelled after the marker; an unknown status is none. -/
def readVerdict (rest : List Char) : Option Verdict :=
  let rest := trim rest
  let (word, tail) :=
    match splitOnce rest isWhitespace with
    | some (w, t) => (w, trim t)
    | none => (rest, [])
  if word = "done".toList then some .done
  else if word = "blocked".toList then
    some (.blocked (if tail.isEmpty then "blocked" else String.ofList tail))
  else if word = "continue".toList then
    some (.continue (if tail.isEmpty then none else some (String.ofList tail)))
  else none

/-- Scans a completed turn's text for its last verdict line. -/
def parseGoalStep (reply : String) : Option Verdict :=
  match (lines reply.toList).reverse.findSome? verdictRest with
  | some rest => readVerdict rest
  | none => none

example : parseGoalStep "GOAL_STEP: done\n...quoting docs...\nGOAL_STEP: continue" =
    some (.continue none) := by decide

/-- The verdict of a completed turn: a missing one is `Continue(None)`. -/
def turnVerdict (reply : String) : Verdict := (parseGoalStep reply).getD (.continue none)

/-! ## The last verdict line -/

/-- What follows the marker on the last verdict line of a text. -/
def lastMark (text : List Char) : Option (List Char) :=
  (text.splitOn '\n').reverse.findSome? verdictRest

/-- The text after the last newline. -/
def lastLine (text : List Char) : List Char := text.rtakeWhile (· != '\n')

theorem verdictRest_blank {line : List Char} (blank : Blank line) : verdictRest line = none := by
  rw [verdictRest, trim_of_blank blank]
  decide

theorem verdictRest_append_of_blank {line : List Char} (blank : Blank line) (more : List Char) :
    verdictRest (line ++ more) = verdictRest more := by
  rw [verdictRest, verdictRest, trim_append_of_blank blank]

/-- Carriage returns before newlines and an empty last line make no difference. -/
theorem findSome_lines (text : List Char) :
    (lines text).reverse.findSome? verdictRest = lastMark text := by
  have kept : ∀ line, verdictRest (stripCr line) = verdictRest line := by
    intro line
    rw [verdictRest, verdictRest, trim_stripCr]
  obtain ⟨last, back, split⟩ := List.exists_cons_of_ne_nil
    (show (text.splitOn '\n').reverse ≠ [] by simp)
  have whole : text.splitOn '\n' = back.reverse ++ [last] := by
    rw [← List.reverse_reverse (text.splitOn '\n'), split, List.reverse_cons]
  simp only [lines, lastMark, whole, List.dropLast_concat, List.reverse_append,
    List.findSome?_append, List.map_reverse, List.reverse_reverse, List.findSome?_map,
    Function.comp_def, kept, List.getLast?_concat, Option.toList_some]
  by_cases empty : last = []
  · have blank : verdictRest [] = none := verdictRest_blank (by simp [Blank])
    simp [empty, blank]
  · simp [empty]

theorem parseGoalStep_eq (reply : String) :
    parseGoalStep reply = (lastMark reply.toList).bind readVerdict := by
  rw [parseGoalStep, findSome_lines]
  cases lastMark reply.toList <;> rfl

theorem lastMark_line {line : List Char} (single : '\n' ∉ line) :
    lastMark line = verdictRest line := by
  simp [lastMark, List.splitOn_eq_singleton single]

/-- A verdict line after a newline comes first, then the ones before it. -/
theorem lastMark_newline (before after : List Char) :
    lastMark (before ++ '\n' :: after) = (lastMark after).or (lastMark before) := by
  simp [lastMark, List.splitOn_append_cons_self, List.findSome?_append]

/-- A text is its last line, after some whole lines if it has any. -/
theorem split_lastLine (text : List Char) :
    '\n' ∉ lastLine text ∧
      (text = lastLine text ∨ ∃ before, text = before ++ '\n' :: lastLine text) := by
  have single : '\n' ∉ lastLine text := fun h => by
    simpa using List.mem_rtakeWhile_imp h
  refine ⟨single, ?_⟩
  have whole : text.rdropWhile (· != '\n') ++ lastLine text = text :=
    List.rdropWhile_append_rtakeWhile
  by_cases none : text.rdropWhile (· != '\n') = []
  · left
    rw [none, List.nil_append] at whole
    exact whole.symm
  · right
    have stop := List.rdropWhile_last_not (· != '\n') text none
    have newline : (text.rdropWhile (· != '\n')).getLast none = '\n' := by simpa using stop
    refine ⟨(text.rdropWhile (· != '\n')).dropLast, ?_⟩
    conv_lhs => rw [← whole, ← List.dropLast_append_getLast none, newline]
    simp [lastLine]

/-- Behind a text whose last line is blank so far, the verdict lines of what
follows stay as they are. -/
theorem lastMark_append {text : List Char} (blank : Blank (lastLine text)) (more : List Char) :
    lastMark (text ++ more) = (lastMark more).or (lastMark text) := by
  obtain ⟨single, shape⟩ := split_lastLine text
  have line : lastMark (lastLine text ++ more) = lastMark more := by
    by_cases multi : '\n' ∈ more
    · obtain ⟨first, rest, rfl, firstSingle⟩ := List.eq_append_cons_of_mem multi
      rw [← List.append_assoc, lastMark_newline, lastMark_newline,
        lastMark_line (show '\n' ∉ lastLine text ++ first by simp [single, firstSingle]),
        lastMark_line firstSingle, verdictRest_append_of_blank blank]
    · rw [lastMark_line (show '\n' ∉ lastLine text ++ more by simp [single, multi]),
        lastMark_line multi, verdictRest_append_of_blank blank]
  have none : lastMark (lastLine text) = none := by
    rw [lastMark_line single, verdictRest_blank blank]
  rcases shape with whole | ⟨before, whole⟩
  · rw [whole, line, none, Option.or_none]
  · have split : text ++ more = before ++ '\n' :: (lastLine text ++ more) := by
      conv_lhs => rw [whole]
      simp
    rw [split, lastMark_newline, line]
    conv_rhs => rw [whole]
    rw [lastMark_newline, none, Option.none_or]

/-! ## Text that says nothing

A text in front of a reply leaves every verdict alone exactly when it reads as
`Continue(None)` itself and its last line is blank so far. -/

def Neutral (text : String) : Prop :=
  turnVerdict text = .continue none ∧ Blank (lastLine text.toList)

theorem neutral_empty : Neutral "" := ⟨by decide, by simp [Blank, lastLine]⟩

theorem turnVerdict_append {text : String} (neutral : Neutral text) (more : String) :
    turnVerdict (text ++ more) = turnVerdict more := by
  obtain ⟨reads, blank⟩ := neutral
  rw [turnVerdict, parseGoalStep_eq] at reads
  simp only [turnVerdict, parseGoalStep_eq, String.toList_append, lastMark_append blank]
  cases mark : lastMark more.toList with
  | some rest => rfl
  | none => simpa using reads

theorem solid_verdictRest {line rest : List Char} (h : verdictRest line = some rest) :
    solid line = 10 + solid rest := by
  have whole := congrArg solid (stripPrefix_eq_some.mp h)
  rw [solid_trim, solid_append] at whole
  rw [whole]
  exact congrArg (· + solid rest) (by decide)

theorem solid_readVerdict {rest : List Char} {reason : String}
    (h : readVerdict rest = some (.blocked reason)) (given : reason ≠ "blocked") :
    solid rest = 7 + solid reason.toList := by
  have word_solid : solid "blocked".toList = 7 := by decide
  unfold readVerdict at h
  rw [← solid_trim rest]
  cases split : splitOnce (trim rest) isWhitespace with
  | none =>
    simp only [split, List.isEmpty_nil, ↓reduceIte] at h
    split at h
    · cases h
    · split at h
      · cases h
        exact absurd rfl given
      · split at h <;> cases h
  | some parts =>
    obtain ⟨word, tail⟩ := parts
    simp only [split] at h
    split at h
    · cases h
    · split at h
      · rename_i is_blocked
        rw [solid_splitOnce split, is_blocked, word_solid]
        split at h
        · cases h
          exact absurd rfl given
        · cases h
          rw [String.toList_ofList, solid_trim]
      · split at h <;> cases h

/-- A verdict line with a reason stays one however the line starts. -/
theorem verdictRest_append_solid {line rest : List Char} (h : verdictRest line = some rest)
    (more : List Char) {c : Char} (last : isWhitespace c = false) :
    ∃ rest', verdictRest (line ++ (more ++ [c])) = some rest' := by
  have start := stripPrefix_eq_some.mp h
  obtain ⟨tail, kept⟩ : trim line <+: line.dropWhile isWhitespace :=
    List.rdropWhile_prefix (p := isWhitespace) _
  refine ⟨rest ++ tail ++ more ++ [c], stripPrefix_eq_some.mpr ?_⟩
  rw [← List.append_assoc, trim_concat last, List.dropWhile_append]
  simp [← kept, start]

/-- A blocked verdict behind the text would not survive an open line. -/
theorem neutral_of_probe {text : String} (reads : turnVerdict text = .continue none)
    (probe : turnVerdict (text ++ "GOAL_STEP: blocked x") = .blocked "x") : Neutral text := by
  refine ⟨reads, ?_⟩
  have single : '\n' ∉ "GOAL_STEP: blocked x".toList := by decide
  obtain ⟨lineSingle, shape⟩ := split_lastLine text.toList
  obtain ⟨before, mark, markMore⟩ : ∃ before,
      lastMark text.toList = (verdictRest (lastLine text.toList)).or before ∧
      lastMark (text ++ "GOAL_STEP: blocked x").toList =
        (verdictRest (lastLine text.toList ++ "GOAL_STEP: blocked x".toList)).or before := by
    have joined : lastMark (lastLine text.toList ++ "GOAL_STEP: blocked x".toList) =
        verdictRest (lastLine text.toList ++ "GOAL_STEP: blocked x".toList) :=
      lastMark_line (by simp only [List.mem_append, not_or]; exact ⟨lineSingle, single⟩)
    rw [String.toList_append]
    rcases shape with whole | ⟨lines, whole⟩
    · refine ⟨none, ?_, ?_⟩
      · conv_lhs => rw [whole]
        rw [lastMark_line lineSingle, Option.or_none]
      · conv_lhs => rw [whole]
        rw [joined, Option.or_none]
    · refine ⟨lastMark lines, ?_, ?_⟩
      · conv_lhs => rw [whole]
        rw [lastMark_newline, lastMark_line lineSingle]
      · conv_lhs => rw [whole]
        rw [List.append_assoc, List.cons_append, lastMark_newline, joined]
  rw [turnVerdict, parseGoalStep_eq, markMore] at probe
  rw [turnVerdict, parseGoalStep_eq, mark] at reads
  cases joined : verdictRest (lastLine text.toList ++ "GOAL_STEP: blocked x".toList) with
  | some rest =>
    have read : readVerdict rest = some (.blocked "x") := by
      rw [joined, Option.some_or, Option.bind_some] at probe
      cases read : readVerdict rest with
      | none => simp [read] at probe
      | some v => simpa [read] using probe
    have line := solid_verdictRest joined
    have reason := solid_readVerdict read (by decide)
    have probe_solid : solid "GOAL_STEP: blocked x".toList = 18 := by decide
    have x_solid : solid "x".toList = 1 := by decide
    rw [solid_append] at line
    exact solid_eq_zero.mp (by omega)
  | none =>
    cases marked : verdictRest (lastLine text.toList) with
    | some rest =>
      obtain ⟨rest', h⟩ := verdictRest_append_solid marked "GOAL_STEP: blocked ".toList
        (c := 'x') (by decide)
      have same_text : "GOAL_STEP: blocked ".toList ++ ['x'] = "GOAL_STEP: blocked x".toList := by
        decide
      rw [same_text, joined] at h
      cases h
    | none =>
      rw [joined, Option.none_or] at probe
      rw [marked, Option.none_or, probe] at reads
      cases reads

end ApexosRv
