import ApexosRv.Directive
import ApexosRv.Runs

/-!
# The verdict convention

Which texts a verdict is read from. `Spells` says how a line spells a verdict,
with no word about how it is parsed; `parse_iff_convention` says that a reply
parses to what its last verdict line spells, and to nothing else.
-/

namespace ApexosRv

open RustStr

/-- A line that starts with the marker once it is trimmed. -/
def IsVerdictLine (line : List Char) : Prop := "GOAL_STEP:".toList <+: trim line

/-- Text that fills one line and needs no trimming. -/
structure Plain (text : List Char) : Prop where
  nonempty : text ≠ []
  trimmed : trim text = text
  single : '\n' ∉ text

/-- White space between two words. -/
def Gap (gap : List Char) : Prop := Blank gap ∧ gap ≠ []

/-- The spellings of a verdict after the marker, as `stepDirective` prescribes
them; `done` may go on. -/
inductive Status : List Char → Verdict → Prop
  | done : Status "done".toList .done
  | doneWith {gap words : List Char} (apart : Gap gap) (plain : Plain words) :
      Status ("done".toList ++ (gap ++ words)) .done
  | continue : Status "continue".toList (.continue none)
  | continueWith {gap steer : List Char} (apart : Gap gap) (plain : Plain steer) :
      Status ("continue".toList ++ (gap ++ steer)) (.continue (some (String.ofList steer)))
  | blocked : Status "blocked".toList (.blocked "blocked")
  | blockedWith {gap reason : List Char} (apart : Gap gap) (plain : Plain reason) :
      Status ("blocked".toList ++ (gap ++ reason)) (.blocked (String.ofList reason))

/-- A line that spells a verdict, with white space around the marker and after
the status. -/
def Spells (line : List Char) (v : Verdict) : Prop :=
  ∃ pre gap status post, line = pre ++ ("GOAL_STEP:".toList ++ (gap ++ status) ++ post) ∧
    Blank pre ∧ Blank gap ∧ Blank post ∧ Status status v

/-- The first word after the marker. -/
def statusWord (line : List Char) : List Char :=
  (trim ((trim line).drop "GOAL_STEP:".toList.length)).takeWhile (!isWhitespace ·)

/-- The last verdict line of a reply. -/
def LastVerdictLine (reply : String) (line : List Char) : Prop :=
  ∃ before after, lines reply.toList = before ++ line :: after ∧ IsVerdictLine line ∧
    ∀ later ∈ after, ¬ IsVerdictLine later

/-! ## The status -/

/-- What a status word with its text means. -/
def meaning (word tail : List Char) : Option Verdict :=
  if word = "done".toList then some .done
  else if word = "blocked".toList then
    some (.blocked (if tail.isEmpty then "blocked" else String.ofList tail))
  else if word = "continue".toList then
    some (.continue (if tail.isEmpty then none else some (String.ofList tail)))
  else none

/-- No white space in a word. -/
def Word (word : List Char) : Prop := ∀ c ∈ word, isWhitespace c = false

instance (word : List Char) : Decidable (Word word) := List.decidableBAll _ word

theorem meaning_eq_none {word tail : List Char} :
    meaning word tail = none ↔
      word ∉ ["done".toList, "continue".toList, "blocked".toList] := by
  unfold meaning
  split
  · simp_all
  · split
    · simp_all
    · split <;> simp_all

theorem Status.of_bare {word : List Char} {v : Verdict} (means : meaning word [] = some v) :
    Status word v := by
  unfold meaning at means
  split at means
  · rename_i is
    cases means
    exact is ▸ .done
  · split at means
    · rename_i is
      cases means
      exact is ▸ .blocked
    · split at means
      · rename_i is
        cases means
        exact is ▸ .continue
      · cases means

theorem Status.of_text {word gap text : List Char} {v : Verdict} (apart : Gap gap)
    (plain : Plain text) (means : meaning word text = some v) :
    Status (word ++ (gap ++ text)) v := by
  have some := plain.nonempty
  unfold meaning at means
  split at means
  · rename_i is
    cases means
    exact is ▸ .doneWith apart plain
  · split at means
    · rename_i is
      simp only [List.isEmpty_iff, some, ↓reduceIte, Option.some.injEq] at means
      exact is ▸ means ▸ .blockedWith apart plain
    · split at means
      · rename_i is
        simp only [List.isEmpty_iff, some, ↓reduceIte, Option.some.injEq] at means
        exact is ▸ means ▸ .continueWith apart plain
      · cases means

/-- A spelling is a word that has the verdict's meaning, alone or with text. -/
theorem Status.cases {status : List Char} {v : Verdict} (spelled : Status status v) :
    ∃ word, Word word ∧ word ≠ [] ∧ trim word = word ∧
      ((status = word ∧ meaning word [] = some v) ∨
        ∃ gap text, status = word ++ (gap ++ text) ∧ Gap gap ∧ Plain text ∧
          meaning word text = some v) := by
  have with_text : ∀ {text : List Char}, Plain text → text.isEmpty = false :=
    fun plain => by simpa using plain.nonempty
  cases spelled with
  | done => exact ⟨"done".toList, by decide, by decide, by decide, .inl ⟨rfl, rfl⟩⟩
  | «continue» => exact ⟨"continue".toList, by decide, by decide, by decide, .inl ⟨rfl, rfl⟩⟩
  | blocked => exact ⟨"blocked".toList, by decide, by decide, by decide, .inl ⟨rfl, rfl⟩⟩
  | doneWith apart plain =>
    exact ⟨"done".toList, by decide, by decide, by decide,
      .inr ⟨_, _, rfl, apart, plain, by simp [meaning]⟩⟩
  | continueWith apart plain =>
    exact ⟨"continue".toList, by decide, by decide, by decide,
      .inr ⟨_, _, rfl, apart, plain, by simp [meaning, with_text plain]⟩⟩
  | blockedWith apart plain =>
    exact ⟨"blocked".toList, by decide, by decide, by decide,
      .inr ⟨_, _, rfl, apart, plain, by simp [meaning, with_text plain]⟩⟩

theorem Status.nonempty {status : List Char} {v : Verdict} (spelled : Status status v) :
    status ≠ [] := by
  obtain ⟨word, -, some, -, ⟨rfl, -⟩ | ⟨gap, text, rfl, -⟩⟩ := spelled.cases
  · exact some
  · simp [some]

theorem Status.trimmed {status : List Char} {v : Verdict} (spelled : Status status v) :
    trim status = status := by
  obtain ⟨word, -, some, trimmed, ⟨rfl, -⟩ | ⟨gap, text, rfl, -, plain, -⟩⟩ := spelled.cases
  · exact trimmed
  · exact trim_join trimmed plain.trimmed some plain.nonempty gap

/-! ## Reading the status -/

theorem readVerdict_eq (rest : List Char) :
    readVerdict rest = match splitOnce (trim rest) isWhitespace with
      | some (word, tail) => meaning word (trim tail)
      | none => meaning (trim rest) [] := by
  cases cut : splitOnce (trim rest) isWhitespace <;> simp only [readVerdict, cut, meaning]

theorem splitOnce_word {word gap : List Char} (clean : Word word) (apart : Gap gap)
    (text : List Char) :
    splitOnce (word ++ (gap ++ text)) isWhitespace = some (word, gap.tail ++ text) := by
  obtain ⟨c, rest, rfl⟩ := List.exists_cons_of_ne_nil apart.2
  exact splitOnce_eq_some_iff.mpr ⟨c, rfl, apart.1 c List.mem_cons_self, clean⟩

/-- White space around a spelling is not read. -/
theorem readVerdict_status {gap status post : List Char} {v : Verdict} (before : Blank gap)
    (after : Blank post) (spelled : Status status v) :
    readVerdict (gap ++ (status ++ post)) = some v := by
  rw [readVerdict_eq, trim_append_of_blank before, trim_append_blank after, spelled.trimmed]
  obtain ⟨word, clean, -, trimmed, ⟨rfl, means⟩ | ⟨sep, text, rfl, apart, plain, means⟩⟩ :=
    spelled.cases
  · rw [splitOnce_eq_none_iff.mpr clean]
    exact means
  · have blank : Blank sep.tail := fun c hc => apart.1 c (List.mem_of_mem_tail hc)
    rw [splitOnce_word clean apart]
    simp only [trim_append_of_blank blank, plain.trimmed, means]

theorem blank_of_trim_eq_nil {s : List Char} (h : trim s = []) : Blank s := by
  rw [← solid_eq_zero, ← solid_trim, h]
  rfl

/-- What is read is a spelling between white space. -/
theorem status_of_readVerdict {rest : List Char} {v : Verdict} (single : '\n' ∉ rest)
    (read : readVerdict rest = some v) :
    ∃ gap status post, rest = gap ++ (status ++ post) ∧ Blank gap ∧ Blank post ∧
      Status status v := by
  obtain ⟨gap, post, split, before, after⟩ := trim_split rest
  rw [readVerdict_eq] at read
  cases cut : splitOnce (trim rest) isWhitespace with
  | none =>
    rw [cut] at read
    exact ⟨gap, trim rest, post, split, before, after, .of_bare read⟩
  | some parts =>
    obtain ⟨word, tail⟩ := parts
    rw [cut] at read
    obtain ⟨c, core, white, -⟩ := splitOnce_eq_some_iff.mp cut
    obtain ⟨front, back, tail_split, front_blank, back_blank⟩ := trim_split tail
    by_cases bare : trim tail = []
    · have blank := blank_of_trim_eq_nil bare
      refine ⟨gap, word, c :: tail ++ post, by rw [split, core]; simp, before, ?_,
        .of_bare (by simpa [bare] using read)⟩
      simpa [Blank, white, or_imp, forall_and] using And.intro blank after
    · have clean : '\n' ∉ trim tail := by
        intro newline
        have inside : '\n' ∈ tail := by
          rw [tail_split]
          simp [newline]
        rw [split, core] at single
        exact single (by simp [inside])
      refine ⟨gap, word ++ (c :: front ++ trim tail), back ++ post, ?_, before, ?_,
        .of_text ⟨?_, by simp⟩ ⟨bare, trim_trim tail, clean⟩ read⟩
      · conv_lhs => rw [split, core, tail_split]
        simp
      · simpa [Blank, or_imp, forall_and] using And.intro back_blank after
      · simpa [Blank, white] using front_blank

/-! ## The line -/

theorem verdictRest_eq_some {line rest : List Char} :
    verdictRest line = some rest ↔ trim line = "GOAL_STEP:".toList ++ rest :=
  stripPrefix_eq_some

theorem verdictRest_eq_none {line : List Char} :
    verdictRest line = none ↔ ¬ IsVerdictLine line := by
  rw [Option.eq_none_iff_forall_ne_some, IsVerdictLine]
  constructor
  · rintro none ⟨rest, starts⟩
    exact none rest (verdictRest_eq_some.mpr starts.symm)
  · intro other rest found
    exact other ⟨rest, (verdictRest_eq_some.mp found).symm⟩

theorem spells_iff {line : List Char} (single : '\n' ∉ line) {v : Verdict} :
    Spells line v ↔ ∃ rest, verdictRest line = some rest ∧ readVerdict rest = some v := by
  constructor
  · rintro ⟨pre, gap, status, post, rfl, before, white, after, spelled⟩
    have marker : trim "GOAL_STEP:".toList = "GOAL_STEP:".toList := by decide
    refine ⟨gap ++ status, verdictRest_eq_some.mpr ?_, ?_⟩
    · rw [trim_append_of_blank before, trim_append_blank after]
      exact trim_join marker spelled.trimmed (by decide) spelled.nonempty gap
    · have nothing : Blank [] := by simp [Blank]
      have read := readVerdict_status white nothing spelled
      rwa [List.append_nil] at read
  · rintro ⟨rest, found, read⟩
    have starts := verdictRest_eq_some.mp found
    obtain ⟨pre, post, split, before, after⟩ := trim_split line
    have clean : '\n' ∉ rest := by
      intro newline
      rw [split, starts] at single
      exact single (by simp [newline])
    obtain ⟨gap, status, back, rfl, white, blank, spelled⟩ := status_of_readVerdict clean read
    refine ⟨pre, gap, status, back ++ post, ?_, before, white, ?_, spelled⟩
    · rw [split, starts]
      simp
    · simpa [Blank, or_imp, forall_and] using And.intro blank after

theorem statusWord_eq {line rest : List Char} (found : verdictRest line = some rest) :
    statusWord line = (trim rest).takeWhile (!isWhitespace ·) := by
  rw [statusWord, verdictRest_eq_some.mp found, List.drop_left]

/-- A status is unknown by its word alone. -/
theorem readVerdict_eq_none {rest : List Char} :
    readVerdict rest = none ↔ (trim rest).takeWhile (!isWhitespace ·) ∉
      ["done".toList, "continue".toList, "blocked".toList] := by
  rw [readVerdict_eq]
  cases cut : splitOnce (trim rest) isWhitespace with
  | none =>
    have clean := splitOnce_eq_none_iff.mp cut
    rw [List.takeWhile_eq_self_iff.mpr (by simpa using clean)]
    exact meaning_eq_none
  | some parts =>
    obtain ⟨c, core, white, clean⟩ := splitOnce_eq_some_iff.mp cut
    rw [core, List.takeWhile_append_of_pos (by simpa using clean),
      List.takeWhile_cons_of_neg (by simp [white]), List.append_nil]
    exact meaning_eq_none

/-! ## The reply -/

theorem lastMark_eq_none {text : List Char} :
    lastMark text = none ↔ ∀ line ∈ lines text, ¬ IsVerdictLine line := by
  rw [← findSome_lines, List.findSome?_eq_none_iff]
  simp only [List.mem_reverse, verdictRest_eq_none]

theorem lastMark_eq_some {reply : String} {rest : List Char} :
    lastMark reply.toList = some rest ↔
      ∃ line, LastVerdictLine reply line ∧ verdictRest line = some rest := by
  rw [← findSome_lines, Runs.last_write_iff]
  simp only [verdictRest_eq_none]
  constructor
  · rintro ⟨before, line, after, split, found, none⟩
    have marked : IsVerdictLine line := ⟨rest, (verdictRest_eq_some.mp found).symm⟩
    exact ⟨line, ⟨before, after, split, marked, none⟩, found⟩
  · rintro ⟨line, ⟨before, after, split, -, none⟩, found⟩
    exact ⟨before, line, after, split, found, none⟩

theorem LastVerdictLine.found {reply : String} {line : List Char}
    (last : LastVerdictLine reply line) :
    ∃ rest, verdictRest line = some rest ∧ lastMark reply.toList = some rest := by
  obtain ⟨rest, starts⟩ : IsVerdictLine line := by
    obtain ⟨-, -, -, marked, -⟩ := last
    exact marked
  have found := verdictRest_eq_some.mpr starts.symm
  exact ⟨rest, found, lastMark_eq_some.mpr ⟨line, last, found⟩⟩

theorem LastVerdictLine.single {reply : String} {line : List Char}
    (last : LastVerdictLine reply line) : '\n' ∉ line := by
  obtain ⟨before, after, split, -⟩ := last
  exact single_of_mem_lines (s := reply.toList) (by simp [split])

theorem parse_of_spells {body trailing : String} {line : List Char} {v : Verdict}
    (single : '\n' ∉ line) (spells : Spells line v)
    (silent : ∀ later ∈ lines trailing.toList, ¬ IsVerdictLine later) :
    parseGoalStep (body ++ "\n" ++ String.ofList line ++ "\n" ++ trailing) = some v := by
  obtain ⟨rest, found, read⟩ := (spells_iff single).mp spells
  have shape : (body ++ "\n" ++ String.ofList line ++ "\n" ++ trailing).toList =
      (body.toList ++ '\n' :: line) ++ '\n' :: trailing.toList := by
    simp
  rw [parseGoalStep_eq, shape, lastMark_newline, lastMark_newline, lastMark_eq_none.mpr silent,
    lastMark_line single, found]
  exact read

theorem spells_of_parse {reply : String} {v : Verdict} (parsed : parseGoalStep reply = some v) :
    ∃ line, LastVerdictLine reply line ∧ Spells line v := by
  rw [parseGoalStep_eq, Option.bind_eq_some_iff] at parsed
  obtain ⟨rest, mark, read⟩ := parsed
  obtain ⟨line, last, found⟩ := lastMark_eq_some.mp mark
  exact ⟨line, last, (spells_iff last.single).mpr ⟨rest, found, read⟩⟩

theorem parse_eq_none_iff {reply : String} :
    parseGoalStep reply = none ↔
      (∀ line ∈ lines reply.toList, ¬ IsVerdictLine line) ∨
        ∃ line, LastVerdictLine reply line ∧
          statusWord line ∉ ["done".toList, "continue".toList, "blocked".toList] := by
  rw [parseGoalStep_eq, ← lastMark_eq_none]
  constructor
  · intro silent
    cases mark : lastMark reply.toList with
    | none => exact .inl rfl
    | some rest =>
      obtain ⟨line, last, found⟩ := lastMark_eq_some.mp mark
      rw [mark, Option.bind_some, readVerdict_eq_none, ← statusWord_eq found] at silent
      exact .inr ⟨line, last, silent⟩
  · rintro (none | ⟨line, last, unknown⟩)
    · rw [none, Option.bind_none]
    · obtain ⟨rest, found, mark⟩ := last.found
      rw [mark, Option.bind_some, readVerdict_eq_none, ← statusWord_eq found]
      exact unknown

/-- **The verdict convention.** A line that spells a verdict decides the reply
if no verdict line comes after it, whatever comes before; a reply that parses
does so by its last verdict line; and it does not exactly when it has none or
that line's status is unknown. -/
theorem parse_iff_convention :
    (∀ (body trailing : String) (line : List Char) (v : Verdict), '\n' ∉ line → Spells line v →
      (∀ later ∈ lines trailing.toList, ¬ IsVerdictLine later) →
      parseGoalStep (body ++ "\n" ++ String.ofList line ++ "\n" ++ trailing) = some v) ∧
    ∀ reply : String,
      (∀ v, parseGoalStep reply = some v → ∃ line, LastVerdictLine reply line ∧ Spells line v) ∧
      (parseGoalStep reply = none ↔
        (∀ line ∈ lines reply.toList, ¬ IsVerdictLine line) ∨
          ∃ line, LastVerdictLine reply line ∧
            statusWord line ∉ ["done".toList, "continue".toList, "blocked".toList]) := by
  constructor
  · intro body trailing line v single spells silent
    exact parse_of_spells single spells silent
  · intro reply
    exact ⟨fun v => spells_of_parse, parse_eq_none_iff⟩

end ApexosRv
