import Mathlib.Data.Nat.Notation

/-!
# Programs with loops that may panic

A program in `Fueled` may panic and may run without end: a number bounds the
rounds of its loops, and it has no result where that number is too low. What a
run with some bound comes to, one with a higher bound comes to as well, so a
program has one result at most (`Ends.unique`).

* `Ends` is the result of a run with rounds enough, with a rule for every way to
  build a program; `Ends.loop` is the rule for what every round of a loop keeps;
* `Comes` says that there is a result, and what holds of it; `Comes.loop` asks for
  an invariant and a bound on what is left to do.
-/

structure Fueled (ε α : Type) where
  run : ℕ → Option (Except ε α)
  grows : ∀ {m n r}, run m = some r → m ≤ n → run n = some r

namespace Fueled

section
variable {ε ε' σ α β : Type}

instance : Monad (Fueled ε) where
  pure a := ⟨fun _ => some (.ok a), fun ran _ => ran⟩
  bind p f :=
    { run fuel :=
        match p.run fuel with
        | some (.ok a) => (f a).run fuel
        | some (.error e) => some (.error e)
        | none => none
      grows {m n r} ran le := by
        rcases first : p.run m with _ | e | a
        · rw [first] at ran
          cases ran
        · rw [first] at ran
          rw [p.grows first le]
          exact ran
        · rw [first] at ran
          rw [p.grows first le]
          exact (f a).grows ran le }

def panic (e : ε) : Fueled ε α := ⟨fun _ => some (.error e), fun ran _ => ran⟩

/-- The program with its panics read in another way. -/
def mapError (g : ε → ε') (p : Fueled ε α) : Fueled ε' α where
  run fuel := (p.run fuel).map (·.mapError g)
  grows {m n r} ran le := by
    obtain ⟨r, first, rfl⟩ := Option.map_eq_some_iff.mp ran
    rw [p.grows first le]
    rfl

/-- A function that bounds its own rounds, with `none` in its result for a panic. -/
def call (e : ε) (g : ℕ → Option (Option α))
    (grows : ∀ {m n r}, g m = some r → m ≤ n → g n = some r) : Fueled ε α where
  run fuel := (g fuel).map (·.elim (.error e) .ok)
  grows {m n r} ran le := by
    obtain ⟨r, first, rfl⟩ := Option.map_eq_some_iff.mp ran
    rw [grows first le]
    rfl

/-- The rounds of a loop whose body goes on with a state or breaks with a value. -/
def rounds (body : σ → Fueled ε (σ ⊕ α)) : ℕ → σ → Option (Except ε α)
  | 0, _ => none
  | n + 1, s =>
    match (body s).run n with
    | some (.ok (.inl s)) => rounds body n s
    | some (.ok (.inr a)) => some (.ok a)
    | some (.error e) => some (.error e)
    | none => none

theorem rounds_grows (body : σ → Fueled ε (σ ⊕ α)) {m n : ℕ} {s : σ} {r : Except ε α}
    (ran : rounds body m s = some r) (le : m ≤ n) : rounds body n s = some r := by
  induction m generalizing n s with
  | zero => cases ran
  | succ m ih =>
    obtain ⟨n, rfl⟩ : ∃ k, n = k + 1 := ⟨n - 1, by omega⟩
    rw [rounds] at ran ⊢
    rcases first : (body s).run m with _ | e | s' | a
    · rw [first] at ran
      cases ran
    all_goals
      rw [first] at ran
      rw [(body s).grows first (by omega)]
    · exact ran
    · exact ih ran (by omega)
    · exact ran

/-- `loop { .. }`. -/
def loop (body : σ → Fueled ε (σ ⊕ α)) (s : σ) : Fueled ε α :=
  ⟨fun fuel => rounds body fuel s, rounds_grows body⟩

/-- What the program comes to, with rounds enough. -/
def Ends (p : Fueled ε α) (r : Except ε α) : Prop := ∃ fuel, p.run fuel = some r

variable {p : Fueled ε α} {f : α → Fueled ε β} {a : α} {e : ε}

theorem Ends.unique {r r' : Except ε α} (ends : Ends p r) (ends' : Ends p r') : r = r' := by
  obtain ⟨m, ran⟩ := ends
  obtain ⟨n, ran'⟩ := ends'
  have first := p.grows ran (Nat.le_max_left m n)
  have second := p.grows ran' (Nat.le_max_right m n)
  exact Option.some.inj (first.symm.trans second)

theorem Ends.return (a : α) : Ends (pure a : Fueled ε α) (.ok a) := ⟨0, rfl⟩

theorem Ends.panic (e : ε) : Ends (Fueled.panic e : Fueled ε α) (.error e) := ⟨0, rfl⟩

theorem Ends.bind {r : Except ε β} (first : Ends p (.ok a)) (next : Ends (f a) r) :
    Ends (p >>= f) r := by
  obtain ⟨m, ran⟩ := first
  obtain ⟨n, ran'⟩ := next
  refine ⟨max m n, ?_⟩
  simp only [Bind.bind, p.grows ran (Nat.le_max_left m n)]
  exact (f a).grows ran' (Nat.le_max_right m n)

/-- A panic skips what comes after it. -/
theorem Ends.stop (first : Ends p (.error e)) (f : α → Fueled ε β) :
    Ends (p >>= f) (.error e) := by
  obtain ⟨m, ran⟩ := first
  exact ⟨m, by simp only [Bind.bind, ran]⟩

theorem Ends.mapError {r : Except ε α} (ends : Ends p r) (g : ε → ε') :
    Ends (mapError g p) (r.mapError g) := by
  obtain ⟨m, ran⟩ := ends
  exact ⟨m, by simp only [Fueled.mapError, ran, Option.map_some]⟩

theorem Ends.call {g : ℕ → Option (Option α)}
    (grows : ∀ {m n r}, g m = some r → m ≤ n → g n = some r) (e : ε) {m : ℕ} {r : Option α}
    (ran : g m = some r) : Ends (Fueled.call e g grows) (r.elim (.error e) .ok) :=
  ⟨m, by simp only [Fueled.call, ran, Option.map_some]⟩

section
variable {body : σ → Fueled ε (σ ⊕ α)} {s s' : σ}

theorem Ends.again {r : Except ε α} (round : Ends (body s) (.ok (.inl s')))
    (rest : Ends (loop body s') r) : Ends (loop body s) r := by
  obtain ⟨m, ran⟩ := round
  obtain ⟨n, ran'⟩ := rest
  refine ⟨max m n + 1, ?_⟩
  show rounds body (max m n + 1) s = _
  rw [rounds, (body s).grows ran (Nat.le_max_left m n)]
  exact rounds_grows body ran' (Nat.le_max_right m n)

theorem Ends.breaks (round : Ends (body s) (.ok (.inr a))) : Ends (loop body s) (.ok a) := by
  obtain ⟨m, ran⟩ := round
  refine ⟨m + 1, ?_⟩
  show rounds body (m + 1) s = _
  rw [rounds, ran]

theorem Ends.fails (round : Ends (body s) (.error e)) : Ends (loop body s) (.error e) := by
  obtain ⟨m, ran⟩ := round
  refine ⟨m + 1, ?_⟩
  show rounds body (m + 1) s = _
  rw [rounds, ran]

/-- What each round keeps holds where the loop breaks or panics. -/
theorem Ends.loop {I : σ → Prop} {Q : Except ε α → Prop}
    (round : ∀ s, I s → ∀ r, Ends (body s) r → match r with
      | .ok (.inl s') => I s'
      | .ok (.inr a) => Q (.ok a)
      | .error e => Q (.error e)) (start : I s) {r : Except ε α}
    (ends : Ends (Fueled.loop body s) r) : Q r := by
  obtain ⟨n, ran⟩ := ends
  change rounds body n s = some r at ran
  induction n generalizing s with
  | zero => cases ran
  | succ n ih =>
    rw [rounds] at ran
    rcases first : (body s).run n with _ | e | s' | a
    · rw [first] at ran
      cases ran
    all_goals
      have kept := round s start _ ⟨n, first⟩
      rw [first] at ran
    · cases ran
      exact kept
    · exact ih kept ran
    · cases ran
      exact kept

end

/-- The program ends, with a result of this kind. -/
def Comes (p : Fueled ε α) (Q : Except ε α → Prop) : Prop := ∃ r, Ends p r ∧ Q r

variable {Q : Except ε α → Prop} {R : Except ε β → Prop}

theorem Comes.of_ends {r : Except ε α} (comes : Comes p Q) (ends : Ends p r) : Q r := by
  obtain ⟨r', ends', holds⟩ := comes
  rwa [ends.unique ends']

theorem Comes.mono {Q' : Except ε α → Prop} (comes : Comes p Q) (weaker : ∀ r, Q r → Q' r) :
    Comes p Q' := by
  obtain ⟨r, ends, holds⟩ := comes
  exact ⟨r, ends, weaker r holds⟩

theorem Comes.return (holds : Q (.ok a)) : Comes (pure a) Q := ⟨_, .return a, holds⟩

theorem Comes.panic (holds : Q (.error e)) : Comes (panic e) Q := ⟨_, .panic e, holds⟩

theorem Comes.bind (first : Comes p fun
      | .ok a => Comes (f a) R
      | .error e => R (.error e)) : Comes (p >>= f) R := by
  obtain ⟨r, ends, next⟩ := first
  cases r with
  | error e => exact ⟨_, ends.stop f, next⟩
  | ok a =>
    obtain ⟨r, ends', holds⟩ := next
    exact ⟨r, ends.bind ends', holds⟩

/-- A loop ends if each round breaks, panics, or leaves less to do. -/
theorem Comes.loop {body : σ → Fueled ε (σ ⊕ α)} {I : ℕ → σ → Prop}
    (round : ∀ n s, I n s → Comes (body s) fun
      | .ok (.inl s') => ∃ m < n, I m s'
      | .ok (.inr a) => Q (.ok a)
      | .error e => Q (.error e)) {n : ℕ} {s : σ} (start : I n s) : Comes (loop body s) Q := by
  induction n using Nat.strongRecOn generalizing s with
  | _ n ih =>
    obtain ⟨r, ends, holds⟩ := round n s start
    rcases r with e | s' | a
    · exact ⟨_, ends.fails, holds⟩
    · obtain ⟨m, less, kept⟩ := holds
      obtain ⟨r, ends', holds'⟩ := ih m less kept
      exact ⟨r, ends.again ends', holds'⟩
    · exact ⟨_, ends.breaks, holds⟩

end

end Fueled
