import ApexosRv.Mesh
import Mathlib.Logic.Function.Iterate

/-!
# A goal on a mesh with its schedule written out

What the receive loop makes of the answers of `try_next_text` is a recursion on
these answers (`readTurn`), so that a poll is an equation. A run does not depend
on the answers it has not read (`polls_frame`).
-/

namespace ApexosRv

section
variable [SerdeJson]

/-- What the receive loop makes of the answers it gets: its result, the reply
so far and the answers left. -/
def readTurn : String → List (Option String) → TurnResult × String × List (Option String)
  | reply, [] => (.pending, reply, [])
  | reply, none :: later => (.pending, reply, later)
  | reply, some text :: later =>
    match signal text with
    | some (.delta delta) => readTurn (reply ++ delta) later
    | some .complete => (.completed (turnVerdict reply), reply, later)
    | none => readTurn reply later

theorem listen_eq_readTurn (sid : UInt64) (sent : List String) (inbound : List (Option String))
    (reply : String) {fuel : Nat} (enough : inbound.reduceOption.length < fuel) :
    MeshInference.listen fuel ⟨(⟨sid, inbound, sent⟩ : Mesh), reply, true⟩ =
      ((readTurn reply inbound).1, ⟨⟨sid, (readTurn reply inbound).2.2, sent⟩,
        (readTurn reply inbound).2.1, (readTurn reply inbound).1 == .pending⟩) := by
  induction inbound generalizing reply fuel with
  | nil => cases fuel <;> rfl
  | cons answer later ih =>
    cases fuel with
    | zero => omega
    | succ fuel =>
      cases answer with
      | none => rfl
      | some text =>
        have shorter : later.reduceOption.length < fuel := by simpa using enough
        have receives : Link.receive (⟨sid, some text :: later, sent⟩ : Mesh) =
            (some text, ⟨sid, later, sent⟩) := rfl
        simp only [MeshInference.listen, receives, readTurn, signal]
        cases decoded : SerdeJson.eventFromStr text with
        | none => exact ih reply shorter
        | some event =>
          cases event with
          | agentText session delta => exact ih (reply ++ delta) shorter
          | turnComplete session => rfl
          | _ => exact ih reply shorter

/-- The loop stops inside `front`, whatever comes behind it, or reads into what
comes behind. -/
theorem readTurn_append (reply : String) (front : List (Option String)) :
    (∃ r reply' left, ∀ back, readTurn reply (front ++ back) = (r, reply', left ++ back)) ∨
      ∃ reply', ∀ back, readTurn reply (front ++ back) = readTurn reply' back := by
  induction front generalizing reply with
  | nil => exact .inr ⟨reply, fun _ => rfl⟩
  | cons answer later ih =>
    cases answer with
    | none => exact .inl ⟨.pending, reply, later, fun _ => rfl⟩
    | some text =>
      cases means : signal text with
      | none => simpa only [List.cons_append, readTurn, means] using ih reply
      | some s =>
        cases s with
        | delta d => simpa only [List.cons_append, readTurn, means] using ih (reply ++ d)
        | complete =>
          exact .inl ⟨.completed (turnVerdict reply), reply, later, fun back => by
            simp [readTurn, means]⟩

theorem readTurn_left (reply : String) {inbound : List (Option String)} (more : inbound ≠ []) :
    (readTurn reply inbound).2.2.length < inbound.length := by
  induction inbound generalizing reply with
  | nil => exact absurd rfl more
  | cons answer later ih =>
    have keep : ∀ reply, (readTurn reply later).2.2.length < later.length + 1 := by
      intro reply
      by_cases empty : later = []
      · simp [empty, readTurn]
      · exact Nat.lt_succ_of_lt (ih reply empty)
    cases answer with
    | none => simp [readTurn]
    | some text =>
      simp only [readTurn, List.length_cons]
      split
      · exact keep _
      · simp
      · exact keep _

namespace GoalRun

/-- The same goal with its mesh about to answer `inbound`. -/
def reading (g : GoalRun (MeshInference Mesh)) (inbound : List (Option String)) :
    GoalRun (MeshInference Mesh) :=
  { g with inf := { g.inf with mesh := { g.inf.mesh with inbound } } }

/-- `g` after it has sent its step's prompt. -/
def prompted (g : GoalRun (MeshInference Mesh)) : GoalRun (MeshInference Mesh) :=
  { g with
    inf := ⟨g.inf.mesh.sendText (MeshInference.promptText g.driver.context), "", true⟩
    consulted := g.consulted ++ [(g.driver.context, .pending)] }

theorem poll_prompts {g : GoalRun (MeshInference Mesh)} (act : g.driver.acting = true)
    (grounded : g.inf.inFlight = false) : g.poll = g.prompted := by
  have sends : Inference.next g.inf g.driver.context = (.pending,
      ⟨g.inf.mesh.sendText (MeshInference.promptText g.driver.context), "", true⟩) := by
    simp only [Inference.next, MeshInference.next, grounded, Bool.not_false, ↓reduceIte]
    rfl
  simp [poll_acting act, sends, prompted]

/-- `g` after its turn has read `out`. -/
def hears (g : GoalRun (MeshInference Mesh))
    (out : TurnResult × String × List (Option String)) : GoalRun (MeshInference Mesh) where
  driver := (g.driver.advance out.1).1
  inf := ⟨{ g.inf.mesh with inbound := out.2.2 }, out.2.1, out.1 == .pending⟩
  emitted := g.emitted ++ (g.driver.advance out.1).2
  consulted := g.consulted ++ [(g.driver.context, out.1)]

theorem poll_hears {g : GoalRun (MeshInference Mesh)} (act : g.driver.acting = true)
    (flying : g.inf.inFlight = true) :
    g.poll = g.hears (readTurn g.inf.reply g.inf.mesh.inbound) := by
  obtain ⟨driver, ⟨⟨sid, inbound, sent⟩, reply, inFlight⟩, emitted, consulted⟩ := g
  simp only at act flying ⊢
  subst flying
  rw [poll_acting act]
  have listens := listen_eq_readTurn sid sent inbound reply (Nat.lt_succ_self _)
  simp only [Inference.next, MeshInference.next, Bool.not_true, Bool.false_eq_true, ↓reduceIte]
  have unread : Link.unread (⟨sid, inbound, sent⟩ : Mesh) = inbound.reduceOption := rfl
  rw [unread, listens]
  rfl

theorem reading_poll_prompts {g : GoalRun (MeshInference Mesh)} (act : g.driver.acting = true)
    (grounded : g.inf.inFlight = false) (inbound : List (Option String)) :
    (g.reading inbound).poll = g.prompted.reading inbound :=
  poll_prompts (g := g.reading inbound) act grounded

theorem reading_poll_hears {g : GoalRun (MeshInference Mesh)} (act : g.driver.acting = true)
    (flying : g.inf.inFlight = true) (inbound : List (Option String)) :
    (g.reading inbound).poll = g.hears (readTurn g.inf.reply inbound) :=
  poll_hears (g := g.reading inbound) act flying

theorem poll_inbound_le (g : GoalRun (MeshInference Mesh)) :
    g.poll.inf.mesh.inbound.length ≤ g.inf.mesh.inbound.length := by
  cases act : g.driver.acting
  · rw [poll_idle act]
  · cases flying : g.inf.inFlight
    · rw [poll_prompts act flying]
      exact Nat.le_refl _
    · rw [poll_hears act flying]
      by_cases empty : g.inf.mesh.inbound = []
      · simp [hears, empty, readTurn]
      · exact Nat.le_of_lt (readTurn_left _ empty)

theorem polls_inbound_le (n : Nat) (g : GoalRun (MeshInference Mesh)) :
    (poll^[n] g).inf.mesh.inbound.length ≤ g.inf.mesh.inbound.length := by
  induction n generalizing g with
  | zero => exact Nat.le_refl _
  | succ n ih => exact Nat.le_trans (ih g.poll) (poll_inbound_le g)

theorem poll_frame (g : GoalRun (MeshInference Mesh)) (front : List (Option String)) :
    (∃ g' left, ∀ back, (g.reading (front ++ back)).poll = reading g' (left ++ back)) ∨
      ∀ back ≠ [],
        (g.reading (front ++ back)).poll.inf.mesh.inbound.length < back.length := by
  cases act : g.driver.acting
  · exact .inl ⟨g, front, fun back => poll_idle act⟩
  · cases flying : g.inf.inFlight
    · exact .inl ⟨g.prompted, front, fun back => reading_poll_prompts act flying _⟩
    · rcases readTurn_append g.inf.reply front with ⟨r, reply, left, stops⟩ | ⟨reply, reads⟩
      · refine .inl ⟨g.hears (r, reply, []), left, ?_⟩
        intro back
        rw [reading_poll_hears act flying, stops]
        rfl
      · refine .inr ?_
        intro back more
        rw [reading_poll_hears act flying, reads]
        exact readTurn_left reply more

/-- Polls that leave something behind `front` unread do not depend on it. -/
theorem polls_frame (n : Nat) (g : GoalRun (MeshInference Mesh)) (front : List (Option String)) :
    (∃ g' left, ∀ back, poll^[n] (g.reading (front ++ back)) = reading g' (left ++ back)) ∨
      ∀ back ≠ [],
        (poll^[n] (g.reading (front ++ back))).inf.mesh.inbound.length < back.length := by
  induction n generalizing g front with
  | zero => exact .inl ⟨g, front, fun _ => rfl⟩
  | succ n ih =>
    rcases poll_frame g front with ⟨g', left, same⟩ | reads
    · rcases ih g' left with ⟨g'', left', rest⟩ | rest
      · exact .inl ⟨g'', left', fun back => by rw [Function.iterate_succ_apply, same, rest]⟩
      · exact .inr fun back more => by
          rw [Function.iterate_succ_apply, same]
          exact rest back more
    · refine .inr ?_
      intro back more
      rw [Function.iterate_succ_apply]
      exact Nat.lt_of_le_of_lt (polls_inbound_le n _) (reads back more)

end GoalRun

end

end ApexosRv
