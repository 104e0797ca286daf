import ApexosRv.Directive
import ApexosRv.Link
import Mathlib.Data.List.ReduceOption

/-!
# Goal turns over the gateway wire

`MeshInference` (`kernel/src/net/mesh.rs`): a step is one `user_prompt` out,
`agent_text` deltas in, and a `turn_complete` that yields the verdict. A turn
needs `send_text` and `try_next_text` of its `Mesh`, which is any `Link` of
texts here; `Mesh` below is the one whose receive schedule is written out.
`Polled` says once what a poll of a goal on such an inference can do.
-/

namespace ApexosRv

/-- Client → gateway conversation frames. -/
inductive ClientFrame where
  | userPrompt (text : String)
  deriving DecidableEq, Repr

/-- The entry points of `serde_json` the kernel uses: `from_str::<Event>`,
whose errors are not looked at, and `to_string`, which cannot fail for these
types. -/
class SerdeJson where
  eventFromStr : String → Option Event
  eventToString : Event → String
  frameToString : ClientFrame → String

/-- `Mesh` by whole text messages. `inbound` is what `try_next_text` will
answer, call by call, as far as the run is looked at: a text, or none where no
message is complete yet. -/
structure Mesh where
  sessionId : UInt64
  inbound : List (Option String)
  sent : List String
  deriving DecidableEq, Repr

namespace Mesh

def sendText (m : Mesh) (payload : String) : Mesh := { m with sent := m.sent ++ [payload] }

def tryNextText (m : Mesh) : Option String × Mesh :=
  match m.inbound with
  | [] => (none, m)
  | answer :: later => (answer, { m with inbound := later })

instance : Link Mesh String where
  send := sendText
  receive := tryNextText
  sent := Mesh.sent
  unread m := m.inbound.reduceOption
  sent_send _ _ := rfl
  unread_send _ _ := rfl
  sent_receive m := by
    unfold tryNextText
    split <;> rfl
  unread_receive m := by
    unfold tryNextText
    split
    · rename_i h
      simp [h]
    · rename_i answer later h
      cases answer <;> simp [h]

end Mesh

/-- The part of `Mesh` a turn uses. -/
abbrev TextLink (M : Type) := Link M String

structure MeshInference (M : Type) where
  mesh : M
  reply : String
  inFlight : Bool
  deriving DecidableEq, Repr

/-! ## What a text means to a turn -/

section
variable [SerdeJson]

/-- The two kinds of message a turn reacts to. -/
inductive Signal where
  | delta (text : String)
  | complete
  deriving DecidableEq, Repr

def signal (text : String) : Option Signal :=
  match SerdeJson.eventFromStr text with
  | some (.agentText _ delta) => some (.delta delta)
  | some (.turnComplete _) => some .complete
  | _ => none

def signals (texts : List String) : List Signal := texts.filterMap signal

@[simp] theorem signals_nil : signals [] = [] := rfl

@[simp] theorem signals_append (a b : List String) : signals (a ++ b) = signals a ++ signals b :=
  List.filterMap_append

theorem signals_cons (text : String) (rest : List String) :
    signals (text :: rest) = (signal text).toList ++ signals rest := by
  cases h : signal text <;> simp [signals, h]

end

/-- The reply after more deltas. -/
def hear (reply : String) (deltas : List String) : String := deltas.foldl (· ++ ·) reply

@[simp] theorem hear_nil (reply : String) : hear reply [] = reply := rfl

@[simp] theorem hear_cons (reply delta : String) (rest : List String) :
    hear reply (delta :: rest) = hear (reply ++ delta) rest := rfl

theorem hear_append (reply : String) (a b : List String) :
    hear reply (a ++ b) = hear (hear reply a) b := List.foldl_append

/-! ## One turn -/

namespace MeshInference

section
variable {M : Type}

def new (mesh : M) : MeshInference M := ⟨mesh, "", false⟩

variable [TextLink M] [SerdeJson]

/-- The `while let Some(text) = self.mesh.try_next_text()` loop of `next`. -/
def listen : Nat → MeshInference M → TurnResult × MeshInference M
  | 0, self => (.pending, self)
  | fuel + 1, self =>
    match Link.receive self.mesh with
    | (none, mesh) => (.pending, { self with mesh })
    | (some text, mesh) =>
      match SerdeJson.eventFromStr text with
      | some (.agentText _ delta) =>
        listen fuel { self with mesh, reply := self.reply ++ delta }
      | some (.turnComplete _) =>
        (.completed (turnVerdict self.reply), { self with mesh, inFlight := false })
      | some _ => listen fuel { self with mesh }
      | none => listen fuel { self with mesh }

def promptText (ctx : TickContext) : String :=
  SerdeJson.frameToString (.userPrompt (stepDirective ctx))

/-- The link has no more texts than `unread`, so the loop never runs out of
rounds (`listen_spec`). -/
def next (self : MeshInference M) (ctx : TickContext) : TurnResult × MeshInference M :=
  if !self.inFlight then
    (.pending, { mesh := Link.send self.mesh (promptText ctx), inFlight := true, reply := "" })
  else listen ((Link.unread self.mesh).length + 1) self

instance : Inference (MeshInference M) := ⟨next⟩

/-- What the loop did: it took texts off the link up to the first
`turn_complete`, or until the link had none. -/
inductive Listened (self : MeshInference M) : TurnResult × MeshInference M → Prop where
  | quiet (mesh : M) (taken deltas : List String)
      (stream : Link.unread self.mesh = taken ++ Link.unread mesh)
      (sent : Link.sent mesh = Link.sent self.mesh)
      (heard : signals taken = deltas.map .delta) :
      Listened self (.pending, ⟨mesh, hear self.reply deltas, self.inFlight⟩)
  | complete (mesh : M) (taken deltas : List String)
      (stream : Link.unread self.mesh = taken ++ Link.unread mesh)
      (sent : Link.sent mesh = Link.sent self.mesh)
      (heard : signals taken = deltas.map .delta ++ [.complete]) :
      Listened self
        (.completed (turnVerdict (hear self.reply deltas)),
          ⟨mesh, hear self.reply deltas, false⟩)

/-- A text taken in front of what was listened to afterwards. -/
theorem Listened.after {self : MeshInference M} {mesh : M} {text : String}
    {out : TurnResult × MeshInference M} (deltas : List String)
    (received : Link.receive self.mesh = (some text, mesh))
    (means : (signal text).toList = deltas.map .delta)
    (rest : Listened { self with mesh, reply := hear self.reply deltas } out) :
    Listened self out := by
  have stream₀ := Link.unread_of_some received
  have sent₀ := Link.sent_of_receive received
  cases rest with
  | quiet mesh' taken deltas' stream sent heard =>
    rw [← hear_append]
    exact .quiet mesh' (text :: taken) (deltas ++ deltas')
      (by rw [stream₀, stream]; rfl) (sent.trans sent₀)
      (by rw [signals_cons, means, heard, List.map_append])
  | complete mesh' taken deltas' stream sent heard =>
    rw [← hear_append]
    exact .complete mesh' (text :: taken) (deltas ++ deltas')
      (by rw [stream₀, stream]; rfl) (sent.trans sent₀)
      (by rw [signals_cons, means, heard, List.map_append, List.append_assoc])

theorem listen_spec (self : MeshInference M) {fuel : Nat}
    (enough : (Link.unread self.mesh).length < fuel) : Listened self (listen fuel self) := by
  induction fuel generalizing self with
  | zero => omega
  | succ fuel ih =>
    cases received : Link.receive self.mesh with
    | mk answer mesh =>
      cases answer with
      | none =>
        simp only [listen, received]
        exact .quiet mesh [] [] (Link.unread_of_none received) (Link.sent_of_receive received) rfl
      | some text =>
        have shorter : (Link.unread mesh).length < fuel := by
          rw [Link.unread_of_some received, List.length_cons] at enough
          omega
        -- The four arms of the match on the decoded text.
        simp only [listen, received]
        split
        · rename_i session delta decoded
          exact .after [delta] received (by simp [signal, decoded]) (ih _ shorter)
        · rename_i session decoded
          exact .complete mesh [text] [] (Link.unread_of_some received)
            (Link.sent_of_receive received) (by simp [signals, signal, decoded])
        · rename_i event notText notComplete decoded
          refine .after [] received ?_ (ih _ shorter)
          simp only [signal, decoded]
          split <;> simp_all
        · rename_i decoded
          exact .after [] received (by simp [signal, decoded]) (ih _ shorter)

/-- A loop that leaves the turn in flight has read the link until it had no text. -/
theorem listen_drains (self : MeshInference M) {fuel : Nat}
    (enough : (Link.unread self.mesh).length < fuel)
    (flying : (listen fuel self).2.inFlight = true) :
    ∃ texts, Link.Drained self.mesh texts (listen fuel self).2.mesh := by
  induction fuel generalizing self with
  | zero => omega
  | succ fuel ih =>
    rcases received : Link.receive self.mesh with ⟨_ | text, mesh⟩
    · simp only [listen, received]
      exact ⟨[], .none received⟩
    have shorter : (Link.unread mesh).length < fuel := by
      rw [Link.unread_of_some received, List.length_cons] at enough
      omega
    simp only [listen, received] at flying ⊢
    split at flying
    · obtain ⟨texts, drained⟩ := ih _ shorter flying
      exact ⟨text :: texts, .some received drained⟩
    · cases flying
    · obtain ⟨texts, drained⟩ := ih _ shorter flying
      exact ⟨text :: texts, .some received drained⟩
    · obtain ⟨texts, drained⟩ := ih _ shorter flying
      exact ⟨text :: texts, .some received drained⟩

end

end MeshInference

/-! ## One poll of a goal on the mesh -/

section
variable {M : Type} [TextLink M] [SerdeJson]

/-- What one poll can do: nothing once the goal has left `Acting`, send the
step's prompt, wait, or apply the verdict of the turn. -/
inductive Polled (g : GoalRun (MeshInference M)) : GoalRun (MeshInference M) → Prop where
  | idle (idle : g.driver.acting = false) : Polled g g
  | prompts (act : g.driver.acting = true) (grounded : g.inf.inFlight = false) :
      Polled g
        { g with
          inf := ⟨Link.send g.inf.mesh (MeshInference.promptText g.driver.context), "", true⟩
          consulted := g.consulted ++ [(g.driver.context, .pending)] }
  | waits (act : g.driver.acting = true) (flying : g.inf.inFlight = true)
      (mesh : M) (taken deltas : List String)
      (stream : Link.unread g.inf.mesh = taken ++ Link.unread mesh)
      (sent : Link.sent mesh = Link.sent g.inf.mesh)
      (heard : signals taken = deltas.map .delta) :
      Polled g
        { g with
          inf := ⟨mesh, hear g.inf.reply deltas, true⟩
          consulted := g.consulted ++ [(g.driver.context, .pending)] }
  | answers (act : g.driver.acting = true) (flying : g.inf.inFlight = true)
      (mesh : M) (taken deltas : List String) (verdict : Verdict)
      (stream : Link.unread g.inf.mesh = taken ++ Link.unread mesh)
      (sent : Link.sent mesh = Link.sent g.inf.mesh)
      (heard : signals taken = deltas.map .delta ++ [.complete])
      (reads : verdict = turnVerdict (hear g.inf.reply deltas)) :
      Polled g
        { driver := (g.driver.advance (.completed verdict)).1
          inf := ⟨mesh, hear g.inf.reply deltas, false⟩
          emitted := g.emitted ++ (g.driver.advance (.completed verdict)).2
          consulted := g.consulted ++ [(g.driver.context, .completed verdict)] }

theorem polled (g : GoalRun (MeshInference M)) : Polled g g.poll := by
  cases act : g.driver.acting
  · rw [GoalRun.poll_idle act]
    exact .idle act
  · rw [GoalRun.poll_acting act]
    cases flying : g.inf.inFlight
    · have sends : Inference.next g.inf g.driver.context = (.pending,
          ⟨Link.send g.inf.mesh (MeshInference.promptText g.driver.context), "", true⟩) := by
        simp [Inference.next, MeshInference.next, flying]
      simpa [sends] using Polled.prompts act flying
    · have listens : MeshInference.Listened g.inf (Inference.next g.inf g.driver.context) := by
        have heard := MeshInference.listen_spec g.inf (Nat.lt_succ_self _)
        simpa [Inference.next, MeshInference.next, flying] using heard
      generalize Inference.next g.inf g.driver.context = out at listens
      cases listens with
      | quiet mesh taken deltas stream sent heard =>
        simpa [flying] using Polled.waits act flying mesh taken deltas stream sent heard
      | complete mesh taken deltas stream sent heard =>
        exact .answers act flying mesh taken deltas _ stream sent heard rfl

/-- What a poll gets done while the goal acts: it sends the step's prompt, reads all that
the link hands out, or ends the turn with a verdict. -/
inductive Moves (g : GoalRun (MeshInference M)) : GoalRun (MeshInference M) → Prop where
  | sends {g' : GoalRun (MeshInference M)} (grounded : g.inf.inFlight = false)
      (flying : g'.inf.inFlight = true) (sent : Link.sent g'.inf.mesh =
        Link.sent g.inf.mesh ++ [MeshInference.promptText g.driver.context]) : Moves g g'
  | drains {g' : GoalRun (MeshInference M)} (flying : g.inf.inFlight = true)
      (still : g'.inf.inFlight = true) (texts : List String)
      (drained : Link.Drained g.inf.mesh texts g'.inf.mesh) : Moves g g'
  | ends {g' : GoalRun (MeshInference M)} (flying : g.inf.inFlight = true)
      (grounded : g'.inf.inFlight = false)
      (applied : g'.applied.length = g.applied.length + 1) : Moves g g'

theorem moves {g : GoalRun (MeshInference M)} (act : g.driver.acting = true) : Moves g g.poll := by
  have drains (flying : g.inf.inFlight = true) (still : g.poll.inf.inFlight = true) :
      ∃ texts, Link.Drained g.inf.mesh texts g.poll.inf.mesh := by
    have listens : g.poll.inf =
        (MeshInference.listen ((Link.unread g.inf.mesh).length + 1) g.inf).2 := by
      simp [GoalRun.poll_acting act, Inference.next, MeshInference.next, flying]
    rw [listens] at still ⊢
    exact MeshInference.listen_drains _ (Nat.lt_succ_self _) still
  have step := polled g
  generalize g.poll = g' at step drains
  cases step with
  | idle idle =>
    rw [act] at idle
    cases idle
  | prompts _ grounded => exact .sends grounded rfl (Link.sent_send _ _)
  | waits _ flying =>
    obtain ⟨texts, drained⟩ := drains flying rfl
    exact .drains flying rfl texts drained
  | answers _ flying =>
    refine .ends flying rfl ?_
    rw [GoalRun.applied_of_consulted (g := g) g.driver.context rfl]
    simp

end

end ApexosRv
