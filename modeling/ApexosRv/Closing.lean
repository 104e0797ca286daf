import ApexosRv.Drive
import ApexosRv.RawMesh
import ApexosRv.Scripted
import ApexosRv.Wire

/-!
# Closing the session

`close_clean` (`kernel/src/net/mesh.rs`) and what becomes of the goal's result
after it. The close frame goes out through `blocking_send_raw`, which gives up
with a panic ten seconds later, and the wait for the peer's answer keeps every
byte it cannot decode. So the session is closed without a panic exactly if the
socket takes the whole frame before the first late reading of the clock
(`Line.Takes`) and the heap has room for what the wait receives
(`Awaiting.Fits`); both end in any case.
-/

namespace ApexosRv

/-! ## The kernel's side -/

/-- What an attempt to send finds of the socket: `can_send` does not hold, or
`send_slice` takes this many bytes at most, or fails. -/
inductive Offer where
  | blocked
  | accepts (bytes : Nat)
  | fails
  deriving DecidableEq, Repr

def Offer.size : Offer → Nat
  | .accepts bytes => bytes
  | .blocked => 0
  | .fails => 0

def ESTABLISH_TIMEOUT : UInt64 := 10 * TICKS_PER_SEC

/-- What a run finds around it: the readings of `mtime`, what its attempts to send
find, what its pumps receive and how many bytes the heap lets `rx_raw` hold then, by
their numbers. The clock advances, past every deadline; a deadline is a sum that wraps. -/
structure Line where
  clock : Nat → UInt64
  offers : Nat → Offer
  receives : Nat → List UInt8
  room : Nat → Nat
  steady (i : Nat) : clock i ≤ clock (i + 1)
  advances (t : UInt64) : ∃ i, t ≤ clock i
  passes (i : Nat) : ∃ j, clock i + ESTABLISH_TIMEOUT < clock j

/-- The mesh with the numbers of readings, attempts and pumps so far. -/
structure Closing (W : Type) where
  mesh : RawMesh W
  readings : Nat
  attempts : Nat
  pumps : Nat
  deriving DecidableEq, Repr

/-- The variables of `blocking_send_raw`. -/
structure Sending where
  off : Nat
  readings : Nat
  attempts : Nat
  deriving DecidableEq, Repr

/-- `none` is the panic. Arming the timer reads the clock again. -/
def Line.idleTick (line : Line) (deadline : UInt64) (readings : Nat) : Option Nat :=
  if line.clock readings > deadline then none else some (readings + 2)

namespace Sending

/-- A round of the loop. Polling the interface reads the clock. -/
def attempt (line : Line) (deadline : UInt64) (len : Nat) (s : Sending) : Option Sending :=
  let offer := line.offers s.attempts
  if offer = .fails then none
  else
    let off := s.off + min offer.size (len - s.off)
    if off < len then do
      let readings ← line.idleTick deadline (s.readings + 1)
      some ⟨off, readings, s.attempts + 1⟩
    else some ⟨off, s.readings + 1, s.attempts + 1⟩

def more (len : Nat) : Option Sending → Bool
  | none => false
  | some s => s.off < len

/-- `none` where `fuel` rounds are not enough, and in it the panic. -/
def run (line : Line) (deadline : UInt64) (len fuel : Nat) (s : Sending) :
    Option (Option Sending) :=
  WhileLoop.result (more len) (·.bind (attempt line deadline len)) fuel (some s)

end Sending

section

variable {W : Type}

def blockingSendRaw (line : Line) (fuel : Nat) (frame : List UInt8) (c : Closing W) :
    Option (Option (Closing W)) :=
  let deadline := line.clock c.readings + ESTABLISH_TIMEOUT
  (Sending.run line deadline frame.length fuel ⟨0, c.readings + 1, c.attempts⟩).map
    (·.map fun s => { c with readings := s.readings + 1, attempts := s.attempts })

/-- The wait for the peer's answer, with whether it has come. -/
structure Awaiting (W : Type) where
  closing : Closing W
  completed : Bool
  deriving DecidableEq, Repr

namespace Awaiting

def more (line : Line) (deadline : UInt64) : Option (Awaiting W) → Bool
  | none => false
  | some a => !a.completed && line.clock a.closing.readings < deadline

variable [WebSocketClient W]

omit [WebSocketClient W] in
/-- The heap has room for what the pump receives, behind the bytes that are there. -/
def fits (line : Line) (a : Awaiting W) : Bool :=
  let received := line.receives a.closing.pumps
  received.isEmpty ||
    (a.closing.mesh.pump received).rxRaw.length ≤ line.room a.closing.pumps

/-- A round with room enough: its test and the pump read the clock, and so does arming
the timer. Bytes that cannot be decoded stay. -/
def take (line : Line) (a : Awaiting W) : Option (Awaiting W) :=
  let c := a.closing
  let mesh := c.mesh.pump (line.receives c.pumps)
  let c := { c with mesh, readings := c.readings + 2, pumps := c.pumps + 1 }
  if mesh.rxRaw.isEmpty then some ⟨{ c with readings := c.readings + 1 }, false⟩
  else
    match WebSocketClient.read mesh.ws mesh.rxRaw 512 with
    | (.ok r, ws) => do
      let mesh ← { mesh with ws }.drain r.lenFrom
      some ⟨{ c with mesh }, r.messageType = .closeCompleted⟩
    | (.error _, ws) =>
      some ⟨{ c with mesh := { mesh with ws }, readings := c.readings + 1 }, false⟩

/-- A round of the loop. A pump that finds no room is a panic. -/
def round (line : Line) (a : Awaiting W) : Option (Awaiting W) :=
  if a.fits line then a.take line else none

omit [WebSocketClient W] in
def deadline (line : Line) (c : Closing W) : UInt64 := line.clock c.readings + 2 * TICKS_PER_SEC

omit [WebSocketClient W] in
def start (c : Closing W) : Option (Awaiting W) :=
  some ⟨{ c with readings := c.readings + 1 }, false⟩

/-- The loop with its deadline, and the ten polls that close the socket. -/
def run (line : Line) (fuel : Nat) (c : Closing W) : Option (Option (Closing W)) :=
  (WhileLoop.result (more line (deadline line c)) (·.bind (round line)) fuel (start c)).map
    (·.map fun a => { a.closing with readings := a.closing.readings + 20 })

/-- Every pump of the wait finds room. -/
def Fits (line : Line) (c : Closing W) : Prop :=
  ∀ n a, WhileLoop.run (more line (deadline line c)) (·.bind (take line)) n (start c) = some a →
    more line (deadline line c) (some a) = true → a.fits line = true

end Awaiting

variable [WebSocketClient W]

/-- `none` where `fuel` rounds of a loop are not enough, and in it the panic. -/
def closeClean (line : Line) (fuel : Nat) (c : Closing W) : Option (Option (Closing W)) :=
  match WebSocketClient.close c.mesh.ws 128 with
  | (.ok frame, ws) =>
    match blockingSendRaw line fuel frame { c with mesh := { c.mesh with ws } } with
    | some (some c) => Awaiting.run line fuel c
    | stopped => stopped
  | (.error _, ws) => Awaiting.run line fuel { c with mesh := { c.mesh with ws } }

/-- The exit code of the kernel, once `drive_goal` has returned: `exit_pass`,
`exit_fail(2)`, or `exit_fail(1)` by the panic handler. -/
def exitCode (line : Line) (fuel : Nat) (done : Bool) (c : Closing W) : Option Nat :=
  (closeClean line fuel c).map fun
    | some _ => if done then 0 else 2
    | none => 1

end

/-! ## Sending the close frame -/

namespace Line

/-- What the socket takes at most in so many attempts. -/
def accepted (line : Line) : Nat → Nat → Nat
  | _, 0 => 0
  | first, n + 1 => (line.offers first).size + line.accepted (first + 1) n

/-- Some attempts take so many bytes, none of them fails, and after each but the last
the clock reads no more than the deadline. -/
def Takes (line : Line) (deadline : UInt64) (len readings attempts : Nat) : Prop :=
  ∃ n, len ≤ line.accepted attempts n ∧ (∀ i < n, line.offers (attempts + i) ≠ .fails) ∧
    ∀ i, i + 1 < n → line.clock (readings + 1 + 3 * i) ≤ deadline

theorem clock_mono (line : Line) {i j : Nat} (le : i ≤ j) : line.clock i ≤ line.clock j := by
  induction le with
  | refl => exact UInt64.le_refl _
  | step _ ih => exact UInt64.le_trans ih (line.steady _)

end Line

namespace Sending

variable {line : Line} {deadline : UInt64} {len : Nat} {s : Sending}

/-- What a round can do: fail, send the rest, be late, or go on. -/
theorem attempt_cases (line : Line) (deadline : UInt64) (short : s.off < len) :
    (line.offers s.attempts = .fails ∧ attempt line deadline len s = none) ∨
    line.offers s.attempts ≠ .fails ∧
      (len ≤ s.off + (line.offers s.attempts).size ∧
        attempt line deadline len s = some ⟨len, s.readings + 1, s.attempts + 1⟩ ∨
      s.off + (line.offers s.attempts).size < len ∧
        (deadline < line.clock (s.readings + 1) ∧ attempt line deadline len s = none ∨
        line.clock (s.readings + 1) ≤ deadline ∧ attempt line deadline len s =
          some ⟨s.off + (line.offers s.attempts).size, s.readings + 3, s.attempts + 1⟩)) := by
  unfold attempt
  by_cases fails : line.offers s.attempts = .fails
  · exact .inl ⟨fails, if_pos fails⟩
  refine .inr ⟨fails, ?_⟩
  simp only [if_neg fails]
  by_cases enough : len ≤ s.off + (line.offers s.attempts).size
  · have off : s.off + min (line.offers s.attempts).size (len - s.off) = len := by omega
    exact .inl ⟨enough, by rw [off, if_neg (Nat.lt_irrefl len)]⟩
  · have off : s.off + min (line.offers s.attempts).size (len - s.off) =
        s.off + (line.offers s.attempts).size := by omega
    refine .inr ⟨Nat.lt_of_not_le enough, ?_⟩
    rw [off, if_pos (Nat.lt_of_not_le enough), Line.idleTick]
    by_cases late : deadline < line.clock (s.readings + 1)
    · exact .inl ⟨late, by simp [late]⟩
    · exact .inr ⟨UInt64.not_lt.mp late, by simp [late]⟩

theorem run_of_sent (sent : len ≤ s.off) (fuel : Nat) :
    run line deadline len fuel s = some (some s) :=
  WhileLoop.result_of_ended (by simpa [more] using sent) fuel

theorem run_succ (short : s.off < len) (fuel : Nat) :
    run line deadline len (fuel + 1) s =
      WhileLoop.result (more len) (·.bind (attempt line deadline len)) fuel
        (attempt line deadline len s) :=
  WhileLoop.result_succ (by simpa [more] using short) fuel

/-- The attempts that take the rest are enough. -/
theorem returns_of_takes {n : Nat} (enough : len ≤ s.off + line.accepted s.attempts n)
    (works : ∀ i < n, line.offers (s.attempts + i) ≠ .fails)
    (timely : ∀ i, i + 1 < n → line.clock (s.readings + 1 + 3 * i) ≤ deadline) :
    ∃ fuel s', run line deadline len fuel s = some (some s') := by
  induction n generalizing s with
  | zero => exact ⟨0, s, run_of_sent enough 0⟩
  | succ n ih =>
    rcases Nat.lt_or_ge s.off len with short | sent
    swap
    · exact ⟨0, s, run_of_sent sent 0⟩
    rw [Line.accepted] at enough
    rcases attempt_cases line deadline short with ⟨fails, -⟩ | ⟨-, ⟨-, last⟩ | ⟨part, goes_on⟩⟩
    · exact absurd fails (works 0 (Nat.succ_pos n))
    · refine ⟨1, ⟨len, s.readings + 1, s.attempts + 1⟩, ?_⟩
      rw [run_succ short, last]
      exact run_of_sent (Nat.le_refl len) 0
    · have next : 1 < n + 1 := by
        rcases n with _ | n
        · rw [Line.accepted] at enough
          omega
        · omega
      rcases goes_on with ⟨late, -⟩ | ⟨-, tried⟩
      · exact absurd (timely 0 next) (UInt64.not_le.mpr late)
      · obtain ⟨fuel, s', sent⟩ := ih
          (s := ⟨s.off + (line.offers s.attempts).size, s.readings + 3, s.attempts + 1⟩)
          (by simpa only [Nat.add_assoc] using enough)
          (fun i before => by
            have := works (i + 1) (by omega)
            rwa [Nat.add_comm i, ← Nat.add_assoc] at this)
          (fun i before => by
            have := timely (i + 1) (by omega)
            rwa [show s.readings + 1 + 3 * (i + 1) = s.readings + 3 + 1 + 3 * i by omega] at this)
        refine ⟨fuel + 1, s', ?_⟩
        rw [run_succ short, tried]
        exact sent

/-- A loop that returns has made the attempts. -/
theorem takes_of_returns {fuel : Nat} {s' : Sending}
    (returned : run line deadline len fuel s = some (some s')) :
    ∃ n, len ≤ s.off + line.accepted s.attempts n ∧
      (∀ i < n, line.offers (s.attempts + i) ≠ .fails) ∧
      ∀ i, i + 1 < n → line.clock (s.readings + 1 + 3 * i) ≤ deadline := by
  rcases Nat.lt_or_ge s.off len with short | sent
  swap
  · exact ⟨0, sent, by simp, by simp⟩
  induction fuel generalizing s with
  | zero =>
    obtain ⟨same, ended⟩ := WhileLoop.result_eq_some.mp returned
    cases same
    simp only [more, decide_eq_false_iff_not] at ended
    exact absurd short ended
  | succ fuel ih =>
    rw [run_succ short] at returned
    rcases attempt_cases line deadline short with
      ⟨-, failed⟩ | ⟨works, ⟨enough, -⟩ | ⟨part, ⟨-, failed⟩ | ⟨timely, tried⟩⟩⟩
    · rw [failed, WhileLoop.result_of_ended rfl] at returned
      cases returned
    · refine ⟨1, by simpa [Line.accepted] using enough, ?_, by omega⟩
      intro i first
      rwa [Nat.lt_one_iff.mp first]
    · rw [failed, WhileLoop.result_of_ended rfl] at returned
      cases returned
    · rw [tried] at returned
      obtain ⟨n, enough, later_work, later_timely⟩ := ih returned part
      refine ⟨n + 1, by simpa only [Line.accepted, Nat.add_assoc] using enough, ?_, ?_⟩
      · rintro (_ | i) before
        · exact works
        · have := later_work i (by omega)
          rwa [Nat.add_assoc, Nat.add_comm 1] at this
      · rintro (_ | i) before
        · exact timely
        · have := later_timely i (by omega)
          rwa [show s.readings + 3 + 1 + 3 * i = s.readings + 1 + 3 * (i + 1) by omega] at this

/-- The loop returns or panics: a round either ends it or reads the clock. -/
theorem ends (passes : ∃ i, deadline < line.clock i) (len : Nat) (s : Sending) :
    ∃ fuel e, run line deadline len fuel s = some e := by
  obtain ⟨last, late⟩ := passes
  let μ : Option Sending → Nat
    | none => 0
    | some s => if s.off < len then last + 2 - s.readings + 1 else 0
  have lower (t : Option Sending) (_ : True) (running : more len t = true) :
      True ∧ μ (t.bind (attempt line deadline len)) < μ t := by
    refine ⟨trivial, ?_⟩
    obtain _ | s := t
    · cases running
    have short : s.off < len := by simpa [more] using running
    rcases attempt_cases line deadline short with
      ⟨-, step⟩ | ⟨-, ⟨-, step⟩ | ⟨part, ⟨-, step⟩ | ⟨timely, step⟩⟩⟩
    · simp [step, μ, short]
    · simp [step, μ, short]
    · simp [step, μ, short]
    · have early : s.readings + 1 < last := by
        by_contra reached
        have now := line.clock_mono (Nat.le_of_not_lt reached)
        exact UInt64.not_le.mpr late (UInt64.le_trans now timely)
      simp only [Option.bind_some, step, μ, if_pos part, if_pos short]
      omega
  have ended := WhileLoop.ends_of_measure μ lower (s := some s) trivial
  exact ⟨μ (some s), _, WhileLoop.result_eq_some.mpr ⟨rfl, ended⟩⟩

end Sending

/-! ## The wait for the answer -/

section

variable {W : Type} [WebSocketClient W]

/-- A client that consumes no more than it is given. -/
def Bounded (W : Type) [WebSocketClient W] : Prop :=
  ∀ (ws ws' : W) (buf : List UInt8) (cap : Nat) (r : WebSocketReadResult),
    WebSocketClient.read ws buf cap = (.ok r, ws') → r.lenFrom ≤ buf.length

namespace Awaiting

/-- A round with room enough does not panic, whatever is received, and reads the clock. -/
theorem take_spec (bounded : Bounded W) (line : Line) (a : Awaiting W) :
    ∃ a', a.take line = some a' ∧ a.closing.readings < a'.closing.readings ∧
      a'.closing.pumps = a.closing.pumps + 1 ∧ a'.closing.mesh.rxRaw.length ≤
        (a.closing.mesh.pump (line.receives a.closing.pumps)).rxRaw.length := by
  let mesh := a.closing.mesh.pump (line.receives a.closing.pumps)
  by_cases quiet : mesh.rxRaw.isEmpty = true
  · exact ⟨_, if_pos quiet, by simp [Nat.add_assoc], rfl, Nat.le_refl _⟩
  rcases read : WebSocketClient.read mesh.ws mesh.rxRaw 512 with ⟨result, ws⟩
  cases result with
  | ok r =>
    have inside := bounded _ _ _ _ _ read
    simp only [take, mesh, if_neg quiet, read, RawMesh.drain, if_pos inside,
      Option.bind_eq_bind, Option.bind_some]
    exact ⟨_, rfl, by simp, rfl, by simp⟩
  | error e =>
    simp only [take, mesh, if_neg quiet, read]
    exact ⟨_, rfl, by simp [Nat.add_assoc], rfl, Nat.le_refl _⟩

variable {line : Line} {c : Closing W}

/-- The wait ends, with a panic or without. -/
theorem run_ends (bounded : Bounded W) (line : Line) (c : Closing W) :
    ∃ fuel e, run line fuel c = some e := by
  obtain ⟨last, late⟩ := line.advances (deadline line c)
  let μ : Option (Awaiting W) → Nat
    | none => 0
    | some a => last - a.closing.readings
  have lower (t : Option (Awaiting W)) (_ : True) (running : more line (deadline line c) t = true) :
      True ∧ μ (t.bind (round line)) < μ t := by
    refine ⟨trivial, ?_⟩
    obtain _ | a := t
    · cases running
    have early : a.closing.readings < last := by
      by_contra reached
      have now := line.clock_mono (Nat.le_of_not_lt reached)
      simp only [more, Bool.and_eq_true, decide_eq_true_eq] at running
      exact UInt64.not_le.mpr running.2 (UInt64.le_trans late now)
    obtain ⟨a', step, later, -⟩ := take_spec bounded line a
    rw [Option.bind_some, round]
    split
    · simp only [step, μ]
      omega
    · simp only [μ]
      omega
  have ended := WhileLoop.ends_of_measure μ lower (s := start c) trivial
  exact ⟨μ (start c), _,
    Option.map_eq_some_iff.mpr ⟨_, WhileLoop.result_eq_some.mpr ⟨rfl, ended⟩, rfl⟩⟩

/-- The wait ends without a panic exactly if its pumps find room. -/
theorem run_returns_iff (bounded : Bounded W) :
    (∃ fuel c', run line fuel c = some (some c')) ↔ Fits line c := by
  have guarded : ∀ a : Awaiting W, a.fits line = true → round line a = take line a :=
    fun a fits => if_pos fits
  constructor
  · rintro ⟨fuel, c', returned⟩
    obtain ⟨e, ran, made⟩ := Option.map_eq_some_iff.mp returned
    obtain ⟨a, rfl, -⟩ := Option.map_eq_some_iff.mp made
    exact WhileLoop.fits_of_returns rfl guarded (fun a tight => if_neg tight) ran
  · intro fits
    obtain ⟨fuel, e, ran⟩ := run_ends bounded line c
    obtain ⟨e', result, rfl⟩ := Option.map_eq_some_iff.mp ran
    obtain ⟨rfl, -⟩ := WhileLoop.result_eq_some.mp result
    have live : WhileLoop.run (more line (deadline line c)) (·.bind (take line)) fuel (start c) ≠
        none := by
      refine WhileLoop.invariant (I := (· ≠ none)) ?_ (Option.some_ne_none _) fuel
      rintro (_ | a) live -
      · exact absurd rfl live
      · obtain ⟨a', step, -⟩ := take_spec bounded line a
        rw [Option.bind_some, step]
        exact Option.some_ne_none a'
    rw [← WhileLoop.run_congr rfl fun n a reached running =>
      (guarded a (fits n a reached running)).symm] at live
    obtain ⟨a, stopped⟩ := Option.ne_none_iff_exists'.mp live
    rw [stopped] at ran
    exact ⟨fuel, _, ran⟩

/-- Pumps find room if the heap always has room for all that has come. -/
theorem fits_of_ample (bounded : Bounded W) (held : Nat → Nat)
    (before : c.mesh.rxRaw.length ≤ held c.pumps)
    (grows : ∀ k, held k + (line.receives k).length ≤ held (k + 1))
    (ample : ∀ k, held (k + 1) ≤ line.room k) : Fits line c := by
  let I : Option (Awaiting W) → Prop := fun t =>
    ∀ a, t = some a → a.closing.mesh.rxRaw.length ≤ held a.closing.pumps
  have pumped : ∀ a : Awaiting W, a.closing.mesh.rxRaw.length ≤ held a.closing.pumps →
      (a.closing.mesh.pump (line.receives a.closing.pumps)).rxRaw.length ≤
        held (a.closing.pumps + 1) := by
    intro a inside
    have more := grows a.closing.pumps
    rw [RawMesh.pump, List.length_append]
    omega
  have keep : ∀ t, I t → more line (deadline line c) t = true → I (t.bind (take line)) := by
    rintro (_ | a) inside running a' step
    · cases running
    obtain ⟨a'', step', -, pumps, shorter⟩ := take_spec bounded line a
    cases Option.some.inj (step'.symm.trans step)
    rw [pumps]
    exact shorter.trans (pumped a (inside a rfl))
  have first : I (start c) := by
    rintro a ⟨⟩
    exact before
  intro n a reached _
  have inside := WhileLoop.invariant keep first n a reached
  rw [fits, Bool.or_eq_true, decide_eq_true_eq]
  exact .inr ((pumped a inside).trans (ample _))

end Awaiting

/-! ## The session closed -/

variable {line : Line} {c : Closing W}

omit [WebSocketClient W] in
theorem blockingSendRaw_of_le {frame : List UInt8} {m n : Nat} {e : Option (Closing W)}
    (stopped : blockingSendRaw line m frame c = some e) (le : m ≤ n) :
    blockingSendRaw line n frame c = some e := by
  obtain ⟨s, sent, rfl⟩ := Option.map_eq_some_iff.mp stopped
  exact Option.map_eq_some_iff.mpr ⟨s, WhileLoop.result_of_le sent le, rfl⟩

theorem Awaiting.run_of_le {m n : Nat} {e : Option (Closing W)}
    (stopped : Awaiting.run line m c = some e) (le : m ≤ n) : Awaiting.run line n c = some e := by
  obtain ⟨a, waited, rfl⟩ := Option.map_eq_some_iff.mp stopped
  exact Option.map_eq_some_iff.mpr ⟨a, WhileLoop.result_of_le waited le, rfl⟩

/-- More rounds than enough change nothing. -/
theorem closeClean_of_le {m n : Nat} {e : Option (Closing W)}
    (stopped : closeClean line m c = some e) (le : m ≤ n) : closeClean line n c = some e := by
  unfold closeClean at stopped ⊢
  rcases close : WebSocketClient.close c.mesh.ws 128 with ⟨e | frame, ws⟩
  · simp only [close] at stopped ⊢
    exact Awaiting.run_of_le stopped le
  · simp only [close] at stopped ⊢
    rcases sent : blockingSendRaw line m frame { c with mesh := { c.mesh with ws } } with _ | _ | c'
    · rw [sent] at stopped
      cases stopped
    · rw [sent] at stopped
      rw [blockingSendRaw_of_le sent le]
      exact stopped
    · rw [sent] at stopped
      rw [blockingSendRaw_of_le sent le]
      exact Awaiting.run_of_le stopped le

omit [WebSocketClient W] in
theorem blockingSendRaw_ends (line : Line) (frame : List UInt8) (c : Closing W) :
    ∃ fuel e, blockingSendRaw line fuel frame c = some e := by
  obtain ⟨fuel, s, sent⟩ := Sending.ends (line.passes c.readings) frame.length
    ⟨0, c.readings + 1, c.attempts⟩
  exact ⟨fuel, _, Option.map_eq_some_iff.mpr ⟨s, sent, rfl⟩⟩

omit [WebSocketClient W] in
theorem blockingSendRaw_returns_iff {frame : List UInt8} :
    (∃ fuel c', blockingSendRaw line fuel frame c = some (some c')) ↔
      line.Takes (line.clock c.readings + ESTABLISH_TIMEOUT) frame.length (c.readings + 1)
        c.attempts := by
  constructor
  · rintro ⟨fuel, c', returned⟩
    obtain ⟨e, sent, made⟩ := Option.map_eq_some_iff.mp returned
    obtain ⟨s, rfl, -⟩ := Option.map_eq_some_iff.mp made
    simpa [Line.Takes] using Sending.takes_of_returns sent
  · rintro ⟨n, enough, works, timely⟩
    obtain ⟨fuel, s, sent⟩ := Sending.returns_of_takes
      (s := ⟨0, c.readings + 1, c.attempts⟩) (by simpa using enough) works timely
    exact ⟨fuel, _, Option.map_eq_some_iff.mpr ⟨some s, sent, rfl⟩⟩

/-- If a close frame is to be sent, the socket takes it in time. -/
def Closing.Takes (line : Line) (c : Closing W) : Prop :=
  ∀ frame ws, WebSocketClient.close c.mesh.ws 128 = (.ok frame, ws) →
    line.Takes (line.clock c.readings + ESTABLISH_TIMEOUT) frame.length (c.readings + 1) c.attempts

/-- The session when `close_clean` starts to wait. -/
def Closing.Waits (line : Line) (c c' : Closing W) : Prop :=
  match WebSocketClient.close c.mesh.ws 128 with
  | (.ok frame, ws) =>
    ∃ fuel, blockingSendRaw line fuel frame { c with mesh := { c.mesh with ws } } = some (some c')
  | (.error _, ws) => c' = { c with mesh := { c.mesh with ws } }

/-- If the wait is reached, its pumps find room. -/
def Closing.Fits (line : Line) (c : Closing W) : Prop :=
  ∀ c', c.Waits line c' → Awaiting.Fits line c'

/-- Closing the session comes to nothing after a close frame that is not taken, and
otherwise to what the wait comes to. -/
theorem closeClean_of_waits {c' : Closing W} {e : Option (Closing W)} {fuel : Nat}
    (waits : c.Waits line c') (waited : Awaiting.run line fuel c' = some e) :
    ∃ fuel, closeClean line fuel c = some e := by
  unfold Closing.Waits at waits
  rcases close : WebSocketClient.close c.mesh.ws 128 with ⟨_ | frame, ws⟩
  · simp only [close] at waits
    subst waits
    exact ⟨fuel, by simp only [closeClean, close, waited]⟩
  · simp only [close] at waits
    obtain ⟨rounds, sent⟩ := waits
    refine ⟨max rounds fuel, ?_⟩
    simp only [closeClean, close, blockingSendRaw_of_le sent (Nat.le_max_left rounds fuel),
      Awaiting.run_of_le waited (Nat.le_max_right rounds fuel)]

theorem closeClean_cases {fuel : Nat} {e : Option (Closing W)}
    (stopped : closeClean line fuel c = some e) :
    e = none ∨ ∃ c', c.Waits line c' ∧ Awaiting.run line fuel c' = some e := by
  unfold closeClean at stopped
  unfold Closing.Waits
  rcases close : WebSocketClient.close c.mesh.ws 128 with ⟨_ | frame, ws⟩
  · simp only [close] at stopped
    exact .inr ⟨_, rfl, stopped⟩
  · simp only [close] at stopped
    split at stopped
    · rename_i c' sent
      exact .inr ⟨c', ⟨fuel, sent⟩, stopped⟩
    · rename_i other
      cases e with
      | none => exact .inl rfl
      | some c' => exact absurd stopped (other c')

/-- The wait is reached exactly if the socket takes the close frame. -/
theorem Closing.waits_iff : (∃ c', c.Waits line c') ↔ c.Takes line := by
  unfold Waits Takes
  rcases close : WebSocketClient.close c.mesh.ws 128 with ⟨_ | frame, ws⟩
  · simp
  · simp only [Prod.mk.injEq, Except.ok.injEq, and_imp]
    constructor
    · rintro ⟨c', fuel, sent⟩ _ _ rfl rfl
      exact (blockingSendRaw_returns_iff (c := { c with mesh := { c.mesh with ws } })).mp
        ⟨fuel, c', sent⟩
    · intro takes
      obtain ⟨fuel, c', sent⟩ := (blockingSendRaw_returns_iff
        (c := { c with mesh := { c.mesh with ws } })).mpr (takes frame ws rfl rfl)
      exact ⟨c', fuel, sent⟩

theorem Closing.Waits.unique {c₁ c₂ : Closing W} (first : c.Waits line c₁)
    (second : c.Waits line c₂) : c₁ = c₂ := by
  unfold Waits at first second
  rcases close : WebSocketClient.close c.mesh.ws 128 with ⟨_ | frame, ws⟩
  · simp only [close] at first second
    rw [first, second]
  · simp only [close] at first second
    obtain ⟨m, sent⟩ := first
    obtain ⟨n, sent'⟩ := second
    have at_most := blockingSendRaw_of_le sent (Nat.le_max_left m n)
    have at_least := blockingSendRaw_of_le sent' (Nat.le_max_right m n)
    rw [at_most] at at_least
    cases at_least
    rfl

/-- Sending the close frame receives nothing. -/
theorem Closing.Waits.kept {c' : Closing W} (waits : c.Waits line c') :
    c'.mesh.rxRaw = c.mesh.rxRaw ∧ c'.pumps = c.pumps := by
  unfold Waits at waits
  rcases close : WebSocketClient.close c.mesh.ws 128 with ⟨_ | frame, ws⟩
  · simp only [close] at waits
    rw [waits]
    exact ⟨rfl, rfl⟩
  · simp only [close] at waits
    obtain ⟨fuel, sent⟩ := waits
    obtain ⟨e, -, made⟩ := Option.map_eq_some_iff.mp sent
    obtain ⟨s, rfl, rfl⟩ := Option.map_eq_some_iff.mp made
    exact ⟨rfl, rfl⟩

/-- The wait finds room if the heap always has room for all that has come. -/
theorem Closing.fits_of_ample (bounded : Bounded W) (held : Nat → Nat)
    (before : c.mesh.rxRaw.length ≤ held c.pumps)
    (grows : ∀ k, held k + (line.receives k).length ≤ held (k + 1))
    (ample : ∀ k, held (k + 1) ≤ line.room k) : c.Fits line := by
  intro c' waits
  obtain ⟨rxRaw, pumps⟩ := waits.kept
  rw [← rxRaw, ← pumps] at before
  exact Awaiting.fits_of_ample bounded held before grows ample

/-- Closing the session ends, with a panic or without. -/
theorem closeClean_ends (bounded : Bounded W) (line : Line) (c : Closing W) :
    ∃ fuel e, closeClean line fuel c = some e := by
  by_cases takes : c.Takes line
  · obtain ⟨c', waits⟩ := Closing.waits_iff.mpr takes
    obtain ⟨fuel, e, waited⟩ := Awaiting.run_ends bounded line c'
    obtain ⟨fuel, closed⟩ := closeClean_of_waits waits waited
    exact ⟨fuel, e, closed⟩
  · rcases close : WebSocketClient.close c.mesh.ws 128 with ⟨_ | frame, ws⟩
    · exact absurd (by simp [Closing.Takes, close]) takes
    obtain ⟨fuel, e, sent⟩ :=
      blockingSendRaw_ends line frame { c with mesh := { c.mesh with ws } }
    cases e with
    | none => exact ⟨fuel, none, by simp only [closeClean, close, sent]⟩
    | some c' =>
      refine absurd (Closing.waits_iff.mp ⟨c', ?_⟩) takes
      simp only [Closing.Waits, close]
      exact ⟨fuel, sent⟩

theorem closeClean_returns_iff (bounded : Bounded W) :
    (∃ fuel c', closeClean line fuel c = some (some c')) ↔ c.Takes line ∧ c.Fits line := by
  constructor
  · rintro ⟨fuel, c', returned⟩
    obtain none | ⟨c₁, waits, waited⟩ := closeClean_cases returned
    · cases none
    refine ⟨Closing.waits_iff.mp ⟨c₁, waits⟩, ?_⟩
    intro c₂ waits'
    rw [← waits.unique waits']
    exact (Awaiting.run_returns_iff bounded).mp ⟨fuel, c', waited⟩
  · rintro ⟨takes, fits⟩
    obtain ⟨c₁, waits⟩ := Closing.waits_iff.mpr takes
    obtain ⟨fuel, c', waited⟩ := (Awaiting.run_returns_iff bounded).mpr (fits c₁ waits)
    obtain ⟨fuel, closed⟩ := closeClean_of_waits waits waited
    exact ⟨fuel, c', closed⟩

/-- The exit code is 0 if the goal is done and the session closes without a panic. -/
theorem exitCode_eq_zero {fuel : Nat} {done : Bool} :
    exitCode line fuel done c = some 0 ↔
      done = true ∧ ∃ c', closeClean line fuel c = some (some c') := by
  unfold exitCode
  rcases closeClean line fuel c with _ | _ | c'
  · simp
  · simp
  · cases done <;> simp

/-- **Closing the session changes the outcome exactly if the close frame is not taken or
the heap is used up.** Closing ends in any case. It ends without a panic, and the exit code
is 0 exactly if the goal is done, if and only if there is no close frame to send or the
socket takes it before the deadline, in attempts that do not fail, and the heap has room
for what the wait for the answer receives and cannot decode. -/
theorem close_clean_iff (bounded : Bounded W) {I : Type} [Inference I] [SerdeJson]
    {build : Build} {clock : Clock} {inf : I} {enough : Nat} {outcome : Outcome I}
    (driven : driveGoal build clock inf enough = some outcome) (line : Line) (c : Closing W) :
    (∃ fuel e, closeClean line fuel c = some e) ∧
    (((∃ fuel c', closeClean line fuel c = some (some c')) ∧
      ((∃ fuel, exitCode line fuel outcome.done c = some 0) ↔
        outcome.run.driver.state = .done)) ↔
    c.Takes line ∧ c.Fits line) := by
  refine ⟨closeClean_ends bounded line c, ?_⟩
  rw [closeClean_returns_iff bounded]
  apply and_iff_left_of_imp
  intro closes
  obtain ⟨fuel, c', returned⟩ := (closeClean_returns_iff bounded).mpr closes
  obtain ⟨d, -, rfl⟩ := Option.map_eq_some_iff.mp driven
  have done : (Drive.finish build d).done = true ↔
      (Drive.finish build d).run.driver.state = .done := by
    unfold Drive.finish
    split <;> simp [*]
  constructor
  · rintro ⟨fuel, code⟩
    exact done.mp (exitCode_eq_zero.mp code).1
  · intro ended
    exact ⟨fuel, exitCode_eq_zero.mpr ⟨done.mpr ended, c', returned⟩⟩

end

/-! ## A peer that is gone and one that is not -/

theorem Line.accepted_of_blocked {line : Line} (blocked : ∀ i, line.offers i = .blocked)
    (first n : Nat) : line.accepted first n = 0 := by
  induction n generalizing first with
  | zero => rfl
  | succ n ih => rw [accepted, blocked, ih, Offer.size]

theorem Cursor.bounded : Bounded Cursor := by
  rintro ⟨response, _ | ⟨f, later⟩⟩ ws' buf cap r read
  · cases read
  · simp only [WebSocketClient.read] at read
    split at read
    · cases read
    · cases (Prod.mk.inj read).1
      show f.header.length + (f.payload.take _).length ≤ buf.length
      rw [List.length_take]
      omega

/-- Two ticks from a reading to the next, up to the last there is. -/
def ticks (i : Nat) : UInt64 := .ofNat (min (2 * i) 0xFFFF_FFFF_FFFF_FFFF)

theorem toNat_ticks (i : Nat) : (ticks i).toNat = min (2 * i) 0xFFFF_FFFF_FFFF_FFFF :=
  UInt64.toNat_ofNat_of_lt' (by rw [UInt64.size]; omega)

/-- The connection is reset: `can_send` never holds again. -/
def resetLine : Line where
  clock := ticks
  offers _ := .blocked
  receives _ := []
  room _ := 0x8_0000
  steady i := by
    rw [UInt64.le_iff_toNat_le, toNat_ticks, toNat_ticks]
    omega
  advances t := by
    refine ⟨2 ^ 63, ?_⟩
    have bound := t.toNat_lt
    rw [UInt64.le_iff_toNat_le, toNat_ticks]
    omega
  passes i := by
    refine ⟨2 ^ 63, ?_⟩
    have span : ESTABLISH_TIMEOUT.toNat = 100000000 := rfl
    rw [UInt64.lt_iff_toNat_lt, UInt64.toNat_add, toNat_ticks, toNat_ticks, span]
    omega

/-- A text is in flight: the peer has sent it before it saw the close frame. -/
def openSession : Closing Cursor :=
  ⟨⟨⟨switching, [⟨.text, true, [0x81, 0x02], [0xC3, 0xA9]⟩]⟩, [], [], []⟩, 0, 0, 0⟩

/-- The socket takes the close frame in two parts, with no room in between, and what is
received is cut inside a character. -/
def openLine : Line :=
  { resetLine with
    offers := fun i => [.accepts 3, .blocked].getD i (.accepts 64)
    receives := fun i => [[0x81, 0x02, 0xC3], [], [0xA9]].getD i [] }

/-- A goal that is done, and a peer that reset the connection after its last turn: the
close frame is never taken, and the exit code is that of a panic. -/
theorem reset_fails_gate :
    (¬ ∃ fuel c', closeClean resetLine fuel openSession = some (some c')) ∧
    ∃ enough, ∀ fuel, enough ≤ fuel → exitCode resetLine fuel true openSession = some 1 := by
  have stuck : ¬ openSession.Takes resetLine := by
    intro takes
    obtain ⟨n, enough, -⟩ := takes _ _ rfl
    rw [Line.accepted_of_blocked fun _ => rfl] at enough
    exact absurd enough (by decide)
  have never := fun returned => stuck ((closeClean_returns_iff Cursor.bounded).mp returned).1
  refine ⟨never, ?_⟩
  obtain ⟨fuel, e, stopped⟩ := closeClean_ends Cursor.bounded resetLine openSession
  cases e with
  | some c' => exact absurd ⟨fuel, c', stopped⟩ never
  | none =>
    refine ⟨fuel, ?_⟩
    intro more le
    rw [exitCode, closeClean_of_le stopped le]
    rfl

theorem openSession_takes : openSession.Takes openLine := by
  rintro frame ws ⟨⟩
  refine ⟨3, by decide, ?_, ?_⟩
  · rintro (_ | _ | _ | i) here
    · decide
    · decide
    · decide
    · omega
  · rintro (_ | _ | i) here
    · decide
    · decide
    · omega

theorem openSession_fits : openSession.Fits openLine := by
  refine Closing.fits_of_ample Cursor.bounded ([0, 3, 3].getD · 4) (Nat.le_refl 0) ?_ ?_
  · rintro (_ | _ | _ | k)
    · decide
    · decide
    · decide
    · exact Nat.le_refl 4
  · rintro (_ | _ | k)
    · show 3 ≤ 0x8_0000
      decide
    · show 3 ≤ 0x8_0000
      decide
    · show 4 ≤ 0x8_0000
      decide

section

local instance closingJson : SerdeJson := Wire.json []

/-- A socket that takes the frame lets a goal that is done pass. -/
theorem open_passes_gate : ∃ outcome, driveGoal Build.default ⟨0, fun _ => 0, fun _ => 0⟩
      (ScriptedInference.new SCRIPT_SUCCESS) 8 = some outcome ∧
    ((∃ fuel, exitCode openLine fuel outcome.done openSession = some 0) ↔
      outcome.run.driver.state = .done) := by
  have ends : (driveGoal Build.default ⟨0, fun _ => 0, fun _ => 0⟩
      (ScriptedInference.new SCRIPT_SUCCESS) 8).isSome = true := by decide +kernel
  obtain ⟨outcome, driven⟩ := Option.isSome_iff_exists.mp ends
  exact ⟨outcome, driven, ((close_clean_iff Cursor.bounded driven openLine openSession).2.mpr
    ⟨openSession_takes, openSession_fits⟩).2⟩

end

end ApexosRv
