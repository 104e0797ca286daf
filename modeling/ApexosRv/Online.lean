import ApexosRv.Closing
import ApexosRv.Fuel
import ApexosRv.Reassembly

/-!
# The session on its line

`try_next_text` (`kernel/src/net/mesh.rs`) where sending takes its time: a pong goes
out through `blocking_send_raw`, which reads the clock and can be late, in the middle
of a call. Until a pong is not taken, a call does what it does where sending succeeds
(`scan_comes`), so it answers the next text of the stream as soon as the pumps have
received the whole of it (`tryNextText_comes`).
-/

namespace ApexosRv

open RustStr Frames Fueled

/-- What the kernel panics with in a session. `send` is an attempt of
`blocking_send_raw` that fails or is late. -/
inductive Stop where
  | nic
  | upgrade (e : WsError)
  | send
  | timedOut (what : String)
  | handshake (e : WsError)
  | drain
  | pong (e : WsError)
  | write (e : WsError)
  | utf8
  | closed
  | read (e : WsError)
  | sessionInit
  deriving DecidableEq, Repr

namespace Closing

variable {W : Type}

def pump (line : Line) (c : Closing W) : Closing W :=
  { c with
    mesh := c.mesh.pump (line.receives c.pumps), readings := c.readings + 1, pumps := c.pumps + 1 }

def drain (c : Closing W) (ws : W) (n : Nat) : Fueled Stop (Closing W) :=
  match RawMesh.drain { c.mesh with ws } n with
  | some mesh => return { c with mesh }
  | none => panic .drain

def sendRaw (line : Line) (frame : List UInt8) (c : Closing W) : Fueled Stop (Closing W) :=
  call .send (blockingSendRaw line · frame c) blockingSendRaw_of_le

section
variable [WebSocketClient W]

def pong (line : Line) (c : Closing W) (payload : List UInt8) : Fueled Stop (Closing W) :=
  match WebSocketClient.write c.mesh.ws .pong true payload (payload.length + 16) with
  | (.ok reply, ws) =>
    sendRaw line reply { c with mesh := { c.mesh with ws, pongs := c.mesh.pongs ++ [payload] } }
  | (.error e, _) => panic (.pong e)

/-- The arms for what a `read` reports. -/
def handle (line : Line) (r : WebSocketReadResult) (c : Closing W) :
    Fueled Stop (Closing W ⊕ (Option String × Closing W)) :=
  match r.messageType with
  | .text =>
    let msgPartial := c.mesh.msgPartial ++ r.payload
    if r.endOfMessage then
      match fromUtf8 msgPartial with
      | some msg => return .inr (some msg, { c with mesh := { c.mesh with msgPartial := [] } })
      | none => panic .utf8
    else return .inl { c with mesh := { c.mesh with msgPartial } }
  | .ping => return .inl (← c.pong line r.payload)
  | .closeMustReply => panic .closed
  | .closeCompleted => panic .closed
  | .binary => return .inl c
  | .pong => return .inl c

/-- A round of the loop of `try_next_text`. -/
def decode (line : Line) (c : Closing W) :
    Fueled Stop (Closing W ⊕ (Option String × Closing W)) :=
  if c.mesh.rxRaw.isEmpty then return .inr (none, c)
  else
    match WebSocketClient.read c.mesh.ws c.mesh.rxRaw 4096 with
    | (.ok r, ws) => do handle line r (← c.drain ws r.lenFrom)
    | (.error .readFrameIncomplete, ws) => return .inr (none, { c with mesh := { c.mesh with ws } })
    | (.error e, _) => panic (.read e)

def tryNextText (line : Line) (c : Closing W) : Fueled Stop (Option String × Closing W) :=
  loop (decode line) (c.pump line)

end

end Closing

/-! ## A call of `try_next_text` -/

section
variable {W : Type} {line : Line}

/-- Attempts read the clock. -/
theorem Sending.readings_le {deadline : UInt64} {len fuel : Nat} {s s' : Sending}
    (returned : run line deadline len fuel s = some (some s')) : s.readings ≤ s'.readings := by
  let I : Option Sending → Prop := fun t => ∀ s', t = some s' → s.readings ≤ s'.readings
  have keep : ∀ t, I t → more len t = true → I (t.bind (attempt line deadline len)) := by
    intro t before running s' same
    obtain ⟨s₁, rfl, tried⟩ := Option.bind_eq_some_iff.mp same
    have first := before s₁ rfl
    have short : s₁.off < len := by simpa [more] using running
    rcases attempt_cases line deadline short with
      ⟨-, step⟩ | ⟨-, ⟨-, step⟩ | ⟨-, ⟨-, step⟩ | ⟨-, step⟩⟩⟩ <;>
    · rw [step] at tried
      cases tried <;> simp <;> omega
  have start : I (some s) := by
    intro s' same
    cases same
    exact Nat.le_refl _
  obtain ⟨same, -⟩ := WhileLoop.result_eq_some.mp returned
  exact WhileLoop.invariant keep start fuel s' same

namespace Closing

/-- A send returns, with some readings and attempts more, or it panics. -/
theorem sendRaw_comes (line : Line) (frame : List UInt8) (c : Closing W) :
    Comes (sendRaw line frame c) fun
      | .ok c' => c'.mesh = c.mesh ∧ c'.pumps = c.pumps ∧ c.readings ≤ c'.readings
      | .error e => e = .send := by
  obtain ⟨fuel, result, sent⟩ := blockingSendRaw_ends line frame c
  have ends : Ends (sendRaw line frame c) (result.elim (.error .send) .ok) :=
    Ends.call blockingSendRaw_of_le _ sent
  refine ⟨_, ends, ?_⟩
  cases result with
  | none => rfl
  | some c' =>
    obtain ⟨s, ran, made⟩ := Option.map_eq_some_iff.mp sent
    obtain ⟨s, rfl, rfl⟩ := Option.map_eq_some_iff.mp made
    have later := Sending.readings_le ran
    exact ⟨rfl, rfl, by simp only at later ⊢; omega⟩

/-- A frame that the socket takes at once. -/
theorem sendRaw_taken {frame : List UInt8} {c : Closing W} {n : Nat}
    (some_bytes : 0 < frame.length) (offer : line.offers c.attempts = .accepts n)
    (room : frame.length ≤ n) :
    Ends (sendRaw line frame c)
      (.ok { c with readings := c.readings + 3, attempts := c.attempts + 1 }) := by
  let s : Sending := ⟨0, c.readings + 1, c.attempts⟩
  have sent : Sending.run line (line.clock c.readings + ESTABLISH_TIMEOUT) frame.length 1 s =
      some (some ⟨frame.length, s.readings + 1, s.attempts + 1⟩) := by
    rw [Sending.run_succ (s := s) some_bytes]
    rcases Sending.attempt_cases (s := s) line _ some_bytes with
      ⟨fails, -⟩ | ⟨-, ⟨-, last⟩ | ⟨part, -⟩⟩
    · cases offer.symm.trans fails
    · rw [last]
      exact Sending.run_of_sent (Nat.le_refl _) 0
    · rw [show line.offers s.attempts = .accepts n from offer, Offer.size] at part
      simp only [s] at part
      omega
  exact Ends.call blockingSendRaw_of_le Stop.send
    (Option.map_eq_some_iff.mpr ⟨_, sent, rfl⟩)

theorem drain_ends {c : Closing W} {ws : W} {n : Nat} {mesh : RawMesh W}
    (drained : RawMesh.drain { c.mesh with ws } n = some mesh) :
    Ends (c.drain ws n) (.ok { c with mesh }) := by
  rw [drain, drained]
  exact .return _

/-- What a loop of `try_next_text` comes to on a line, if it comes to `out` where
sending succeeds: no reading and no attempt is made but for pongs. -/
def Follows (c : Closing W) (out : Option String × RawMesh W) :
    Except Stop (Option String × Closing W) → Prop
  | .ok (answer, c') => answer = out.1 ∧ c'.mesh = out.2 ∧ c'.pumps = c.pumps ∧
      c.readings ≤ c'.readings ∧
      (out.2.pongs = c.mesh.pongs → c'.readings = c.readings ∧ c'.attempts = c.attempts)
  | .error e => e = .send ∧ out.2.pongs ≠ c.mesh.pongs

/-- A round that leaves all but the mesh alone. -/
theorem Follows.after {c : Closing W} {mesh : RawMesh W} {out : Option String × RawMesh W}
    (same : mesh.pongs = c.mesh.pongs) {r : Except Stop (Option String × Closing W)}
    (follows : Follows { c with mesh } out r) : Follows c out r := by
  rcases r with e | ⟨answer, c'⟩
  · exact ⟨follows.1, same ▸ follows.2⟩
  · obtain ⟨told, stands, pumps, later, quiet⟩ := follows
    exact ⟨told, stands, pumps, later, same ▸ quiet⟩

/-- A round that sends a pong. -/
theorem Follows.ponged {c c' : Closing W} {out : Option String × RawMesh W} {payload : List UInt8}
    (pongs : c'.mesh.pongs = c.mesh.pongs ++ [payload]) (kept : c'.mesh.pongs <+: out.2.pongs)
    (pumps : c'.pumps = c.pumps) (later : c.readings ≤ c'.readings)
    {r : Except Stop (Option String × Closing W)} (follows : Follows c' out r) :
    Follows c out r := by
  have more : out.2.pongs ≠ c.mesh.pongs := by
    intro same
    have length := kept.length_le
    rw [pongs, same, List.length_append, List.length_singleton] at length
    omega
  rcases r with e | ⟨answer, c''⟩
  · exact ⟨follows.1, more⟩
  · obtain ⟨told, stands, pumps', later', -⟩ := follows
    exact ⟨told, stands, pumps'.trans pumps, later.trans later', fun same => absurd same more⟩

end Closing

/-- A loop forgets no pong. -/
theorem RawMesh.scan_pongs [WebSocketClient W] {fuel : Nat} {m : RawMesh W}
    {out : Option String × RawMesh W} (ran : scan fuel m = some out) : m.pongs <+: out.2.pongs := by
  induction fuel generalizing m with
  | zero => cases ran
  | succ fuel ih =>
    rw [scan] at ran
    by_cases used_up : m.rxRaw.isEmpty = true
    · rw [if_pos used_up] at ran
      cases ran
      exact List.prefix_rfl
    rw [if_neg used_up] at ran
    rcases read : WebSocketClient.read m.ws m.rxRaw 4096 with ⟨e | r, ws⟩
    · rw [read] at ran
      cases e <;> cases ran
      exact List.prefix_rfl
    · rw [read] at ran
      obtain ⟨m₁, drained, ran⟩ := Option.bind_eq_some_iff.mp ran
      have same : m₁.pongs = m.pongs := by
        unfold drain at drained
        split at drained <;> cases drained
        rfl
      cases kind : r.messageType <;> simp only [kind] at ran
      · split at ran
        · obtain ⟨msg, _, ran⟩ := Option.bind_eq_some_iff.mp ran
          cases ran
          exact same ▸ List.prefix_rfl
        · have kept := ih ran
          rwa [← same]
      · rw [← same]
        exact ih ran
      · cases ran
      · cases ran
      · obtain ⟨m₂, ponged, ran⟩ := Option.bind_eq_some_iff.mp ran
        have more : m₁.pongs <+: m₂.pongs := by
          unfold pong at ponged
          split at ponged <;> cases ponged
          exact List.prefix_append _ _
        rw [← same]
        exact more.trans (ih ran)
      · rw [← same]
        exact ih ran

/-- **The loop of `try_next_text` on a line** does what it does where sending succeeds,
until a pong is not taken. -/
theorem Closing.scan_comes [WebSocketClient W] {fuel : Nat} {c : Closing W}
    {out : Option String × RawMesh W} (ran : RawMesh.scan fuel c.mesh = some out) :
    Comes (loop (decode line) c) (c.Follows out) := by
  induction fuel generalizing c with
  | zero => cases ran
  | succ fuel ih =>
    -- A round that breaks, and one that goes on with another mesh.
    have breaks : ∀ {answer : Option String} {mesh : RawMesh W}, out = (answer, mesh) →
        mesh.pongs = c.mesh.pongs → Ends (decode line c) (.ok (.inr (answer, { c with mesh }))) →
        Comes (loop (decode line) c) (c.Follows out) := by
      rintro answer mesh rfl same ends
      exact ⟨_, ends.breaks, rfl, rfl, rfl, Nat.le_refl _, fun _ => ⟨rfl, rfl⟩⟩
    have goes_on : ∀ {mesh : RawMesh W}, RawMesh.scan fuel mesh = some out →
        mesh.pongs = c.mesh.pongs → Ends (decode line c) (.ok (.inl { c with mesh })) →
        Comes (loop (decode line) c) (c.Follows out) := by
      intro mesh ran same ends
      obtain ⟨r, ends', follows⟩ := ih (c := { c with mesh }) ran
      exact ⟨r, ends.again ends', follows.after same⟩
    rw [RawMesh.scan] at ran
    by_cases used_up : c.mesh.rxRaw.isEmpty = true
    · rw [if_pos used_up] at ran
      apply breaks (Option.some.inj ran).symm rfl
      rw [decode, if_pos used_up]
      exact .return _
    rw [if_neg used_up] at ran
    rcases read : WebSocketClient.read c.mesh.ws c.mesh.rxRaw 4096 with ⟨e | r, ws⟩
    · rw [read] at ran
      cases e <;> cases ran
      apply breaks rfl rfl
      rw [decode, if_neg used_up, read]
      exact .return _
    · rw [read] at ran
      obtain ⟨m₁, drained, ran⟩ := Option.bind_eq_some_iff.mp ran
      have same : m₁.pongs = c.mesh.pongs := by
        unfold RawMesh.drain at drained
        split at drained <;> cases drained
        rfl
      have round : ∀ {r' : Except Stop (Closing W ⊕ (Option String × Closing W))},
          Ends (handle line r { c with mesh := m₁ }) r' → Ends (decode line c) r' := by
        intro r' rest
        rw [decode, if_neg used_up, read]
        exact (drain_ends drained).bind rest
      cases kind : r.messageType <;> simp only [kind, handle] at ran round
      · split at ran
        · rename_i ends
          obtain ⟨msg, decoded, ran⟩ := Option.bind_eq_some_iff.mp ran
          apply breaks (Option.some.inj ran).symm same
          apply round
          simp only [ends, ↓reduceIte, decoded]
          exact .return _
        · rename_i more
          apply goes_on ran same
          apply round
          simp only [more, Bool.false_eq_true, ↓reduceIte]
          exact .return _
      · apply goes_on ran same
        apply round
        exact .return _
      · cases ran
      · cases ran
      · obtain ⟨m₂, ponged, ran⟩ := Option.bind_eq_some_iff.mp ran
        rcases written : WebSocketClient.write m₁.ws .pong true r.payload (r.payload.length + 16)
          with ⟨e | reply, ws'⟩
        · rw [RawMesh.pong, written] at ponged
          cases ponged
        rw [RawMesh.pong, written] at ponged
        cases ponged
        have kept := RawMesh.scan_pongs ran
        obtain ⟨r', sent, stands⟩ := sendRaw_comes line reply
          { c with mesh := { m₁ with ws := ws', pongs := m₁.pongs ++ [r.payload] } }
        have sends : Ends (({ c with mesh := m₁ } : Closing W).pong line r.payload) r' := by
          rw [pong, written]
          exact sent
        cases r' with
        | error e =>
          refine ⟨_, (round (sends.stop _)).fails, stands, ?_⟩
          intro same'
          have length := kept.length_le
          rw [same', ← same, List.length_append, List.length_singleton] at length
          omega
        | ok c₁ =>
          obtain ⟨mesh, pumps, later⟩ := stands
          obtain ⟨r'', ends, follows⟩ := ih (c := c₁) (mesh ▸ ran)
          have again : Ends (decode line c) (.ok (.inl c₁)) := round (sends.bind (.return _))
          have pongs : c₁.mesh.pongs = c.mesh.pongs ++ [r.payload] := by rw [mesh, ← same]
          exact ⟨r'', again.again ends, follows.ponged pongs (mesh ▸ kept) pumps later⟩
      · apply goes_on ran same
        apply round
        exact .return _

end

/-! ## What has come by a pump -/

namespace Line

/-- What the first `n` pumps receive. -/
def received (line : Line) (n : Nat) : List UInt8 := (List.range n).flatMap line.receives

/-- The pumps receive these bytes, in this order. -/
def Carries (line : Line) (bytes : List UInt8) : Prop := ∀ n, line.received n <+: bytes

/-- How many bytes behind a response the first `n` pumps receive. -/
def streamed (line : Line) (response : List UInt8) (n : Nat) : Nat :=
  (line.received n).length - response.length

theorem received_succ (line : Line) (n : Nat) :
    line.received (n + 1) = line.received n ++ line.receives n := by
  rw [received, List.range_succ, List.flatMap_append, List.flatMap_singleton]
  rfl

theorem received_length_succ (line : Line) (n : Nat) :
    (line.received (n + 1)).length = (line.received n).length + (line.receives n).length := by
  rw [received_succ, List.length_append]

theorem received_length_mono (line : Line) {m n : Nat} (le : m ≤ n) :
    (line.received m).length ≤ (line.received n).length := by
  induction le with
  | refl => exact Nat.le_refl _
  | step _ ih =>
    rw [received_length_succ]
    omega

variable {line : Line} {response bytes : List UInt8} {n : Nat}

/-- Past the response, a pump receives the next bytes of the stream. -/
theorem drop_streamed (start : line.received (n + 1) <+: response ++ bytes)
    (past : response.length ≤ (line.received n).length) :
    bytes.drop (line.streamed response n) =
      line.receives n ++ bytes.drop (line.streamed response (n + 1)) := by
  obtain ⟨rest, whole⟩ := start
  rw [received_succ, List.append_assoc] at whole
  have ahead : bytes.drop (line.streamed response n) = line.receives n ++ rest := by
    have dropped := congrArg (List.drop (line.received n).length) whole
    rw [List.drop_left, List.drop_append, List.drop_eq_nil_of_le past, List.nil_append] at dropped
    exact dropped.symm
  have left : bytes.drop (line.streamed response (n + 1)) = rest := by
    have more : line.streamed response (n + 1) =
        line.streamed response n + (line.receives n).length := by
      have := line.received_length_succ n
      simp only [streamed]
      omega
    rw [more, ← List.drop_drop, ahead, List.drop_left]
  rw [ahead, left]

end Line

/-- No ping comes before the first text. -/
def Greets : List Frame → Prop
  | [] => True
  | f :: later => f.kind ≠ .ping ∧ (f.kind = .text ∧ f.final = true ∨ Greets later)

theorem Greets.ahead {f : Frame} {rest : List UInt8} {later : List Frame}
    (greets : Greets (f :: later)) (goes_on : ¬ (f.kind = .text ∧ f.final = true ∧ rest = [])) :
    Greets (ahead f rest later) := by
  unfold Frames.ahead
  split
  · rename_i done
    rcases greets.2 with ⟨text, final⟩ | later_greets
    · exact absurd ⟨text, final, done⟩ goes_on
    · exact later_greets
  · exact greets

section
variable {W : Type} [WebSocketClient W] {At : W → List Frame → Prop}

/-- Before the first text no pong is sent. -/
theorem Greets.scanned {m : RawMesh W} {frames frames' : List Frame}
    {out : Option String × RawMesh W} (greets : Greets frames)
    (steps : Scanned At m frames out frames') :
    out.2.pongs = m.pongs ∧ (out.1 = none → Greets frames') := by
  induction steps with
  | empty => exact ⟨rfl, fun _ => greets⟩
  | header => exact ⟨rfl, fun _ => greets⟩
  | message => exact ⟨rfl, fun told => by cases told⟩
  | piece round _ ih =>
    obtain ⟨same, kept⟩ := ih (greets.ahead round.goes_on)
    refine ⟨same.trans ?_, kept⟩
    rw [RawMesh.took, if_neg greets.1]

/-! ## The session on its line -/

/-- A session that stands in the stream behind the response. -/
structure Online (At : W → List Frame → Prop) (line : Line) (response : List UInt8) (s : Inbound)
    (returned : List String) (c : Closing W) (frames : List Frame) : Prop where
  past : response.length ≤ (line.received c.pumps).length
  reading : Reading At s (line.streamed response c.pumps) returned c.mesh frames
    (s.bytes.drop (line.streamed response c.pumps))

variable {line : Line} {response : List UInt8} {s : Inbound} {returned : List String}
  {c : Closing W} {frames : List Frame}

omit [WebSocketClient W] in
/-- No more is in hand than has come. -/
theorem Online.held (online : Online At line response s returned c frames) :
    c.mesh.rxRaw.length ≤ (line.received c.pumps).length := by
  have all := online.reading.behind.length_le
  rw [online.reading.split, List.length_append, List.length_drop] at all
  have streamed : line.streamed response c.pumps ≤ (line.received c.pumps).length :=
    Nat.sub_le _ _
  omega

/-- The next text, if the pumps so far complete it. -/
def Inbound.answer (s : Inbound) (line : Line) (response : List UInt8) (returned pumps : Nat) :
    Option String :=
  (s.textsIn (line.streamed response pumps))[returned]?

/-- **A call of `try_next_text` on a line** answers the next text, if what the pumps
receive by then completes it, unless a pong is not taken. -/
theorem Online.tryNextText_comes (decodes : Decodes At)
    (start : line.received (c.pumps + 1) <+: response ++ s.bytes)
    (online : Online At line response s returned c frames) :
    Comes (c.tryNextText line) fun
      | .ok (answer, c') =>
        answer = s.answer line response returned.length (c.pumps + 1) ∧
          c.mesh.tryNextText (line.receives c.pumps) = some (answer, c'.mesh) ∧
          c'.pumps = c.pumps + 1 ∧ c.readings < c'.readings ∧
          ∃ frames', Online At line response s (returned ++ answer.toList) c' frames' ∧
            (Greets frames → c'.readings = c.readings + 1 ∧ (answer = none → Greets frames'))
      | .error e => e = .send ∧ ¬ Greets frames := by
  have reading := online.reading
  rw [line.drop_streamed start online.past] at reading
  obtain ⟨m', frames', answered, steps, reading'⟩ := reading.next decodes
  have streamed : line.streamed response c.pumps + (line.receives c.pumps).length =
      line.streamed response (c.pumps + 1) := by
    have := line.received_length_succ c.pumps
    have := online.past
    simp only [Line.streamed]
    omega
  rw [streamed] at answered steps reading'
  have past : response.length ≤ (line.received (c.pumps + 1)).length := by
    have := line.received_length_succ c.pumps
    have := online.past
    omega
  refine (Closing.scan_comes (c := c.pump line) answered).mono ?_
  rintro (e | ⟨answer, c'⟩) follows
  · obtain ⟨rfl, ponged⟩ := follows
    exact ⟨rfl, fun greets => ponged (greets.scanned steps).1⟩
  · obtain ⟨rfl, rfl, pumps, later, quiet⟩ := follows
    refine ⟨rfl, answered, pumps, later, frames', ⟨?_, ?_⟩, fun greets => ?_⟩
    · rw [pumps]
      exact past
    · rw [pumps]
      exact reading'
    · obtain ⟨same, kept⟩ := greets.scanned steps
      exact ⟨(quiet same).1, kept⟩

end

end ApexosRv
