import ApexosRv.JsonText
import ApexosRv.Online

/-!
# Opening the session

`establish` (`kernel/src/net/mesh.rs`) by its bytes and its deadlines: the upgrade
request out, the response in, and the first text, which names the session.
-/

namespace ApexosRv

open RustStr Frames Fueled

structure WebSocketOptions where
  path : String
  host : String
  origin : String
  subProtocols : Option (List String)
  additionalHeaders : Option (List String)
  deriving DecidableEq, Repr

/-- A client that can write its upgrade request, to a buffer of this size. -/
class UpgradeClient (W : Type) extends WebSocketClient W where
  clientConnect : W → WebSocketOptions → Nat → Except WsError (List UInt8) × W

/-- Its history is not looked at. -/
inductive GatewayControl where
  | sessionInit (sessionId : UInt64)
  deriving DecidableEq, Repr

/-- `serde_json::from_str::<GatewayControl>`. -/
class GatewayJson where
  controlFromStr : String → Option GatewayControl

/-- `APEXRV_TOKEN`, and `APEXRV_GATEWAY_IP` as it goes into the request. -/
structure GatewayBuild where
  token : Option String
  host : String
  deriving DecidableEq, Repr

def GatewayBuild.options (gateway : GatewayBuild) : WebSocketOptions where
  path := "/ws"
  host := gateway.host
  origin := ""
  subProtocols := none
  additionalHeaders := gateway.token.map fun t => ["Authorization: Bearer " ++ t]

namespace Closing

variable {W : Type}

def idleTick (line : Line) (deadline : UInt64) (what : String) (c : Closing W) :
    Fueled Stop (Closing W) :=
  match line.idleTick deadline c.readings with
  | some readings => return { c with readings }
  | none => panic (.timedOut what)

/-- `loop` around an attempt, with an `idle_tick` after one that answers nothing. -/
def wait {α : Type} (line : Line) (deadline : UInt64) (what : String)
    (attempt : Closing W → Fueled Stop (Option α × Closing W)) (c : Closing W) :
    Fueled Stop (α × Closing W) :=
  c |> loop fun c => do
    let (answer, c) ← attempt c
    match answer with
    | some a => return .inr (a, c)
    | none => return .inl (← c.idleTick line deadline what)

section
variable [WebSocketClient W]

def nextText (line : Line) (deadline : UInt64) (c : Closing W) :
    Fueled Stop (String × Closing W) :=
  c.wait line deadline "awaiting ws frame" (tryNextText line)

/-- A round of the handshake loop of `establish`, up to its `idle_tick`. -/
def accept (line : Line) (c : Closing W) : Fueled Stop (Option Unit × Closing W) :=
  let c := c.pump line
  match WebSocketClient.clientAccept c.mesh.ws c.mesh.rxRaw with
  | (.ok consumed, ws) => return (some (), ← c.drain ws consumed)
  | (.error .httpHeaderIncomplete, ws) => return (none, { c with mesh := { c.mesh with ws } })
  | (.error e, _) => panic (.handshake e)

def awaitResponse (line : Line) (deadline : UInt64) (c : Closing W) :
    Fueled Stop (Unit × Closing W) :=
  c.wait line deadline "ws handshake" (accept line)

end

/-- The session is announced with the id its first text has. Setting up the interface
reads the clock, too. -/
def establish [UpgradeClient W] [GatewayJson] (line : Line) (gateway : GatewayBuild) (ws : W) :
    Fueled Stop (UInt64 × Closing W) := do
  match UpgradeClient.clientConnect ws gateway.options 2048 with
  | (.error e, _) => panic (.upgrade e)
  | (.ok upgrade, ws) =>
    let c ← sendRaw line upgrade ⟨⟨ws, [], [], []⟩, 1, 0, 0⟩
    let deadline := line.clock c.readings + ESTABLISH_TIMEOUT
    let ((), c) ← awaitResponse line deadline { c with readings := c.readings + 1 }
    let (text, c) ← nextText line deadline c
    match GatewayJson.controlFromStr text with
    | some (.sessionInit sessionId) => return (sessionId, c)
    | none => panic .sessionInit

end Closing

/-! ## Waiting -/

/-- Of rounds with a pump each, round `j` is the first that finds what it waits for, and
no check before it is late. A round reads the clock for its pump, for the check and to
arm the timer. -/
structure Line.InTime (line : Line) (deadline : UInt64) (readings : Nat) (ready : Nat → Prop)
    (j : Nat) : Prop where
  comes : ready j
  first : ∀ i < j, ¬ ready i
  timely : ∀ i < j, line.clock (readings + 3 * i + 1) ≤ deadline

section
variable {W α : Type} {line : Line}

/-- The loop around an attempt ends. As far as attempts read the clock once, it returns
exactly if what it waits for comes in time. -/
theorem Closing.wait_comes {deadline : UInt64} (passes : ∃ i, deadline < line.clock i)
    {what : String}
    {attempt : Closing W → Fueled Stop (Option α × Closing W)} {r : Nat} (quiet : Prop)
    (ready : Nat → Prop) (I : Nat → Closing W → Prop) (Q : Nat → α → Closing W → Prop)
    (E : Stop → Prop) (tries : ∀ i c, I i c → Comes (attempt c) fun
      | .ok (some a, c') => ready i ∧ Q i a c' ∧ (quiet → c'.readings = c.readings + 1)
      | .ok (none, c') => ¬ ready i ∧ c.readings < c'.readings ∧
          (∀ readings, I (i + 1) { c' with readings }) ∧ (quiet → c'.readings = c.readings + 1)
      | .error e => E e ∧ ¬ quiet) {c : Closing W} (start : I 0 c) (first : c.readings = r) :
    Comes (c.wait line deadline what attempt) fun
      | .ok (a, c') => ∃ j, Q j a c' ∧
          (quiet → line.InTime deadline r ready j ∧ c'.readings = r + 3 * j + 1)
      | .error e => (E e ∨ e = .timedOut what) ∧
          (quiet → ∀ j, ¬ line.InTime deadline r ready j) := by
  obtain ⟨last, late⟩ := passes
  let J : Nat → Closing W → Prop := fun n c => n = last + 2 - c.readings ∧ ∃ i, I i c ∧
    (quiet → c.readings = r + 3 * i ∧ (∀ k < i, ¬ ready k) ∧
      ∀ k < i, line.clock (r + 3 * k + 1) ≤ deadline)
  refine Comes.loop (I := J) ?_ ⟨rfl, 0, start, fun _ => ⟨first, by simp, by simp⟩⟩
  rintro n c ⟨rfl, i, here, timed⟩
  apply Comes.bind
  refine (tries i c here).mono ?_
  rintro (e | ⟨answer, c'⟩) attempted
  · exact ⟨.inl attempted.1, fun still => absurd still attempted.2⟩
  cases answer with
  | some a =>
    obtain ⟨comes, holds, counted⟩ := attempted
    apply Comes.return
    refine ⟨i, holds, ?_⟩
    intro still
    obtain ⟨readings, before, timely⟩ := timed still
    exact ⟨⟨comes, before, timely⟩, by rw [counted still, readings]⟩
  | none =>
    obtain ⟨waits, later, goes_on, counted⟩ := attempted
    apply Comes.bind
    unfold idleTick Line.idleTick
    split
    · rename_i readings ticked
      split at ticked
      · cases ticked
      cases ticked
      rename_i in_time
      apply Comes.return
      apply Comes.return
      refine ⟨_, ?_, rfl, i + 1, goes_on _, fun still => ?_⟩
      · have early : c'.readings < last := by
          by_contra reached
          have now := line.clock_mono (Nat.le_of_not_lt reached)
          exact in_time (UInt64.lt_of_lt_of_le late now)
        simp only
        omega
      · obtain ⟨readings, before, timely⟩ := timed still
        have now := counted still
        refine ⟨by simp only; omega, fun k earlier => ?_, fun k earlier => ?_⟩
        · rcases Nat.lt_succ_iff_lt_or_eq.mp earlier with earlier | rfl
          · exact before k earlier
          · exact waits
        · rcases Nat.lt_succ_iff_lt_or_eq.mp earlier with earlier | rfl
          · exact timely k earlier
          · rw [← readings, ← now]
            exact UInt64.not_lt.mp in_time
    · rename_i ticked
      split at ticked
      swap
      · cases ticked
      rename_i is_late
      apply Comes.panic
      refine ⟨.inr rfl, ?_⟩
      intro still j in_time
      obtain ⟨readings, before, timely⟩ := timed still
      rcases Nat.lt_trichotomy j i with earlier | rfl | after
      · exact before j earlier in_time.comes
      · exact waits in_time.comes
      · have := in_time.timely i after
        rw [← readings, ← counted still] at this
        exact UInt64.not_le.mpr is_late this

end

theorem Line.InTime.unique {line : Line} {deadline : UInt64} {readings j k : Nat}
    {ready : Nat → Prop} (here : line.InTime deadline readings ready j)
    (there : line.InTime deadline readings ready k) :
    j = k := by
  rcases Nat.lt_trichotomy j k with before | same | after
  · exact absurd here.comes (there.first j before)
  · exact same
  · exact absurd there.comes (here.first k after)

section
variable {W : Type} [WebSocketClient W] {Up : W → Prop} {At : W → List Frame → Prop} {line : Line}
  {response : List UInt8} {s : Inbound} {c : Closing W} {deadline : UInt64}

/-- Pump `i` completes the response. -/
def Line.Responds (line : Line) (response : List UInt8) (i : Nat) : Prop :=
  response.length ≤ (line.received (i + 1)).length

/-- The wait for the response ends, before the whole stream or late. Up to the response
it is the stream that is received. -/
theorem Closing.awaitResponse_comes (passes : ∃ i, deadline < line.clock i)
    (upgrades : Upgrades Up At response s.frames)
    (brings : ∀ n, (line.received n).length < response.length →
      line.received (n + 1) <+: response ++ s.bytes) {ws : W} (up : Up ws)
    (fresh : c.mesh = ⟨ws, [], [], []⟩) (pumps : c.pumps = 0) :
    Comes (c.awaitResponse line deadline) fun
      | .ok ((), c') => ∃ a, line.InTime deadline c.readings (line.Responds response) a ∧
          c'.readings = c.readings + 3 * a + 1 ∧ c'.pumps = a + 1 ∧
          Online At line response s [] c' s.frames
      | .error e => e = .timedOut "ws handshake" ∧
          ∀ a, ¬ line.InTime deadline c.readings (line.Responds response) a := by
  let I : Nat → Closing W → Prop := fun i c => c.pumps = i ∧
    (line.received i).length < response.length ∧
    ∃ ws, Up ws ∧ c.mesh = ⟨ws, line.received i, [], []⟩
  let Q : Nat → Unit → Closing W → Prop := fun i _ c' =>
    c'.pumps = i + 1 ∧ Online At line response s [] c' s.frames
  have start : I 0 c := ⟨pumps, List.length_pos_iff.mpr upgrades.answered, ws, up, fresh⟩
  unfold awaitResponse
  refine (wait_comes passes True (line.Responds response) I Q (fun _ => False) ?_ start rfl).mono ?_
  swap
  · rintro (e | ⟨⟨⟩, c'⟩) waited
    · exact ⟨waited.1.resolve_left id, waited.2 trivial⟩
    · obtain ⟨a, ⟨pumps, online⟩, timed⟩ := waited
      exact ⟨a, (timed trivial).1, (timed trivial).2, pumps, online⟩
  rintro i c ⟨rfl, short, ws, up, stands⟩
  have pumped : (c.pump line).mesh = ⟨ws, line.received (c.pumps + 1), [], []⟩ := by
    rw [pump, stands, RawMesh.pump, Line.received_succ]
  have start := brings c.pumps short
  unfold accept
  simp only [pumped]
  by_cases more : (line.received (c.pumps + 1)).length < response.length
  · have part : line.received (c.pumps + 1) <+: response :=
      List.prefix_of_prefix_length_le start (List.prefix_append _ _) (by omega)
    obtain ⟨ws', asked, up'⟩ := upgrades.waits up part more
    simp only [asked]
    apply Comes.return
    exact ⟨Nat.not_le.mpr more, Nat.lt_succ_self _, fun readings => ⟨rfl, more, ws', up', rfl⟩,
      fun _ => rfl⟩
  · obtain ⟨early, whole⟩ : response <+: line.received (c.pumps + 1) :=
      List.prefix_of_prefix_length_le (List.prefix_append _ _) start (by omega)
    have ahead : early <+: s.bytes := by
      rwa [← whole, List.prefix_append_right_inj] at start
    obtain ⟨ws', accepted, stands'⟩ := upgrades.accepts up ahead
    have drained : RawMesh.drain { (c.pump line).mesh with ws := ws' } response.length =
        some ⟨ws', early, [], []⟩ := by
      simp [pumped, RawMesh.drain, ← whole]
    simp only [← whole, accepted]
    apply Comes.bind
    refine ⟨_, drain_ends drained, ?_⟩
    apply Comes.return
    refine ⟨Nat.le_of_not_lt more, ⟨rfl, ⟨Nat.le_of_not_lt more, ?_⟩⟩, fun _ => rfl⟩
    have taken : line.streamed response (c.pumps + 1) = early.length := by
      rw [Line.streamed, ← whole, List.length_append, Nat.add_sub_cancel_left]
    show Reading At s (line.streamed response (c.pumps + 1)) [] ⟨ws', early, [], []⟩ s.frames
      (s.bytes.drop (line.streamed response (c.pumps + 1)))
    rw [taken]
    apply Reading.opened stands'
    obtain ⟨rest, split⟩ := ahead
    rw [← split, List.drop_left]

/-- Round `i` of the wait for a text completes it. -/
def Inbound.Tells (s : Inbound) (line : Line) (response : List UInt8) (returned pumps i : Nat) :
    Prop :=
  (s.answer line response returned (pumps + i + 1)).isSome = true

/-- The wait for a text ends, with the next text of the stream, or late. Up to the text
it is the stream that is received. -/
theorem Online.nextText_comes (passes : ∃ i, deadline < line.clock i) (decodes : Decodes At)
    {returned : List String} {frames : List Frame}
    (online : Online At line response s returned c frames)
    (brings : ∀ n, c.pumps ≤ n →
      (∀ k, c.pumps ≤ k → k < n → s.answer line response returned.length (k + 1) = none) →
      line.received (n + 1) <+: response ++ s.bytes) :
    Comes (c.nextText line deadline) fun
      | .ok (text, c') =>
        (s.textsIn (line.streamed response c'.pumps))[returned.length]? = some text ∧
          (∃ frames', Online At line response s (returned ++ [text]) c' frames') ∧
          (Greets frames → ∃ b, line.InTime deadline c.readings
            (s.Tells line response returned.length c.pumps) b)
      | .error e => (e = .send ∨ e = .timedOut "awaiting ws frame") ∧
          (Greets frames → ∀ b, ¬ line.InTime deadline c.readings
            (s.Tells line response returned.length c.pumps) b) := by
  let I : Nat → Closing W → Prop := fun i c' => c'.pumps = c.pumps + i ∧
    (∀ k < i, s.answer line response returned.length (c.pumps + k + 1) = none) ∧
    ∃ frames', Online At line response s returned c' frames' ∧ (Greets frames → Greets frames')
  let Q : Nat → String → Closing W → Prop := fun i text c' => c'.pumps = c.pumps + i + 1 ∧
    s.answer line response returned.length (c.pumps + i + 1) = some text ∧
    ∃ frames', Online At line response s (returned ++ [text]) c' frames'
  have start : I 0 c := ⟨rfl, by simp, frames, online, id⟩
  unfold Closing.nextText
  refine (Closing.wait_comes passes (Greets frames)
    (s.Tells line response returned.length c.pumps) I Q (· = .send) ?_ start rfl).mono ?_
  swap
  · rintro (e | ⟨text, c'⟩) waited
    · exact waited
    · obtain ⟨b, ⟨pumps, told, online'⟩, timed⟩ := waited
      rw [← pumps] at told
      exact ⟨told, online', fun greets => ⟨b, (timed greets).1⟩⟩
  rintro i c' ⟨pumps, silent, frames', online', kept⟩
  have start : line.received (c'.pumps + 1) <+: response ++ s.bytes := by
    rw [pumps]
    apply brings _ (Nat.le_add_right _ _)
    intro k from_here before
    have so_far := silent (k - c.pumps) (by omega)
    rwa [Nat.add_sub_cancel' from_here] at so_far
  refine (online'.tryNextText_comes decodes start).mono ?_
  rintro (e | ⟨answer, c''⟩) tried
  · exact ⟨tried.1, fun greets => tried.2 (kept greets)⟩
  obtain ⟨told, -, pumps', later, frames'', online'', quiet⟩ := tried
  rw [pumps] at told pumps'
  cases answer with
  | some text =>
    have tells : s.Tells line response returned.length c.pumps i := by
      rw [Inbound.Tells, ← told]
      rfl
    exact ⟨tells, ⟨pumps', told.symm, frames'', online''⟩, fun greets => (quiet (kept greets)).1⟩
  | none =>
    have silent' : ¬ s.Tells line response returned.length c.pumps i := by
      rw [Inbound.Tells, ← told]
      exact Bool.false_ne_true
    rw [Option.toList_none, List.append_nil] at online''
    refine ⟨silent', later, fun readings => ⟨pumps', fun k earlier => ?_, frames'', ?_, ?_⟩, ?_⟩
    · rcases Nat.lt_succ_iff_lt_or_eq.mp earlier with earlier | rfl
      · exact silent k earlier
      · exact told.symm
    · exact ⟨online''.past, online''.reading⟩
    · exact fun greets => (quiet (kept greets)).2 rfl
    · exact fun greets => (quiet (kept greets)).1

end

/-! ## Opening the session -/

/-- Pump `k` brings the rest of the first text behind the response. -/
def Line.Greeted (line : Line) (response : List UInt8) (s : Inbound) (k : Nat) : Prop :=
  response.length ≤ (line.received k).length ∧ s.answer line response 0 (k + 1) ≠ none

/-- Until the session is open, it is the response and the stream that are received. -/
def Line.Brings (line : Line) (response : List UInt8) (s : Inbound) : Prop :=
  ∀ n, (∀ k < n, ¬ line.Greeted response s k) → line.received (n + 1) <+: response ++ s.bytes

theorem Line.Carries.brings {line : Line} {response : List UInt8} {s : Inbound}
    (carries : line.Carries (response ++ s.bytes)) : line.Brings response s :=
  fun n _ => carries (n + 1)

/-- The request is taken in time, then the response and the first text come in time,
and the first text names a session. -/
def Line.Opens {W : Type} [GatewayJson] (line : Line) (upgrade response : List UInt8)
    (s : Inbound) (ws : W) : Prop :=
  ∃ c, Ends (Closing.sendRaw line upgrade ⟨⟨ws, [], [], []⟩, 1, 0, 0⟩) (.ok c) ∧
    ∃ a, line.InTime (line.clock c.readings + ESTABLISH_TIMEOUT) (c.readings + 1)
      (line.Responds response) a ∧
    (∃ b, line.InTime (line.clock c.readings + ESTABLISH_TIMEOUT) (c.readings + 1 + 3 * a + 1)
      (s.Tells line response 0 (a + 1)) b) ∧
    ∃ text, s.texts.head? = some text ∧ (GatewayJson.controlFromStr text).isSome = true

section
variable {W : Type} [UpgradeClient W] [GatewayJson] {Up : W → Prop} {At : W → List Frame → Prop}
  {line : Line} {response : List UInt8} {s : Inbound}

/-- What `establish` comes to. -/
theorem establish_comes (decodes : Decodes At) (upgrades : Upgrades Up At response s.frames)
    (brings : line.Brings response s) {gateway : GatewayBuild} {ws ws' : W}
    {upgrade : List UInt8}
    (connects : UpgradeClient.clientConnect ws gateway.options 2048 = (.ok upgrade, ws'))
    (up : Up ws') :
    Comes (Closing.establish line gateway ws) fun
      | .ok (sessionId, c) => (∃ text frames, s.texts.head? = some text ∧
          GatewayJson.controlFromStr text = some (.sessionInit sessionId) ∧
          Online At line response s [text] c frames) ∧
          (Greets s.frames → line.Opens upgrade response s ws')
      | .error e => (e = .send ∨ e = .timedOut "ws handshake" ∨ e = .timedOut "awaiting ws frame" ∨
          e = .sessionInit) ∧ (Greets s.frames → ¬ line.Opens upgrade response s ws') := by
  unfold Closing.establish
  simp only [connects]
  apply Comes.bind
  obtain ⟨r, sent, stands⟩ := Closing.sendRaw_comes line upgrade ⟨⟨ws', [], [], []⟩, 1, 0, 0⟩
  refine ⟨r, sent, ?_⟩
  rcases r with e | c
  · refine ⟨.inl stands, fun _ ⟨c, sent', _⟩ => ?_⟩
    cases sent.unique sent'
  obtain ⟨mesh, pumps, -⟩ := stands
  have first (n : Nat) (short : (line.received n).length < response.length) :
      line.received (n + 1) <+: response ++ s.bytes := by
    apply brings n
    intro k before greeted
    have sooner := line.received_length_mono (Nat.le_of_lt before)
    exact absurd greeted.1 (by omega)
  apply Comes.bind
  refine (Closing.awaitResponse_comes (c := { c with readings := c.readings + 1 })
    (line.passes c.readings) upgrades first up mesh pumps).mono ?_
  rintro (e | ⟨⟨⟩, c₁⟩) waited
  · refine ⟨.inr (.inl waited.1), fun _ ⟨c', sent', a, in_time, _⟩ => ?_⟩
    cases sent.unique sent'
    exact waited.2 a in_time
  obtain ⟨a, in_time, readings, pumps₁, online⟩ := waited
  have second (n : Nat) (_ : c₁.pumps ≤ n) (silent : ∀ k, c₁.pumps ≤ k → k < n →
      s.answer line response ([] : List String).length (k + 1) = none) :
      line.received (n + 1) <+: response ++ s.bytes := by
    apply brings n
    intro k before greeted
    by_cases behind : c₁.pumps ≤ k
    · exact greeted.2 (silent k behind before)
    cases k with
    | zero => exact absurd greeted.1 (Nat.not_le.mpr (List.length_pos_iff.mpr upgrades.answered))
    | succ k => exact in_time.first k (by omega) greeted.1
  apply Comes.bind
  refine (online.nextText_comes (line.passes c.readings) decodes second).mono ?_
  rintro (e | ⟨text, c₂⟩) told
  · refine ⟨told.1.elim .inl fun late => .inr (.inr (.inl late)), ?_⟩
    rintro greets ⟨c', sent', a', in_time', ⟨b, text_in_time⟩, _⟩
    cases sent.unique sent'
    cases in_time.unique in_time'
    refine told.2 greets b ?_
    rw [readings, pumps₁]
    exact text_in_time
  obtain ⟨told, ⟨frames, online'⟩, in_time'⟩ := told
  have first : s.texts.head? = some text := by
    obtain ⟨more, whole⟩ := s.textsIn_start (line.streamed response c₂.pumps)
    rw [List.length_nil] at told
    rw [← whole, List.head?_append, List.head?_eq_getElem?, told]
    rfl
  rcases parsed : GatewayJson.controlFromStr text with _ | ⟨⟨sessionId⟩⟩
  · simp only [parsed]
    apply Comes.panic
    refine ⟨.inr (.inr (.inr rfl)), fun _ ⟨_, _, _, _, _, text', first', parses⟩ => ?_⟩
    cases first.symm.trans first'
    rw [parsed] at parses
    cases parses
  · simp only [parsed]
    apply Comes.return
    refine ⟨⟨text, frames, first, parsed, online'⟩, ?_⟩
    intro greets
    obtain ⟨b, text_in_time⟩ := in_time' greets
    rw [readings, pumps₁] at text_in_time
    exact ⟨c, sent, a, in_time, ⟨b, text_in_time⟩, text, first, by rw [parsed]; rfl⟩

/-- `mesh::smoke`, with the line it prints once the session is open. The exit code is 0
if it returns, and that of a panic otherwise. -/
def smoke (line : Line) (nic : Option (Vector UInt8 6)) (gateway : GatewayBuild) (ws : W) :
    Fueled Stop String := do
  if nic.isNone then panic Stop.nic
  let (sessionId, c) ← Closing.establish line gateway ws
  let _ ← call .send (closeClean line · c) closeClean_of_le
  return "mesh: session " ++ toString sessionId.toNat ++ " established"

/-- The close frame of the session that is opened is taken in time, and the heap has room
for what comes after it. -/
def Line.Closes (line : Line) (gateway : GatewayBuild) (ws : W) : Prop :=
  ∀ sessionId c, Ends (Closing.establish line gateway ws) (.ok (sessionId, c)) →
    c.Takes line ∧ c.Fits line

omit [UpgradeClient W] [GatewayJson] in
/-- A heap with room for all that comes has room while the session closes. -/
theorem Online.fits [WebSocketClient W] (bounded : Bounded W) {returned : List String}
    {c : Closing W} {frames : List Frame}
    (online : Online At line response s returned c frames)
    (ample : ∀ n, (line.received (n + 1)).length ≤ line.room n) : c.Fits line := by
  refine Closing.fits_of_ample bounded (fun n => (line.received n).length) online.held ?_ ample
  intro n
  rw [line.received_length_succ]

omit [GatewayJson] in
/-- Closing the session ends, without a panic exactly if the close frame is taken and the
heap has room. -/
theorem Closing.closeClean_comes (bounded : Bounded W) (line : Line) (c : Closing W) :
    Comes (call Stop.send (closeClean line · c) closeClean_of_le) fun
      | .ok _ => c.Takes line ∧ c.Fits line
      | .error _ => ¬ (c.Takes line ∧ c.Fits line) := by
  obtain ⟨fuel, r, closed⟩ := closeClean_ends bounded line c
  have ends := Ends.call closeClean_of_le Stop.send closed
  refine ⟨_, ends, ?_⟩
  cases r with
  | some c' => exact (closeClean_returns_iff bounded).mp ⟨fuel, c', closed⟩
  | none =>
    intro takes
    obtain ⟨fuel', c', returned⟩ := (closeClean_returns_iff bounded).mpr takes
    have ends' := Ends.call closeClean_of_le Stop.send returned
    cases ends.unique ends'

end

/-! ## The gateway of the gate -/

namespace Mockd

def controlOf (v : Json) : Option GatewayControl := do
  let type ← (v.index "type".toList).text?
  let session ← (v.index "session_id".toList).nat?
  if type = "session_init".toList then some (.sessionInit (.ofNat session)) else none

@[reducible] def controlTexts : GatewayJson where
  controlFromStr text := (Json.parse text.toList).bind controlOf

/-- The first text of each session. -/
def sessionInit : List Char :=
  "\x7b\"type\": \"session_init\", \"session_id\": 42, \"history\": []\x7d".toList

/-- What the `ws` mode sends. -/
def greeting : Inbound where
  frames := [⟨.text, true, [0x81, 0x39], sessionInit.flatMap String.utf8EncodeChar⟩]
  headed := by decide
  utf8 := by
    intro text here
    obtain rfl := List.mem_singleton.mp here
    rw [List.nil_append, ← bytes_ofList, fromUtf8_bytes]
    rfl

theorem greeting_texts : greeting.texts = [String.ofList sessionInit] := by
  show [([] : List UInt8) ++ sessionInit.flatMap String.utf8EncodeChar].filterMap fromUtf8 = _
  rw [List.nil_append, ← bytes_ofList, List.filterMap_cons, fromUtf8_bytes]
  rfl

theorem greeting_greets : Greets greeting.frames := ⟨by decide, .inl ⟨rfl, rfl⟩⟩

/-- The upgrade request, with the key that `switching` answers. -/
def upgradeRequest (options : WebSocketOptions) : List UInt8 :=
  ("GET ".toList ++ options.path.toList ++ " HTTP/1.1\r\nHost: ".toList ++ options.host.toList ++
    "\r\nUpgrade: websocket\r\nConnection: Upgrade\r\nSec-WebSocket-Key: ".toList ++
    "LBhV+gaSVKPR6XWR2nukiQ==\r\nOrigin: ".toList ++ options.origin.toList ++
    "\r\nSec-WebSocket-Version: 13\r\n".toList ++
    (options.additionalHeaders.getD []).flatMap (fun header => header.toList ++ "\r\n".toList) ++
    "\r\n".toList).flatMap String.utf8EncodeChar

instance : UpgradeClient Cursor where
  clientConnect c options cap :=
    let request := upgradeRequest options
    if request.length ≤ cap then (.ok request, c) else (.error .other, c)

def gateOptions : GatewayBuild := ⟨none, "10.0.2.2"⟩

/-- A socket that takes what it is offered. The response comes in two parts, the second
with half the header of the text. -/
def gateLine : Line :=
  { resetLine with
    offers := fun _ => .accepts 2048
    receives := fun i => [switching.take 40, switching.drop 40 ++ [0x81],
      0x39 :: sessionInit.flatMap String.utf8EncodeChar].getD i [] }

def gateCursor : Cursor := ⟨switching, greeting.frames⟩

theorem upgradeRequest_length : (upgradeRequest gateOptions.options).length = 159 := by
  decide +kernel

section
-- The bytes of the response need not be looked at.
attribute [local irreducible] switching

theorem gateLine_received : gateLine.received 1 = switching.take 40 ∧
    gateLine.received 2 = switching ++ [0x81] ∧
    ∀ n, gateLine.received (n + 3) = switching ++ greeting.bytes := by
  have first : gateLine.received 1 = switching.take 40 := by
    rw [Line.received_succ]
    exact List.nil_append _
  have second : gateLine.received 2 = switching ++ [0x81] := by
    rw [Line.received_succ, first]
    show switching.take 40 ++ (switching.drop 40 ++ [0x81]) = _
    rw [← List.append_assoc, List.take_append_drop]
  refine ⟨first, second, ?_⟩
  intro n
  induction n with
  | zero =>
    rw [Line.received_succ, second, List.append_assoc]
    rfl
  | succ n ih =>
    rw [Line.received_succ, ih]
    exact List.append_nil _

theorem gateLine_carries : gateLine.Carries (switching ++ greeting.bytes) := by
  obtain ⟨first, second, all⟩ := gateLine_received
  rintro (_ | _ | _ | n)
  · exact List.nil_prefix
  · rw [first]
    exact (List.take_prefix 40 _).trans (List.prefix_append _ _)
  · rw [second, List.prefix_append_right_inj]
    exact ⟨0x39 :: sessionInit.flatMap String.utf8EncodeChar, rfl⟩
  · exact all n ▸ List.prefix_rfl

end

theorem gate_connects : UpgradeClient.clientConnect gateCursor gateOptions.options 2048 =
    (.ok (upgradeRequest gateOptions.options), gateCursor) :=
  if_pos (by rw [upgradeRequest_length]; decide)

section
attribute [local instance] controlTexts

theorem sessionInit_parses : GatewayJson.controlFromStr (String.ofList sessionInit) =
    some (.sessionInit 42) := by
  show (Json.parse (String.ofList sessionInit).toList).bind controlOf = _
  rw [String.toList_ofList]
  decide +kernel

theorem gateLine_opens :
    gateLine.Opens (upgradeRequest gateOptions.options) switching greeting gateCursor := by
  obtain ⟨first, second, all⟩ := gateLine_received
  have offer : gateLine.offers 0 = .accepts 2048 := rfl
  have sent : Ends (Closing.sendRaw gateLine (upgradeRequest gateOptions.options)
      ⟨⟨gateCursor, [], [], []⟩, 1, 0, 0⟩) (.ok ⟨⟨gateCursor, [], [], []⟩, 4, 1, 0⟩) := by
    refine Closing.sendRaw_taken ?_ offer ?_
    · rw [upgradeRequest_length]
      decide
    · rw [upgradeRequest_length]
      decide
  have responds : gateLine.InTime (gateLine.clock 4 + ESTABLISH_TIMEOUT) 5
      (gateLine.Responds switching) 1 := by
    refine ⟨?_, ?_, ?_⟩
    · rw [Line.Responds, second, List.length_append]
      exact Nat.le_add_right _ _
    · intro i here
      obtain rfl := Nat.lt_one_iff.mp here
      rw [Line.Responds, first, List.length_take, switching_length]
      decide
    · intro i here
      obtain rfl := Nat.lt_one_iff.mp here
      decide
  have tells : greeting.Tells gateLine switching 0 2 0 := by
    have streamed : gateLine.streamed switching 3 = greeting.bytes.length := by
      rw [Line.streamed, all 0, List.length_append, Nat.add_sub_cancel_left]
    rw [Inbound.Tells, Inbound.answer, greeting.textsIn_all (Nat.le_of_eq streamed.symm),
      greeting_texts]
    rfl
  have parses : (GatewayJson.controlFromStr (String.ofList sessionInit)).isSome = true := by
    rw [sessionInit_parses]
    rfl
  exact ⟨_, sent, 1, responds, ⟨0, tells, by simp, by simp⟩,
    String.ofList sessionInit, by rw [greeting_texts]; rfl, parses⟩

theorem gate_upgrades : Upgrades (fun c : Cursor => c = gateCursor) Cursor.At switching
    greeting.frames :=
  Cursor.upgrades switching_ne_nil greeting

theorem gate_closes : gateLine.Closes gateOptions gateCursor := by
  intro sessionId c ends
  have comes :=
    establish_comes Cursor.decodes gate_upgrades gateLine_carries.brings gate_connects rfl
  obtain ⟨⟨text, frames, -, -, online⟩, -⟩ := comes.of_ends ends
  refine ⟨?_, online.fits Cursor.bounded fun n => ?_⟩
  · rintro frame ws ⟨⟩
    have takes : 8 ≤ gateLine.accepted c.attempts 1 := by
      show 8 ≤ 2048 + 0
      omega
    exact ⟨1, takes, fun _ _ => nofun, by omega⟩
  · have most := (gateLine_carries (n + 1)).length_le
    have sent : greeting.bytes.length = 59 := by decide +kernel
    rw [List.length_append, switching_length, sent] at most
    exact most.trans (show 129 + 59 ≤ 0x8_0000 by decide)

end

end Mockd

end ApexosRv
