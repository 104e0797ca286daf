import ApexosRv.Opening
import ApexosRv.Wire

/-!
# A goal over the bytes of its line

`drive_goal` on a gateway session (`kernel/src/agent.rs`, `kernel/src/net/mesh.rs`)
where everything takes its time on one clock: polls send prompts and read texts byte by
byte, the watchdog reads the same clock, and a send that is late is a panic in the middle
of a poll. Such a run is a run of `drive_goal` on a link of texts, under the clock that
the line's readings make, up to the iteration that panics (`goal_on_bytes`).
-/

namespace ApexosRv

open RustStr Frames Fueled

/-- What `poll` does with an answer: `Pending` returns early. -/
def GoalDriver.settle (d : GoalDriver) (result : TurnResult) : GoalDriver × List Event :=
  if result == .pending then (d, []) else d.advance result

theorem GoalDriver.settle_eq (d : GoalDriver) (result : TurnResult) :
    d.settle result = d.advance result := by
  unfold settle
  split
  · rename_i pending
    rw [beq_iff_eq.mp pending, advance_pending]
  · rfl

section
variable {W : Type}

/-- `time::mtime()`. -/
def Closing.mtime (line : Line) (c : Closing W) : UInt64 × Closing W :=
  (line.clock c.readings, { c with readings := c.readings + 1 })

variable [WebSocketClient W]

def Closing.sendText (line : Line) (payload : String) (c : Closing W) :
    Fueled Stop (Closing W) :=
  match WebSocketClient.write c.mesh.ws .text true (bytes payload) ((bytes payload).length + 64) with
  | (.ok framed, ws) => sendRaw line framed { c with mesh := { c.mesh with ws } }
  | (.error e, _) => panic (.write e)

variable [SerdeJson]

namespace MeshInference

/-- A round of the loop of `next`. -/
def hearOn (line : Line) (self : MeshInference (Closing W)) :
    Fueled Stop (MeshInference (Closing W) ⊕ (TurnResult × MeshInference (Closing W))) := do
  let (answer, mesh) ← self.mesh.tryNextText line
  match answer with
  | none => return .inr (.pending, { self with mesh })
  | some text =>
    match SerdeJson.eventFromStr text with
    | some (.agentText _ delta) => return .inl { self with mesh, reply := self.reply ++ delta }
    | some (.turnComplete _) =>
      return .inr (.completed (turnVerdict self.reply), { self with mesh, inFlight := false })
    | some _ => return .inl { self with mesh }
    | none => return .inl { self with mesh }

/-- `next`, where its mesh is on a line. -/
def nextOn (line : Line) (self : MeshInference (Closing W)) (ctx : TickContext) :
    Fueled Stop (TurnResult × MeshInference (Closing W)) :=
  if !self.inFlight then do
    let mesh ← self.mesh.sendText line (promptText ctx)
    return (.pending, { mesh, inFlight := true, reply := "" })
  else loop (hearOn line) self

end MeshInference

namespace GoalRun

/-- `poll`, with what an observer sees of it. -/
def pollOn (line : Line) (g : GoalRun (MeshInference (Closing W))) :
    Fueled Stop (GoalRun (MeshInference (Closing W))) :=
  if !g.driver.acting then return g
  else do
    let (result, inf) ← g.inf.nextOn line g.driver.context
    let settled := g.driver.settle result
    return ⟨settled.1, inf, g.emitted ++ settled.2, g.consulted ++ [(g.driver.context, result)]⟩

omit [WebSocketClient W] [SerdeJson] in
def mtime (line : Line) (g : GoalRun (MeshInference (Closing W))) :
    UInt64 × GoalRun (MeshInference (Closing W)) :=
  let (now, mesh) := g.inf.mesh.mtime line
  (now, { g with inf := { g.inf with mesh } })

omit [WebSocketClient W] [SerdeJson] in
/-- The watchdog of a step that was started then. -/
def watchOn (line : Line) (build : Build) (stepStarted : UInt64)
    (g : GoalRun (MeshInference (Closing W))) : GoalRun (MeshInference (Closing W)) :=
  if g.driver.acting then
    let (now, g) := g.mtime line
    if now - stepStarted > build.stepTimeout then g.advance .stalled else g
  else g

end GoalRun

namespace Drive

omit [WebSocketClient W] [SerdeJson] in
/-- An iteration of the loop of `drive_goal` after its poll. -/
def watch (line : Line) (build : Build) (d : Drive (MeshInference (Closing W)))
    (run : GoalRun (MeshInference (Closing W))) : Drive (MeshInference (Closing W)) :=
  if run.driver.step ≠ d.lastStep then
    let (stepStarted, run) := run.mtime line
    ⟨run.watchOn line build stepStarted, d.polls + 1, run.driver.step, stepStarted⟩
  else ⟨run.watchOn line build d.stepStarted, d.polls + 1, d.lastStep, d.stepStarted⟩

/-- An iteration of the loop of `drive_goal`. -/
def iterateOn (line : Line) (build : Build) (d : Drive (MeshInference (Closing W))) :
    Fueled Stop (Drive (MeshInference (Closing W))) := do
  let run ← d.run.pollOn line
  return d.watch line build run

/-- A round of the loop. A panic comes with the events told before it. -/
def roundOn (line : Line) (build : Build) (d : Drive (MeshInference (Closing W))) :
    Fueled (List Event × Stop)
      (Drive (MeshInference (Closing W)) ⊕ Outcome (MeshInference (Closing W))) := do
  if d.acting then return .inl (← mapError (d.run.emitted, ·) (d.iterateOn line build))
  else return .inr (d.finish build)

end Drive

/-- `drive_goal` on a session. -/
def driveGoalOn (line : Line) (build : Build) (c : Closing W) :
    Fueled (List Event × Stop) (Outcome (MeshInference (Closing W))) :=
  let run := GoalRun.start ⟨1⟩ build.objective 8 (MeshInference.new c)
  let lastStep := run.driver.step
  let (stepStarted, run) := run.mtime line
  loop (Drive.roundOn line build) ⟨run, 0, lastStep, stepStarted⟩

end

/-! ## The link that a line makes -/

/-- What the pumps from one up to another receive. -/
def Line.calls (line : Line) (pump last : Nat) : List (List UInt8) :=
  (List.range' pump (last - pump)).map line.receives

theorem Line.calls_next {line : Line} {pump last : Nat} (before : pump < last) :
    line.calls pump last = line.receives pump :: line.calls (pump + 1) last := by
  have more : last - pump = (last - (pump + 1)) + 1 := by omega
  rw [calls, more, List.range'_succ, List.map_cons]
  rfl

/-- Past the response, the pumps receive the next bytes of the stream. -/
theorem Line.Carries.calls {line : Line} {response bytes : List UInt8}
    (carries : line.Carries (response ++ bytes)) {pump last : Nat}
    (past : response.length ≤ (line.received pump).length) (before : pump ≤ last) :
    bytes.drop (line.streamed response pump) =
      (line.calls pump last).flatten ++ bytes.drop (line.streamed response last) := by
  obtain ⟨k, rfl⟩ := Nat.exists_eq_add_of_le before
  induction k generalizing pump with
  | zero => simp [Line.calls]
  | succ k ih =>
    have more := line.received_length_succ pump
    rw [Line.calls_next (by omega), line.drop_streamed (carries _) past, List.flatten_cons,
      List.append_assoc, List.append_cancel_left_eq, ih (by omega) (by omega)]
    simp only [Nat.add_comm, Nat.add_left_comm]

section
variable {W : Type} [WebSocketClient W] {At : W → List Frame → Prop} (decodes : Decodes At)
  (writes : Writes At)

/-- A call of a link whose mesh answers. -/
theorem Wired.receive_of {l : Wired At} {chunk : List UInt8} {later : List (List UInt8)}
    {answer : Option String} {mesh : RawMesh W} (calls : l.calls = chunk :: later)
    (answered : l.mesh.tryNextText chunk = some (answer, mesh)) :
    (receive decodes l).1 = answer ∧ (receive decodes l).2.stream = l.stream ∧
      (receive decodes l).2.received = l.received + chunk.length ∧
      (receive decodes l).2.returned = l.returned ++ answer.toList ∧
      (receive decodes l).2.mesh = mesh ∧ (receive decodes l).2.calls = later := by
  unfold receive
  split
  · rename_i none
    cases calls.symm.trans none
  · rename_i chunk' later' calls'
    cases calls.symm.trans calls'
    split
    · rename_i failed
      cases answered.symm.trans failed
    · rename_i answer' mesh' answered'
      cases answered.symm.trans answered'
      exact ⟨rfl, rfl, rfl, rfl, rfl, rfl⟩

theorem Wired.send_of {l : Wired At} {payload : String} {mesh : RawMesh W}
    (written : l.mesh.sendText payload = some mesh) :
    (send writes l payload).mesh = mesh ∧ (send writes l payload).stream = l.stream ∧
      (send writes l payload).received = l.received ∧
      (send writes l payload).returned = l.returned ∧
      (send writes l payload).calls = l.calls := by
  unfold send
  split
  · rename_i failed
    cases written.symm.trans failed
  · rename_i mesh' written'
    cases written.symm.trans written'
    exact ⟨rfl, rfl, rfl, rfl, rfl⟩

/-- A link that hands out what a mesh on a line returns, up to a pump. -/
structure Mirrors (line : Line) (response : List UInt8) (s : Inbound) (last : Nat)
    (returned : List String) (c : Closing W) (l : Wired At) : Prop where
  stream : l.stream = s
  received : l.received = line.streamed response c.pumps
  told : l.returned = returned
  mesh : l.mesh = c.mesh
  calls : l.calls = line.calls c.pumps last

variable {line : Line} {response : List UInt8} {s : Inbound} {last : Nat}
  {returned : List String} {c c' : Closing W} {l : Wired At}

theorem Mirrors.receive (mirrors : Mirrors line response s last returned c l)
    (past : response.length ≤ (line.received c.pumps).length) {answer : Option String}
    (answered : c.mesh.tryNextText (line.receives c.pumps) = some (answer, c'.mesh))
    (pumps : c'.pumps = c.pumps + 1) (before : c'.pumps ≤ last) :
    (Wired.receive decodes l).1 = answer ∧
      Mirrors line response s last (returned ++ answer.toList) c' (Wired.receive decodes l).2 := by
  have calls := mirrors.calls
  rw [Line.calls_next (by omega)] at calls
  rw [← mirrors.mesh] at answered
  obtain ⟨told, stream, received, returned', mesh, later⟩ :=
    Wired.receive_of decodes calls answered
  refine ⟨told, stream.trans mirrors.stream, ?_, ?_, mesh, ?_⟩
  · have length := line.received_length_succ c.pumps
    rw [received, mirrors.received, pumps]
    simp only [Line.streamed]
    omega
  · rw [returned', mirrors.told]
  · rw [later, pumps]

theorem Mirrors.send (mirrors : Mirrors line response s last returned c l) {payload : String}
    (written : c.mesh.sendText payload = some c'.mesh) (pumps : c'.pumps = c.pumps) :
    Mirrors line response s last returned c' (Wired.send writes l payload) := by
  rw [← mirrors.mesh] at written
  obtain ⟨mesh, stream, received, told, calls⟩ := Wired.send_of writes written
  refine ⟨stream.trans mirrors.stream, ?_, told.trans mirrors.told, mesh, ?_⟩
  · rw [received, mirrors.received, pumps]
  · rw [calls, mirrors.calls, pumps]

/-- The link that a session on a line starts. -/
def Online.wired {frames : List Frame} (carries : line.Carries (response ++ s.bytes))
    (online : Online At line response s returned c frames) (last : Nat)
    (before : c.pumps ≤ last) : Wired At where
  stream := s
  received := line.streamed response c.pumps
  returned
  mesh := c.mesh
  calls := line.calls c.pumps last
  sent := []
  reading := by
    have reading := online.reading
    rw [carries.calls online.past before] at reading
    exact ⟨frames, _, reading⟩

omit [WebSocketClient W] in
theorem Online.mirrors {frames : List Frame} (carries : line.Carries (response ++ s.bytes))
    (online : Online At line response s returned c frames) (before : c.pumps ≤ last) :
    Mirrors line response s last returned c (online.wired carries last before) :=
  ⟨rfl, rfl, rfl, rfl, rfl⟩

variable {decodes : Decodes At} {writes : Writes At}

/-- A link on the bytes, of a client that decodes and writes. -/
def LineLink (_ : Decodes At) (_ : Writes At) : Type := Wired At

instance (decodes : Decodes At) (writes : Writes At) : TextLink (LineLink decodes writes) :=
  Wired.link decodes writes

/-- An inference on a line and one on the link it makes. -/
structure Related (line : Line) (response : List UInt8) (s : Inbound) (last : Nat)
    (returned : List String) (b : MeshInference (Closing W))
    (t : MeshInference (LineLink decodes writes)) : Prop where
  mirrors : Mirrors line response s last returned b.mesh t.mesh
  reply : t.reply = b.reply
  inFlight : t.inFlight = b.inFlight

/-! ## A call of `next` -/

variable {frames : List Frame} {b : MeshInference (Closing W)}

/-- A text that is answered is one of the stream's. -/
theorem Inbound.answer_more {pumps : Nat} {text : String}
    (told : s.answer line response returned.length pumps = some text) :
    s.texts.length - (returned ++ [text]).length < s.texts.length - returned.length := by
  have here := (List.getElem?_eq_some_iff.mp told).1
  have all := (s.textsIn_start (line.streamed response pumps)).length_le
  rw [List.length_append, List.length_singleton]
  omega

variable [SerdeJson]

/-- **The loop of `next`** on a line ends, and does what it does on the link. -/
theorem Online.hear_comes (writes : Writes At) (decodes : Decodes At)
    (carries : line.Carries (response ++ s.bytes))
    (online : Online At line response s returned b.mesh frames) :
    Comes (loop (MeshInference.hearOn line) b) fun
      | .ok (result, b') => ∃ returned' frames',
          Online At line response s returned' b'.mesh frames' ∧ b.mesh.pumps ≤ b'.mesh.pumps ∧
          ∀ last fuel (t : MeshInference (LineLink decodes writes)), b'.mesh.pumps ≤ last →
            Related line response s last returned b t → (Link.unread t.mesh).length < fuel →
            ∃ t', t.listen fuel = (result, t') ∧ Related line response s last returned' b' t'
      | .error e => e = .send := by
  let I : Nat → MeshInference (Closing W) → Prop := fun n b₁ => ∃ returned₁ frames₁,
    n = s.texts.length - returned₁.length ∧
    Online At line response s returned₁ b₁.mesh frames₁ ∧ b.mesh.pumps ≤ b₁.mesh.pumps ∧
    ∀ last fuel (t : MeshInference (LineLink decodes writes)), b₁.mesh.pumps ≤ last →
      Related line response s last returned b t → (Link.unread t.mesh).length < fuel →
      ∃ fuel₁ t₁, t.listen fuel = t₁.listen fuel₁ ∧
        Related line response s last returned₁ b₁ t₁ ∧ (Link.unread t₁.mesh).length < fuel₁
  refine Comes.loop (I := I) ?_ ⟨returned, frames, rfl, online, Nat.le_refl _,
    fun last fuel t _ related enough => ⟨fuel, t, rfl, related, enough⟩⟩
  rintro n b₁ ⟨returned₁, frames₁, rfl, online₁, later, same⟩
  apply Comes.bind
  refine (online₁.tryNextText_comes decodes (carries _)).mono ?_
  rintro (e | ⟨answer, c'⟩) tried
  · exact tried.1
  obtain ⟨told, answered, pumps, -, frames', online', -⟩ := tried
  -- The link's own loop comes to the same answer.
  have reaches : ∀ {last fuel : Nat} {t : MeshInference (LineLink decodes writes)},
      c'.pumps ≤ last → Related line response s last returned b t →
      (Link.unread t.mesh).length < fuel →
      ∃ k t₁ mesh, t.listen fuel = t₁.listen (k + 1) ∧ (Link.unread t₁.mesh).length < k + 1 ∧
        Related line response s last returned₁ b₁ t₁ ∧ Link.receive t₁.mesh = (answer, mesh) ∧
        Mirrors line response s last (returned₁ ++ answer.toList) c' mesh := by
    intro last fuel t before related enough
    obtain ⟨fuel₁, t₁, listens, related₁, enough₁⟩ := same last fuel t (by omega) related enough
    obtain ⟨first, mirrors⟩ := related₁.mirrors.receive decodes online₁.past answered pumps before
    obtain ⟨k, rfl⟩ : ∃ k, fuel₁ = k + 1 := ⟨fuel₁ - 1, by omega⟩
    exact ⟨k, t₁, (Wired.receive decodes t₁.mesh).2, listens, enough₁, related₁,
      Prod.ext first rfl, mirrors⟩
  cases answer with
  | none =>
    apply Comes.return
    refine ⟨_, frames', online', by simp only; omega, ?_⟩
    intro last fuel t before related enough
    obtain ⟨k, t₁, mesh, listens, -, related₁, received, mirrors⟩ := reaches before related enough
    refine ⟨{ t₁ with mesh }, ?_, mirrors, related₁.reply, related₁.inFlight⟩
    rw [listens]
    simp only [MeshInference.listen, received]
  | some text =>
    have fewer := Inbound.answer_more told.symm
    -- A round that goes on with another reply.
    have goes_on : ∀ reply, (∀ (t₁ : MeshInference (LineLink decodes writes)) mesh k,
        t₁.reply = b₁.reply → Link.receive t₁.mesh = (some text, mesh) →
        t₁.listen (k + 1) = ({ t₁ with mesh, reply } : MeshInference _).listen k) →
        ∃ m < s.texts.length - returned₁.length, I m { b₁ with mesh := c', reply } := by
      intro reply hears
      refine ⟨_, fewer, returned₁ ++ [text], frames', rfl, online', by simp only; omega, ?_⟩
      intro last fuel t before related enough
      obtain ⟨k, t₁, mesh, listens, enough₁, related₁, received, mirrors⟩ :=
        reaches before related enough
      have unread := congrArg List.length (Link.unread_of_some received)
      rw [List.length_cons] at unread
      exact ⟨k, { t₁ with mesh, reply }, listens.trans (hears t₁ mesh k related₁.reply received),
        ⟨mirrors, rfl, related₁.inFlight⟩, by simp only; omega⟩
    simp only
    split
    · rename_i session delta decoded
      apply Comes.return
      apply goes_on
      intro t₁ mesh k reply received
      simp only [MeshInference.listen, received, decoded, reply]
    · rename_i session decoded
      apply Comes.return
      refine ⟨_, frames', online', by simp only; omega, ?_⟩
      intro last fuel t before related enough
      obtain ⟨k, t₁, mesh, listens, -, related₁, received, mirrors⟩ :=
        reaches before related enough
      refine ⟨{ t₁ with mesh, inFlight := false }, ?_, mirrors, related₁.reply, rfl⟩
      rw [listens]
      simp only [MeshInference.listen, received, decoded, related₁.reply]
    · rename_i event notText notComplete decoded
      apply Comes.return
      apply goes_on b₁.reply
      intro t₁ mesh k reply received
      simp only [MeshInference.listen, received, decoded]
      rw [← reply]
    · rename_i decoded
      apply Comes.return
      apply goes_on b₁.reply
      intro t₁ mesh k reply received
      simp only [MeshInference.listen, received, decoded, reply]

omit [SerdeJson] in
/-- A text is sent, and the session stands where it stood, unless the text is not taken. -/
theorem Online.sendText_comes (writes : Writes At)
    (online : Online At line response s returned c frames) (payload : String) :
    Comes (c.sendText line payload) fun
      | .ok c' => Online At line response s returned c' frames ∧
          c.mesh.sendText payload = some c'.mesh ∧ c'.pumps = c.pumps
      | .error e => e = .send := by
  have reading := online.reading
  obtain ⟨out, ws, written, stands⟩ :=
    writes _ _ (bytes payload) _ reading.stands (Nat.le_refl _)
  unfold Closing.sendText
  rw [written]
  refine (Closing.sendRaw_comes line out { c with mesh := { c.mesh with ws } }).mono ?_
  rintro (e | c') sent
  · exact sent
  · obtain ⟨mesh, pumps, -⟩ := sent
    refine ⟨⟨by rw [pumps]; exact online.past, ?_⟩, by rw [RawMesh.sendText, written, mesh], pumps⟩
    rw [mesh, pumps]
    exact ⟨stands, reading.split, reading.solid, reading.utf8, reading.told, reading.behind⟩

theorem Online.next_comes (decodes : Decodes At) (writes : Writes At)
    (carries : line.Carries (response ++ s.bytes))
    (online : Online At line response s returned b.mesh frames) (ctx : TickContext) :
    Comes (b.nextOn line ctx) fun
      | .ok (result, b') => ∃ returned' frames',
          Online At line response s returned' b'.mesh frames' ∧ b.mesh.pumps ≤ b'.mesh.pumps ∧
          ∀ last (t : MeshInference (LineLink decodes writes)), b'.mesh.pumps ≤ last →
            Related line response s last returned b t →
            ∃ t', Inference.next t ctx = (result, t') ∧
              Related line response s last returned' b' t'
      | .error e => e = .send := by
  unfold MeshInference.nextOn
  cases flying : b.inFlight with
  | false =>
    apply Comes.bind
    refine (online.sendText_comes writes (MeshInference.promptText ctx)).mono ?_
    rintro (e | c') sent
    · exact sent
    obtain ⟨online', written, pumps⟩ := sent
    apply Comes.return
    refine ⟨returned, frames, online', Nat.le_of_eq pumps.symm, fun last t _ related => ?_⟩
    have ground : t.inFlight = false := related.inFlight.trans flying
    refine ⟨⟨Wired.send writes t.mesh (MeshInference.promptText ctx), "", true⟩, ?_,
      related.mirrors.send writes written pumps, rfl, rfl⟩
    show MeshInference.next t ctx = _
    rw [MeshInference.next, ground]
    rfl
  | true =>
    refine (online.hear_comes writes decodes carries).mono ?_
    rintro (e | ⟨result, b'⟩) heard
    · exact heard
    obtain ⟨returned', frames', online', later, same⟩ := heard
    refine ⟨returned', frames', online', later, ?_⟩
    intro last t before related
    have flies : t.inFlight = true := related.inFlight.trans flying
    obtain ⟨t', listens, related'⟩ := same last _ t before related (Nat.lt_succ_self _)
    refine ⟨t', ?_, related'⟩
    show MeshInference.next t ctx = _
    rw [MeshInference.next, flies]
    exact listens

/-! ## A poll -/

/-- A goal on a line and one on the link it makes. -/
structure RunRelated (line : Line) (response : List UInt8) (s : Inbound) (last : Nat)
    (returned : List String) (g : GoalRun (MeshInference (Closing W)))
    (h : GoalRun (MeshInference (LineLink decodes writes))) : Prop where
  driver : h.driver = g.driver
  emitted : h.emitted = g.emitted
  consulted : h.consulted = g.consulted
  inf : Related line response s last returned g.inf h.inf

theorem Online.poll_comes (decodes : Decodes At) (writes : Writes At)
    (carries : line.Carries (response ++ s.bytes)) {g : GoalRun (MeshInference (Closing W))}
    (online : Online At line response s returned g.inf.mesh frames) :
    Comes (g.pollOn line) fun
      | .ok g' => ∃ returned' frames',
          Online At line response s returned' g'.inf.mesh frames' ∧
          g.inf.mesh.pumps ≤ g'.inf.mesh.pumps ∧
          ∀ last (h : GoalRun (MeshInference (LineLink decodes writes))),
            g'.inf.mesh.pumps ≤ last → RunRelated line response s last returned g h →
            RunRelated line response s last returned' g' h.poll
      | .error e => e = .send := by
  unfold GoalRun.pollOn
  cases act : g.driver.acting with
  | false =>
    apply Comes.return
    refine ⟨returned, frames, online, Nat.le_refl _, fun last h _ related => ?_⟩
    rw [GoalRun.poll_idle (by rw [related.driver]; exact act)]
    exact related
  | true =>
    apply Comes.bind
    refine (online.next_comes decodes writes carries g.driver.context).mono ?_
    rintro (e | ⟨result, b'⟩) called
    · exact called
    obtain ⟨returned', frames', online', later, same⟩ := called
    apply Comes.return
    refine ⟨returned', frames', online', later, ?_⟩
    intro last h before related
    obtain ⟨t', calls, related'⟩ := same last h.inf before related.inf
    have acts : h.driver.acting = true := by rw [related.driver]; exact act
    rw [GoalRun.poll_acting acts, related.driver, calls]
    refine ⟨?_, ?_, ?_, related'⟩
    · simp only [GoalDriver.settle_eq]
    · simp only [GoalDriver.settle_eq, related.emitted]
    · simp only [related.consulted]

/-! ## The loop of `drive_goal` -/

omit [SerdeJson] in
theorem RunRelated.mtime {g : GoalRun (MeshInference (Closing W))}
    {h : GoalRun (MeshInference (LineLink decodes writes))}
    (related : RunRelated line response s last returned g h) :
    RunRelated line response s last returned (g.mtime line).2 h :=
  ⟨related.driver, related.emitted, related.consulted, ⟨related.inf.mirrors.stream,
    related.inf.mirrors.received, related.inf.mirrors.told, related.inf.mirrors.mesh,
    related.inf.mirrors.calls⟩, related.inf.reply, related.inf.inFlight⟩

omit [SerdeJson] in
theorem RunRelated.advance {g : GoalRun (MeshInference (Closing W))}
    {h : GoalRun (MeshInference (LineLink decodes writes))}
    (related : RunRelated line response s last returned g h) (result : TurnResult) :
    RunRelated line response s last returned (g.advance result) (h.advance result) := by
  obtain ⟨driver, emitted, consulted, inf⟩ := related
  refine ⟨?_, ?_, consulted, inf⟩
  · simp only [GoalRun.advance, driver]
  · simp only [GoalRun.advance, driver, emitted]

/-- A loop on a line and one on the link it makes. -/
structure DriveRelated (line : Line) (response : List UInt8) (s : Inbound) (last : Nat)
    (returned : List String) (d : Drive (MeshInference (Closing W)))
    (t : Drive (MeshInference (LineLink decodes writes))) : Prop where
  run : RunRelated line response s last returned d.run t.run
  polls : t.polls = d.polls
  lastStep : t.lastStep = d.lastStep
  stepStarted : t.stepStarted = d.stepStarted

/-- The readings that an iteration makes after its poll, the second of them if it makes
the first or if it does not. -/
def Drive.readings (line : Line) (d : Drive (MeshInference (Closing W)))
    (run : GoalRun (MeshInference (Closing W))) : UInt64 × UInt64 :=
  let (restart, run') := run.mtime line
  (restart, ((if run.driver.step ≠ d.lastStep then run' else run).mtime line).1)

omit [SerdeJson] in
theorem RunRelated.watched {g : GoalRun (MeshInference (Closing W))}
    {h : GoalRun (MeshInference (LineLink decodes writes))}
    (related : RunRelated line response s last returned g h) (build : Build)
    (stepStarted : UInt64) :
    RunRelated line response s last returned (g.watchOn line build stepStarted)
      (if h.driver.acting && (g.mtime line).1 - stepStarted > build.stepTimeout then
        h.advance .stalled else h) := by
  unfold GoalRun.watchOn
  rw [related.driver]
  cases g.driver.acting with
  | false => exact related
  | true =>
    by_cases late : (g.mtime line).1 - stepStarted > build.stepTimeout
    · simp only [↓reduceIte, late, decide_true, Bool.and_self]
      exact related.mtime.advance .stalled
    · simp only [↓reduceIte, late, decide_false, Bool.and_false, Bool.false_eq_true]
      exact related.mtime

theorem DriveRelated.watch {build : Build} {clock : Clock}
    {d : Drive (MeshInference (Closing W))} {run : GoalRun (MeshInference (Closing W))}
    {t : Drive (MeshInference (LineLink decodes writes))}
    (polled : RunRelated line response s last returned run t.run.poll) (polls : t.polls = d.polls)
    (lastStep : t.lastStep = d.lastStep) (stepStarted : t.stepStarted = d.stepStarted)
    (restart : clock.restart d.polls = (d.readings line run).1)
    (watchdog : clock.watchdog d.polls = (d.readings line run).2) :
    DriveRelated line response s last returned (d.watch line build run)
      (t.iterate build clock) := by
  unfold Drive.readings at restart watchdog
  by_cases stepped : run.driver.step ≠ d.lastStep
  · simp only [if_pos stepped] at watchdog
    simp only [Drive.watch, Drive.iterate, polled.driver, polls, lastStep, if_pos stepped, restart,
      watchdog]
    refine ⟨?_, rfl, rfl, rfl⟩
    have watched := polled.mtime.watched build (run.mtime line).1
    rwa [polled.driver] at watched
  · simp only [if_neg stepped] at watchdog
    simp only [Drive.watch, Drive.iterate, polled.driver, polls, lastStep, stepStarted,
      if_neg stepped, watchdog]
    refine ⟨?_, rfl, rfl, rfl⟩
    have watched := polled.watched build d.stepStarted
    rwa [polled.driver] at watched

omit [SerdeJson] in
/-- What a run reads of the clock are the iterations it has made. -/
theorem Drive.before_congr {I : Type} [Inference I] {build : Build} {clock clock' : Clock}
    (inf : I) {n : Nat} (start : clock.start = clock'.start)
    (same : ∀ i < n, clock.restart i = clock'.restart i ∧ clock.watchdog i = clock'.watchdog i) :
    before build clock inf n = before build clock' inf n := by
  induction n with
  | zero => simp only [before, WhileLoop.run, Drive.start, start]
  | succ n ih =>
    have agree := ih fun i earlier => same i (by omega)
    cases act : (before build clock inf n).acting with
    | false => rw [before_of_ended act, before_of_ended (agree ▸ act), agree]
    | true =>
      obtain ⟨restart, watchdog⟩ := same n (Nat.lt_succ_self n)
      have count : (before build clock' inf n).polls = n :=
        (before_counts build clock' inf n).2.2 (agree ▸ act)
      rw [before_succ act, before_succ (agree ▸ act), agree]
      simp only [iterate, count, restart, watchdog]

omit [WebSocketClient W] [SerdeJson] in
/-- A clock with the readings of one iteration. -/
def Clock.set (clock : Clock) (n : Nat) (readings : UInt64 × UInt64) : Clock where
  start := clock.start
  restart i := if i = n then readings.1 else clock.restart i
  watchdog i := if i = n then readings.2 else clock.watchdog i

/-- Every reading is one of the line's. -/
structure Clock.Of (line : Line) (clock : Clock) : Prop where
  start : ∃ k, clock.start = line.clock k
  restart (i : Nat) : ∃ k, clock.restart i = line.clock k
  watchdog (i : Nat) : ∃ k, clock.watchdog i = line.clock k

omit [WebSocketClient W] [SerdeJson] in
theorem Clock.Of.set {clock : Clock} (reads : clock.Of line) (n : Nat)
    (d : Drive (MeshInference (Closing W))) (run : GoalRun (MeshInference (Closing W))) :
    (clock.set n (d.readings line run)).Of line where
  start := reads.start
  restart i := by
    simp only [Clock.set]
    split
    · exact ⟨_, rfl⟩
    · exact reads.restart i
  watchdog i := by
    simp only [Clock.set]
    split
    · exact ⟨_, rfl⟩
    · exact reads.watchdog i

omit [WebSocketClient W] [SerdeJson] in
/-- After its poll an iteration does nothing to the session but read the clock. -/
theorem Drive.watch_mesh (line : Line) (build : Build) (d : Drive (MeshInference (Closing W)))
    (run : GoalRun (MeshInference (Closing W))) :
    (d.watch line build run).polls = d.polls + 1 ∧
      ∃ readings, (d.watch line build run).run.inf.mesh = { run.inf.mesh with readings } := by
  have watched : ∀ (g : GoalRun (MeshInference (Closing W))) stepStarted,
      ∃ readings, (g.watchOn line build stepStarted).inf.mesh = { g.inf.mesh with readings } := by
    intro g stepStarted
    unfold GoalRun.watchOn
    split
    · simp only
      split <;> exact ⟨_, rfl⟩
    · exact ⟨_, rfl⟩
  unfold watch
  split
  · obtain ⟨readings, same⟩ := watched (run.mtime line).2 (run.mtime line).1
    exact ⟨rfl, readings, same⟩
  · obtain ⟨readings, same⟩ := watched run d.stepStarted
    exact ⟨rfl, readings, same⟩

/-- An iteration on a line ends, and it is the link's with the readings it makes. -/
theorem Online.iterate_comes (decodes : Decodes At) (writes : Writes At)
    (carries : line.Carries (response ++ s.bytes)) (build : Build)
    {d : Drive (MeshInference (Closing W))}
    (online : Online At line response s returned d.run.inf.mesh frames) :
    Comes (d.iterateOn line build) fun
      | .ok d' => d'.polls = d.polls + 1 ∧ ∃ returned' frames' run,
          Online At line response s returned' d'.run.inf.mesh frames' ∧
          d.run.inf.mesh.pumps ≤ d'.run.inf.mesh.pumps ∧
          ∀ last clock (t : Drive (MeshInference (LineLink decodes writes))),
            d'.run.inf.mesh.pumps ≤ last → DriveRelated line response s last returned d t →
            clock.restart d.polls = (d.readings line run).1 →
            clock.watchdog d.polls = (d.readings line run).2 →
            DriveRelated line response s last returned' d' (t.iterate build clock)
      | .error e => e = .send := by
  apply Comes.bind
  refine (online.poll_comes decodes writes carries).mono ?_
  rintro (e | run) polled
  · exact polled
  obtain ⟨returned', frames', online', later, same⟩ := polled
  apply Comes.return
  obtain ⟨polls, readings, mesh⟩ := d.watch_mesh line build run
  have pumps : (d.watch line build run).run.inf.mesh.pumps = run.inf.mesh.pumps := by rw [mesh]
  refine ⟨polls, returned', frames', run, ?_, by rw [pumps]; exact later, ?_⟩
  · rw [mesh]
    exact ⟨online'.past, online'.reading⟩
  · intro last clock t before related restart watchdog
    rw [pumps] at before
    exact .watch (same last t.run before related.run) related.polls related.lastStep
      related.stepStarted restart watchdog

omit [WebSocketClient W] in
theorem Drive.finish_eq {I : Type} (build : Build) (d : Drive I) :
    d.finish build = ⟨d.run, d.polls, d.run.emitted.map SerdeJson.eventToString ++
      (if d.run.driver.state = .done then
        [closing build d.polls, "APEXOS-RV: goal done — halting"] else []),
      d.run.driver.state = .done⟩ := by
  unfold finish
  split
  · rename_i done
    simp [done]
  · rename_i other
    simp [other]

/-- What a goal on a line comes to, and what a goal on a link comes to under a clock. -/
def SameGoal (build : Build) (clock : Clock) (l : LineLink decodes writes) :
    Except (List Event × Stop) (Outcome (MeshInference (Closing W))) → Prop
  | .ok o => ∃ o', driveGoal build clock (MeshInference.new l) o.polls = some o' ∧
      o'.run.driver = o.run.driver ∧ o'.run.emitted = o.run.emitted ∧
      o'.run.consulted = o.run.consulted ∧ o'.polls = o.polls ∧ o'.lines = o.lines ∧
      o'.done = o.done
  | .error (told, stop) => stop = .send ∧ ∃ n,
      (Drive.before build clock (MeshInference.new l) n).acting = true ∧
      (Drive.before build clock (MeshInference.new l) n).run.emitted = told

/-- **A goal on the bytes is a goal on texts**: what `drive_goal` comes to over the socket is what
it comes to over a link that hands out the gateway's texts one by one, under a clock of the
line's readings. A finished goal has the same driver, events, polls and lines; a panic is a send,
in an iteration the goal over the link makes too, having told the same events. -/
theorem goal_on_bytes (decodes : Decodes At) (writes : Writes At)
    (carries : line.Carries (response ++ s.bytes)) (build : Build)
    (online : Online At line response s returned c frames)
    {r : Except (List Event × Stop) (Outcome (MeshInference (Closing W)))}
    (ended : Ends (driveGoalOn line build c) r) :
    ∃ (clock : Clock) (last : Nat) (l : LineLink decodes writes), clock.Of line ∧
      Mirrors line response s last returned c l ∧ SameGoal build clock l r := by
  let J : Drive (MeshInference (Closing W)) → Prop := fun d => ∃ returned' frames',
    Online At line response s returned' d.run.inf.mesh frames' ∧
    c.pumps ≤ d.run.inf.mesh.pumps ∧
    ∀ last, d.run.inf.mesh.pumps ≤ last → ∃ (clock : Clock) (l : LineLink decodes writes),
      clock.Of line ∧ Mirrors line response s last returned c l ∧
      DriveRelated line response s last returned' d
        (Drive.before build clock (MeshInference.new l) d.polls)
  let K : Except (List Event × Stop) (Outcome (MeshInference (Closing W))) → Prop := fun r =>
    ∃ (clock : Clock) (last : Nat) (l : LineLink decodes writes), clock.Of line ∧
      Mirrors line response s last returned c l ∧ SameGoal build clock l r
  refine Ends.loop (I := J) (Q := K) ?_ ?_ ended
  · rintro d ⟨returned', frames', online', later, same⟩ r round
    cases act : d.acting with
    | false =>
      have broke : Ends (pure (.inr (d.finish build)) : Fueled (List Event × Stop)
          (Drive (MeshInference (Closing W)) ⊕ Outcome (MeshInference (Closing W)))) r := by
        simpa [Drive.roundOn, act] using round
      cases broke.unique (.return _)
      obtain ⟨clock, l, reads, mirrors, related⟩ := same _ (Nat.le_refl _)
      refine ⟨clock, _, l, reads, mirrors, ?_⟩
      have ended' : (Drive.before build clock (MeshInference.new l) d.polls).acting = false := by
        rw [Drive.acting, related.run.driver]
        exact act
      have drove : driveGoal build clock (MeshInference.new l) d.polls =
          some (Drive.finish build (Drive.before build clock (MeshInference.new l) d.polls)) := by
        rw [driveGoal, WhileLoop.result_eq_some.mpr ⟨rfl, ended'⟩]
        rfl
      rw [Drive.finish_eq] at drove ⊢
      refine ⟨_, drove, related.run.driver, related.run.emitted, related.run.consulted,
        related.polls, ?_, ?_⟩
      · simp only [related.run.driver, related.run.emitted, related.polls]
      · simp only [related.run.driver]
    | true =>
      have went : Ends (do
          let d' ← mapError (d.run.emitted, ·) (d.iterateOn line build)
          return .inl d' : Fueled (List Event × Stop)
            (Drive (MeshInference (Closing W)) ⊕ Outcome (MeshInference (Closing W)))) r := by
        simpa [Drive.roundOn, act] using round
      obtain ⟨r', ends, iterated⟩ := online'.iterate_comes decodes writes carries build
      cases r' with
      | error e =>
        cases went.unique ((ends.mapError _).stop _)
        obtain ⟨clock, l, reads, mirrors, related⟩ := same _ (Nat.le_refl _)
        refine ⟨clock, _, l, reads, mirrors, iterated, d.polls, ?_, related.run.emitted⟩
        rw [Drive.acting, related.run.driver]
        exact act
      | ok d' =>
        cases went.unique ((ends.mapError _).bind (.return _))
        obtain ⟨polls, returned'', frames'', run, online'', later', steps⟩ := iterated
        refine ⟨returned'', frames'', online'', later.trans later', ?_⟩
        intro last before
        obtain ⟨clock, l, reads, mirrors, related⟩ := same last (later'.trans before)
        let clock' := clock.set d.polls (d.readings line run)
        refine ⟨clock', l, reads.set _ _ _, mirrors, ?_⟩
        have agree : Drive.before build clock (MeshInference.new l) d.polls =
            Drive.before build clock' (MeshInference.new l) d.polls := by
          refine Drive.before_congr _ rfl ?_
          intro i earlier
          simp only [clock', Clock.set, if_neg (Nat.ne_of_lt earlier), and_self]
        rw [agree] at related
        have acts : (Drive.before build clock' (MeshInference.new l) d.polls).acting = true := by
          rw [Drive.acting, related.run.driver]
          exact act
        rw [polls, Drive.before_succ acts]
        exact steps last clock' _ before related (if_pos rfl) (if_pos rfl)
  · refine ⟨returned, frames, ?_, Nat.le_refl _, fun last before => ?_⟩
    · exact ⟨online.past, online.reading⟩
    · refine ⟨⟨(c.mtime line).1, fun _ => (c.mtime line).1, fun _ => (c.mtime line).1⟩,
        online.wired carries last before, ⟨⟨_, rfl⟩, fun _ => ⟨_, rfl⟩, fun _ => ⟨_, rfl⟩⟩,
        online.mirrors carries before, ?_⟩
      exact ⟨⟨rfl, rfl, rfl, ⟨rfl, rfl, rfl, rfl, rfl⟩, rfl, rfl⟩, rfl, rfl, rfl⟩

end

/-! ## A goal of one turn -/

theorem Cursor.writes : Writes Cursor.At := fun _ _ _ _ stands _ => ⟨_, _, rfl, stands⟩

namespace OneTurn

def turn : List Event := [.agentText ⟨42⟩ "GOAL_STEP: done", .turnComplete ⟨42⟩]

section
local instance turnJson : SerdeJson := Wire.json turn

/-- The two texts of the turn, with a ping between them. -/
def turnFrames : List Frame :=
  [⟨.text, true, [0x81, 60], bytes (Wire.eventText (.agentText ⟨42⟩ "GOAL_STEP: done"))⟩,
    ⟨.ping, true, [0x89, 0x02], [7, 8]⟩,
    ⟨.text, true, [0x81, 37], bytes (Wire.eventText (.turnComplete ⟨42⟩))⟩]

def stream : Inbound where
  frames := Mockd.greeting.frames ++ turnFrames
  headed := by decide
  utf8 := by
    intro text here
    have cases : text = bytes (String.ofList Mockd.sessionInit) ∨
        text = bytes (Wire.eventText (.agentText ⟨42⟩ "GOAL_STEP: done")) ∨
        text = bytes (Wire.eventText (.turnComplete ⟨42⟩)) := by
      rw [bytes_ofList]
      simpa [Mockd.greeting, turnFrames, messages] using here
    rcases cases with rfl | rfl | rfl <;> rw [fromUtf8_bytes] <;> rfl

def prompt : List UInt8 :=
  bytes (MeshInference.promptText (GoalDriver.start ⟨1⟩ Build.default.objective 8).1.context)

/-- The greeting comes with the response, and the turn in two parts. -/
def line : Line :=
  { resetLine with
    offers := fun i => if i = 1 then .accepts prompt.length else .accepts 64
    receives := fun i => [switching ++ Mockd.greeting.bytes, [], (wire turnFrames).take 20,
      (wire turnFrames).drop 20].getD i [] }

/-- The session as `establish` leaves it. -/
def session : Closing Cursor := ⟨⟨⟨switching, turnFrames⟩, [], [], []⟩, 7, 1, 2⟩

theorem stream_bytes : stream.bytes = Mockd.greeting.bytes ++ wire turnFrames := by
  simp [Inbound.bytes, stream, wire]

section
attribute [local irreducible] switching

theorem line_received : line.received 1 = switching ++ Mockd.greeting.bytes ∧
    line.received 2 = switching ++ Mockd.greeting.bytes ∧
    line.received 3 = switching ++ Mockd.greeting.bytes ++ (wire turnFrames).take 20 ∧
    ∀ n, line.received (n + 4) = switching ++ stream.bytes := by
  have first : line.received 1 = switching ++ Mockd.greeting.bytes := by
    rw [Line.received_succ]
    exact List.nil_append _
  have second : line.received 2 = switching ++ Mockd.greeting.bytes := by
    rw [Line.received_succ, first]
    exact List.append_nil _
  have third : line.received 3 =
      switching ++ Mockd.greeting.bytes ++ (wire turnFrames).take 20 := by
    rw [Line.received_succ, second]
    rfl
  refine ⟨first, second, third, ?_⟩
  intro n
  induction n with
  | zero =>
    rw [Line.received_succ, third, stream_bytes, ← List.append_assoc, List.append_assoc _ _
      (line.receives 3)]
    exact congrArg _ (List.take_append_drop 20 _)
  | succ n ih =>
    rw [Line.received_succ, ih]
    exact List.append_nil _

theorem line_carries : line.Carries (switching ++ stream.bytes) := by
  obtain ⟨first, second, third, all⟩ := line_received
  have greeted : switching ++ Mockd.greeting.bytes <+: switching ++ stream.bytes := by
    rw [stream_bytes, ← List.append_assoc]
    exact List.prefix_append _ _
  rintro (_ | _ | _ | _ | n)
  · exact List.nil_prefix
  · rwa [first]
  · rwa [second]
  · rw [third, stream_bytes, ← List.append_assoc, List.prefix_append_right_inj]
    exact List.take_prefix 20 _
  · exact all n ▸ List.prefix_rfl

end

/-- What `establish` has read is the greeting. -/
theorem session_online : Online Cursor.At line switching stream [String.ofList Mockd.sessionInit]
    session turnFrames := by
  obtain ⟨-, received, -, -⟩ := line_received
  have streamed : line.streamed switching 2 = Mockd.greeting.bytes.length := by
    rw [Line.streamed, received, List.length_append, Nat.add_sub_cancel_left]
  have opened : Reading Cursor.At stream Mockd.greeting.bytes.length []
      ⟨⟨switching, stream.frames⟩, Mockd.greeting.bytes, [], []⟩ stream.frames
      ([] ++ wire turnFrames) :=
    Reading.opened ⟨rfl, stream.solid⟩ stream_bytes
  obtain ⟨m, frames, answered, -, reading⟩ := opened.next Cursor.decodes
  have called : RawMesh.tryNextText (⟨⟨switching, stream.frames⟩, Mockd.greeting.bytes, [], []⟩ :
      RawMesh Cursor) [] = some (some (String.ofList Mockd.sessionInit),
        ⟨⟨switching, turnFrames⟩, [], [], []⟩) := by
    decide +kernel
  obtain ⟨told, rfl⟩ := Prod.mk.inj (Option.some.inj (answered.symm.trans called))
  obtain ⟨rfl, -⟩ := reading.stands
  rw [told] at reading
  refine ⟨?_, ?_⟩
  · show switching.length ≤ (line.received 2).length
    rw [received, List.length_append]
    exact Nat.le_add_right _ _
  · show Reading Cursor.At stream (line.streamed switching 2) _ _ _
      (stream.bytes.drop (line.streamed switching 2))
    rw [streamed, stream_bytes, List.drop_left]
    exact reading

def start : Drive (MeshInference (Closing Cursor)) :=
  let run := GoalRun.start ⟨1⟩ Build.default.objective 8 (MeshInference.new session)
  let (stepStarted, run) := run.mtime line
  ⟨run, 0, 1, stepStarted⟩

/-- The goal after its first poll, which sends the prompt. -/
def prompted : GoalRun (MeshInference (Closing Cursor)) :=
  let run := start.run
  let c := run.inf.mesh
  ⟨run.driver, ⟨{ c with readings := c.readings + 3, attempts := c.attempts + 1 }, "", true⟩,
    run.emitted, [(run.driver.context, .pending)]⟩

theorem promptText_bytes (ctx : TickContext) : bytes (MeshInference.promptText ctx) ≠ [] := by
  rw [bytes_eq]
  intro empty
  have first : (MeshInference.promptText ctx).toList.head? = some '\x7b' := by
    simp [MeshInference.promptText, SerdeJson.frameToString, Wire.frameText, Wire.tagged]
  have none := List.flatMap_eq_nil_iff.mp empty _ (List.mem_of_mem_head? first)
  exact absurd none (by decide)

theorem prompt_taken : Ends (start.run.pollOn line) (.ok prompted) := by
  have offer : line.offers start.run.inf.mesh.attempts = .accepts prompt.length := rfl
  have sent := Closing.sendRaw_taken (List.length_pos_iff.mpr (promptText_bytes _)) offer
    (Nat.le_refl _)
  have ground : start.run.inf.inFlight = false := rfl
  unfold GoalRun.pollOn MeshInference.nextOn
  rw [ground]
  refine Ends.bind (Ends.bind sent (.return _)) (.return _)

def seen (r : Except (List Event × Stop) (Outcome (MeshInference (Closing Cursor)))) :
    Option (Bool × Nat × List (List UInt8)) :=
  r.toOption.map fun o => (o.done, o.polls, o.run.inf.mesh.mesh.pongs)

/-- The prompt, a poll that hears part of the first text, and one that hears the rest. -/
theorem turn_heard : ∃ o, Ends (driveGoalOn line Build.default session) (.ok o) ∧ o.done = true ∧
    o.polls = 3 ∧ o.run.inf.mesh.mesh.pongs = [[7, 8]] := by
  have rest : ((loop (Drive.roundOn line Build.default)
      (start.watch line Build.default prompted)).run 8).bind seen =
        some (true, 3, [[7, 8]]) := by
    decide +kernel
  obtain ⟨r, ran, came⟩ := Option.bind_eq_some_iff.mp rest
  have went : Ends (start.iterateOn line Build.default)
      (.ok (start.watch line Build.default prompted)) := by
    unfold Drive.iterateOn
    refine Ends.bind prompt_taken (.return _)
  have acts : start.acting = true := rfl
  have first : Ends (Drive.roundOn line Build.default start)
      (.ok (.inl (start.watch line Build.default prompted))) := by
    unfold Drive.roundOn
    rw [if_pos acts]
    refine Ends.bind (went.mapError _) (.return _)
  cases r with
  | error e => cases came
  | ok o =>
    obtain ⟨done, polls, pongs⟩ : o.done = true ∧ o.polls = 3 ∧
        o.run.inf.mesh.mesh.pongs = [[7, 8]] := by
      simpa only [Prod.mk.injEq] using Option.some.inj came
    exact ⟨o, first.again ⟨8, ran⟩, done, polls, pongs⟩

/-- The goal is done after the prompt and two polls, on the line as on a link of texts. -/
theorem goal_done : ∃ o, Ends (driveGoalOn line Build.default session) (.ok o) ∧ o.done = true ∧
    o.polls = 3 ∧ o.run.inf.mesh.mesh.pongs = [[7, 8]] ∧
    ∃ (clock : Clock) (last : Nat) (l : LineLink Cursor.decodes Cursor.writes), clock.Of line ∧
      Mirrors line switching stream last [String.ofList Mockd.sessionInit] session l ∧
      SameGoal Build.default clock l (.ok o) := by
  obtain ⟨o, ended, done, polls, pongs⟩ := turn_heard
  exact ⟨o, ended, done, polls, pongs,
    goal_on_bytes Cursor.decodes Cursor.writes line_carries _ session_online ended⟩

end

end OneTurn

end ApexosRv
