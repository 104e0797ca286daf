import ApexosRv.Reassembly

/-!
# Pings and their answers

A Ping frame is answered by the piece of it that one `read` yields: the branch of
`try_next_text` for pings keeps nothing from one piece to the next and does not look at
`end_of_message`. So each ping is answered once with its whole payload as long as no
call comes to a ping it cannot take whole (`Inbound.Whole`), and from the first one
that it cannot, the answers are no longer those of the stream.
-/

namespace ApexosRv

open RustStr Frames

namespace Inbound

/-- A call with so many bytes received and texts returned comes to a ping with its
header, but not the whole of it. -/
def Splits (s : Inbound) (received returned : Nat) : Prop :=
  Frames.Splits 4096 returned received s.frames

/-- No call comes to a ping it cannot take whole. -/
def Whole (s : Inbound) (received returned : Nat) : List (List UInt8) → Prop
  | [] => True
  | chunk :: later =>
    ¬ s.Splits (received + chunk.length) returned ∧
    s.Whole (received + chunk.length)
      (returned + (s.textsIn (received + chunk.length))[returned]?.toList.length) later

end Inbound

section

variable {W : Type} [WebSocketClient W] {At : W → List Frame → Prop}

/-- A client that yields of a ping all that it has in hand and has room for. -/
structure Greedy (At : W → List Frame → Prop) : Prop where
  takes {ws ws' : W} {f : Frame} {later : List Frame} {buf : List UInt8} {cap : Nat}
    {r : WebSocketReadResult} : At ws (f :: later) → buf <+: wire (f :: later) → buf ≠ [] →
      0 < cap → f.header.length ≤ buf.length → f.kind = .ping →
      WebSocketClient.read ws buf cap = (.ok r, ws') →
      r.payload.length = min (min (buf.length - f.header.length) cap) f.payload.length

/-! ## One loop -/

/-- The pings of a stream are those answered and those ahead, and what the stream
says of splits is what the frames ahead say. -/
structure Ponging (s : Inbound) (received returned : Nat) (m : RawMesh W)
    (frames : List Frame) : Prop where
  headed : ∀ f ∈ frames, f.kind = .ping → f.header ≠ []
  answered : pings s.frames = m.pongs ++ pings frames
  agrees (k n : Nat) : Frames.Splits 4096 (returned + k) (received + n) s.frames ↔
    Frames.Splits 4096 k (m.rxRaw.length + n) frames

variable {m : RawMesh W} {frames frames' : List Frame} {out : Option String × RawMesh W}
  {future : List UInt8} {s : Inbound} {received returned : Nat}

variable {f : Frame} {later : List Frame} {piece rest rxRaw : List UInt8}

/-- A ping is taken whole exactly if the whole of it is in hand and fits. -/
theorem Round.whole_iff (round : Round At m f later piece rest rxRaw) (greedy : Greedy At)
    (split : wire (f :: later) = m.rxRaw ++ future) (ping : f.kind = .ping) :
    rest = [] ↔ f.wire.length ≤ m.rxRaw.length ∧ f.payload.length ≤ 4096 := by
  have in_hand : f.header.length ≤ m.rxRaw.length := by
    rw [round.taken, List.length_append, List.length_append]
    omega
  have size : piece.length =
      min (min (m.rxRaw.length - f.header.length) 4096) f.payload.length :=
    greedy.takes round.stands ⟨future, split.symm⟩ round.more (by decide) in_hand ping
      (Prod.ext round.read rfl)
  have all : f.payload.length = piece.length + rest.length := by
    rw [round.cut, List.length_append]
  rw [Frame.wire, List.length_append, ← List.length_eq_zero_iff]
  omega

/-- A piece that completes no text, and of a ping is the whole payload. -/
theorem Ponging.took (h : Ponging s received returned m (f :: later)) (ws : W)
    (round : Round At m f later piece rest rxRaw)
    (whole : f.kind = .ping → rest = [] ∧ f.payload.length ≤ 4096) :
    Ponging s received returned (m.took f.kind piece ws rxRaw) (ahead f rest later) where
  headed := by
    intro g here ping
    rw [ahead] at here
    split at here
    · exact h.headed g (List.mem_cons_of_mem _ here) ping
    · rename_i open_end
      rcases List.mem_cons.mp here with rfl | here
      · exact absurd (whole ping).1 open_end
      · exact h.headed g (List.mem_cons_of_mem _ here) ping
  answered := by
    rw [h.answered]
    by_cases ping : f.kind = .ping
    · have cut := round.cut
      rw [(whole ping).1, List.append_nil] at cut
      simp [pings, ping, ahead, (whole ping).1, RawMesh.took, cut]
    · rw [RawMesh.took, if_neg ping, pings_ahead ping]
  agrees k n := by
    rw [h.agrees, round.taken, List.length_append, List.length_append, Nat.add_assoc,
      splits_ahead round.cut round.goes_on whole]
    rfl

omit [WebSocketClient W] in
/-- A text that is completed and returned. -/
theorem Ponging.message (h : Ponging s received returned m (f :: later)) (ws : W)
    (taken : m.rxRaw = f.header ++ f.payload ++ rxRaw) (text : f.kind = .text)
    (final : f.final = true) :
    Ponging s received (returned + 1) ⟨ws, rxRaw, [], m.pongs⟩ later where
  headed g here := h.headed g (List.mem_cons_of_mem _ here)
  answered := by
    rw [h.answered, pings, if_neg (by simp [text])]
  agrees k n := by
    have size : m.rxRaw.length + n = f.wire.length + (rxRaw.length + n) := by
      rw [taken, ← Frame.wire, List.length_append, Nat.add_assoc]
    rw [Nat.add_assoc, Nat.add_comm 1, h.agrees, size]
    exact splits_text text final

/-- The splits of a mesh before a frame are those before the rest of it. -/
theorem Round.splits_iff (round : Round At m f later piece rest rxRaw) (ws : W)
    (whole : f.kind = .ping → rest = [] ∧ f.payload.length ≤ 4096) :
    Frames.Splits 4096 0 m.rxRaw.length (f :: later) ↔
      Frames.Splits 4096 0 (m.took f.kind piece ws rxRaw).rxRaw.length (ahead f rest later) := by
  rw [round.taken, List.length_append, List.length_append,
    splits_ahead round.cut round.goes_on whole]
  rfl

/-- **One loop** without a split keeps the answers those of the stream. -/
theorem Ponging.scanned (greedy : Greedy At) (h : Ponging s received returned m frames)
    (steps : Scanned At m frames out frames') (split : wire frames = m.rxRaw ++ future)
    (whole : ¬ Frames.Splits 4096 0 m.rxRaw.length frames) :
    Ponging s received (returned + out.1.toList.length) out.2 frames' := by
  induction steps with
  | empty => exact h
  | header => exact ⟨h.headed, h.answered, h.agrees⟩
  | message _ taken text final => exact h.message _ taken text final
  | @piece m f later ws piece rest rxRaw _ _ round _ ih =>
    have whole_ping (ping : f.kind = .ping) : rest = [] ∧ f.payload.length ≤ 4096 := by
      have header : f.header.length ≤ m.rxRaw.length := by
        rw [round.taken, List.length_append, List.length_append]
        omega
      have fits : f.wire.length ≤ m.rxRaw.length ∧ f.payload.length ≤ 4096 := by
        by_contra cut_short
        exact whole (splits_cons.mpr (.inl ⟨ping, header, by omega⟩))
      exact ⟨(round.whole_iff greedy split ping).mpr fits, fits.2⟩
    rw [round.splits_iff ws whole_ping] at whole
    exact ih (h.took ws round whole_ping) (round.split ws split) whole

theorem pongs_start (steps : Scanned At m frames out frames') : m.pongs <+: out.2.pongs := by
  induction steps with
  | empty => exact List.prefix_rfl
  | header => exact List.prefix_rfl
  | message => exact List.prefix_rfl
  | piece _ _ ih => exact (RawMesh.pongs_took _ _ _ _ _).trans ih

/-- **One loop** that comes to a ping it cannot take whole answers with a piece. -/
theorem Ponging.broken (greedy : Greedy At) (h : Ponging s received returned m frames)
    (steps : Scanned At m frames out frames') (split : wire frames = m.rxRaw ++ future)
    (splits : Frames.Splits 4096 0 m.rxRaw.length frames) :
    ¬ out.2.pongs <+: pings s.frames := by
  induction steps with
  | @empty m frames stands used_up =>
    obtain ⟨before, f, after, rfl, ping, -, header, -⟩ := splits
    rw [used_up, List.length_nil] at header
    exact absurd (List.length_eq_zero_iff.mp (by omega))
      (h.headed f (List.mem_append_right _ List.mem_cons_self) ping)
  | header _ short =>
    rw [splits_cons, Frame.wire, List.length_append] at splits
    omega
  | message _ _ text final => exact absurd splits (not_splits_text text final)
  | @piece m f later ws piece rest rxRaw _ _ round steps ih =>
    by_cases part : f.kind = .ping ∧ rest ≠ []
    · -- The piece is answered, and no later pong takes its place.
      obtain ⟨ping, open_end⟩ := part
      intro start
      have answered : m.pongs ++ [piece] <+: m.pongs ++ f.payload :: pings later := by
        have first := (pongs_start steps).trans start
        rwa [RawMesh.took, if_pos ping, h.answered, pings, if_pos ping] at first
      rw [List.prefix_append_right_inj, List.cons_prefix_cons, round.cut] at answered
      exact open_end (List.self_eq_append_right.mp answered.1)
    · have whole_ping (ping : f.kind = .ping) : rest = [] ∧ f.payload.length ≤ 4096 := by
        have done : rest = [] := by
          by_contra open_end
          exact part ⟨ping, open_end⟩
        exact ⟨done, ((round.whole_iff greedy split ping).mp done).2⟩
      rw [round.splits_iff ws whole_ping] at splits
      exact ih (h.took ws round whole_ping) (round.split ws split) splits

/-! ## Runs of calls -/

omit [WebSocketClient W] in
theorem Ponging.pump (h : Ponging s received returned m frames) (chunk : List UInt8) :
    Ponging s (received + chunk.length) returned (m.pump chunk) frames where
  headed := h.headed
  answered := h.answered
  agrees k n := by
    rw [Nat.add_assoc, h.agrees, RawMesh.pump, List.length_append, Nat.add_assoc]

omit [WebSocketClient W] in
theorem Ponging.splits_iff (h : Ponging s received returned m frames) :
    s.Splits received returned ↔ Frames.Splits 4096 0 m.rxRaw.length frames :=
  h.agrees 0 0

omit [WebSocketClient W] in
/-- A mesh that has the rest of the stream in hand and nothing whole in it has answered
every ping. -/
theorem Ponging.all (h : Ponging s received returned m frames)
    (finished : wire frames = m.rxRaw) (used_up : within m.rxRaw.length frames = []) :
    pings s.frames = m.pongs := by
  rw [← finished, within_all (Nat.le_refl _)] at used_up
  rw [h.answered, used_up]
  exact List.append_nil _

theorem Inbound.Whole.take {calls : List (List UInt8)} (whole : s.Whole received returned calls)
    (k : Nat) : s.Whole received returned (calls.take k) := by
  induction calls generalizing received returned k with
  | nil =>
    rw [List.take_nil]
    exact whole
  | cons chunk later ih =>
    cases k with
    | zero => trivial
    | succ k => exact ⟨whole.1, ih whole.2 k⟩

/-- **A run of calls** that comes to no split answers the pings of the stream in order,
and has none left once it has used up a stream. -/
theorem Ponging.listen (decodes : Decodes At) (greedy : Greedy At) {told : List String}
    {calls : List (List UInt8)} (h : Ponging s received told.length m frames)
    (reading : Reading At s received told m frames (calls.flatten ++ future))
    (whole : s.Whole received told.length calls) :
    ∃ m', m.listen calls = some (s.answers received told.length calls, m') ∧
      m'.pongs <+: pings s.frames ∧
      (future = [] → (s.answers received told.length calls).getLast? = some none →
        m'.pongs = pings s.frames) := by
  induction calls generalizing received told m frames with
  | nil =>
    refine ⟨m, rfl, ?_, fun _ last => by cases last⟩
    rw [h.answered]
    exact List.prefix_append _ _
  | cons chunk later ih =>
    rw [List.flatten_cons, List.append_assoc] at reading
    obtain ⟨m₁, frames₁, answered, steps, reading₁⟩ := reading.next decodes
    have h₁ := (h.pump chunk).scanned greedy steps reading.pump_split
      (fun splits => whole.1 ((h.pump chunk).splits_iff.mpr splits))
    rw [← List.length_append] at h₁
    obtain ⟨m', listened, kept, all⟩ := ih h₁ reading₁ (by
      rw [List.length_append]
      exact whole.2)
    refine ⟨m', ?_, kept, fun finished last => ?_⟩
    · rw [List.length_append] at listened
      exact RawMesh.listen_cons answered listened
    cases later with
    | cons => exact all finished (by rwa [Inbound.answers, Inbound.answers, List.getLast?_cons_cons,
        ← Inbound.answers, ← List.length_append] at last)
    | nil =>
      cases listened
      have silent : (s.textsIn (received + chunk.length))[told.length]? = none := by
        simpa [Inbound.answers] using last
      rw [silent] at steps h₁
      refine (h₁.all ?_ (steps.exhausted reading.solid rfl)).symm
      rw [reading₁.split, finished]
      exact List.append_nil _

/-- A run that comes to a split has sent a pong that is not the ping's. -/
theorem Ponging.goes_wrong (decodes : Decodes At) (greedy : Greedy At) {told : List String}
    {calls : List (List UInt8)} (h : Ponging s received told.length m frames)
    (reading : Reading At s received told m frames (calls.flatten ++ future))
    (split : ¬ s.Whole received told.length calls) :
    ∃ k answers m', m.listen (calls.take k) = some (answers, m') ∧
      ¬ m'.pongs <+: pings s.frames := by
  induction calls generalizing received told m frames with
  | nil => exact absurd trivial split
  | cons chunk later ih =>
    rw [List.flatten_cons, List.append_assoc] at reading
    obtain ⟨m₁, frames₁, answered, steps, reading₁⟩ := reading.next decodes
    by_cases splits : s.Splits (received + chunk.length) told.length
    · have wrong := (h.pump chunk).broken greedy steps reading.pump_split
        ((h.pump chunk).splits_iff.mp splits)
      exact ⟨1, _, m₁, RawMesh.listen_cons answered rfl, wrong⟩
    · have h₁ := (h.pump chunk).scanned greedy steps reading.pump_split
        (fun now => splits ((h.pump chunk).splits_iff.mpr now))
      rw [← List.length_append] at h₁
      obtain ⟨k, answers, m', listened, wrong⟩ := ih h₁ reading₁ (by
        rw [List.length_append]
        exact fun whole => split ⟨splits, whole⟩)
      exact ⟨k + 1, _, m', RawMesh.listen_cons answered listened, wrong⟩

omit [WebSocketClient W] in
theorem Ponging.opened (s : Inbound) (ws : W) (early : List UInt8) :
    Ponging s early.length 0 ⟨ws, early, [], []⟩ s.frames where
  headed f here _ := s.headed f here
  answered := rfl
  agrees k n := by rw [Nat.zero_add]

/-- **Pings are answered exactly if none is split.** After any number of calls the pongs
sent are the stream's first pings, whole, in order and once each, and all of them when
everything is received and used up, exactly if no call comes to a ping with its header in
hand but not the whole of it. -/
theorem pongs_iff (decodes : Decodes At) (greedy : Greedy At) {Up : W → Prop}
    {response : List UInt8} (upgrades : Upgrades Up At response s.frames) {ws : W} (up : Up ws)
    {chunks : List (List UInt8)} (tcp : chunks.flatten <+: response ++ s.bytes)
    {m : RawMesh W} {calls : List (List UInt8)}
    (opened : handshake ws [] chunks = .opened m calls) :
    (∀ k, ∃ answers m', m.listen (calls.take k) = some (answers, m') ∧
      m'.pongs <+: pings s.frames ∧
      (m.rxRaw ++ (calls.take k).flatten = s.bytes → answers.getLast? = some none →
        m'.pongs = pings s.frames)) ↔
    s.Whole m.rxRaw.length 0 calls := by
  obtain ⟨waiting, -⟩ | ⟨ws', early, calls', future, opened', stands, -, split⟩ :=
    opens upgrades up tcp
  · cases waiting.symm.trans opened
  obtain ⟨rfl, rfl⟩ := Handshake.opened.inj (opened'.symm.trans opened)
  have start := Ponging.opened s ws' early
  constructor
  · intro right
    by_contra some_split
    obtain ⟨k, answers, m', listened, wrong⟩ :=
      start.goes_wrong decodes greedy (Reading.opened stands split) some_split
    obtain ⟨answers', m'', listened', kept, -⟩ := right k
    cases listened'.symm.trans listened
    exact wrong kept
  · intro whole k
    have cut : s.bytes = early ++ ((calls'.take k).flatten ++
        ((calls'.drop k).flatten ++ future)) := by
      rw [← List.append_assoc (calls'.take k).flatten, ← List.flatten_append,
        List.take_append_drop, split]
    obtain ⟨m', listened, kept, all⟩ :=
      start.listen decodes greedy (Reading.opened stands cut) (whole.take k)
    refine ⟨_, m', listened, kept, fun finished last => all ?_ last⟩
    rw [cut, ← List.append_assoc] at finished
    exact List.self_eq_append_right.mp finished

end

/-! ## A ping in two receives -/

theorem Cursor.greedy : Greedy Cursor.At where
  takes := by
    rintro ⟨response, _⟩ ws' f later buf cap r ⟨rfl, -⟩ - - - header - read
    simp only [WebSocketClient.read, if_neg (Nat.not_lt.mpr header), Prod.mk.injEq,
      Except.ok.injEq] at read
    obtain ⟨rfl, -⟩ := read
    exact List.length_take

def onePing : Inbound where
  frames := [⟨.ping, true, [0x89, 0x02], [7, 8]⟩]
  headed := by decide
  utf8 := by decide

/-- Received at once it is answered with its payload; received in two parts it is
answered with a pong for each. -/
theorem split_ping_answered_twice :
    pings onePing.frames = [[7, 8]] ∧
    ((⟨⟨switching, onePing.frames⟩, [], [], []⟩ : RawMesh Cursor).listen
      [[0x89, 0x02, 7, 8]]).map (·.2.pongs) = some [[7, 8]] ∧
    ((⟨⟨switching, onePing.frames⟩, [], [], []⟩ : RawMesh Cursor).listen
      [[0x89, 0x02, 7], [8]]).map (·.2.pongs) = some [[7], [8]] := by
  decide

/-- A header received before the rest does no harm as long as it is not whole. -/
theorem one_ping_answered : ∃ m',
    (⟨⟨switching, onePing.frames⟩, [], [], []⟩ : RawMesh Cursor).listen [[0x89], [0x02, 7, 8]] =
      some ([none, none], m') ∧ m'.pongs = [[7, 8]] := by
  have part : 60 < switching.length := by
    rw [switching_length]
    decide
  have shook := Cursor.handshake_split part onePing.frames [] [[0x89], [0x02, 7, 8]]
  have tcp : (switching.take 60 :: (switching.drop 60 ++ []) ::
      [[0x89], [0x02, 7, 8]]).flatten <+: switching ++ onePing.bytes := by
    rw [flatten_split, List.prefix_append_right_inj]
    decide
  have whole : onePing.Whole 0 0 [[0x89], [0x02, 7, 8]] := by
    refine ⟨?_, ?_, trivial⟩ <;> unfold Inbound.Splits <;> decide
  obtain ⟨answers, m', listened, -, all⟩ :=
    (pongs_iff Cursor.decodes Cursor.greedy (Cursor.upgrades switching_ne_nil onePing) rfl tcp
      shook).mpr whole 2
  have told : ((⟨⟨switching, onePing.frames⟩, [], [], []⟩ : RawMesh Cursor).listen
      [[0x89], [0x02, 7, 8]]).map (·.1) = some [none, none] := by decide
  obtain rfl : answers = [none, none] := by
    have first := congrArg (Option.map Prod.fst) listened
    exact Option.some.inj (first.symm.trans told)
  exact ⟨m', listened, all rfl rfl⟩

end ApexosRv
