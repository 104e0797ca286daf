import ApexosRv.Mesh
import ApexosRv.RawMesh
import Mathlib.Data.List.ReduceOption

/-!
# Text messages, whatever the segmentation

What a call of `try_next_text` answers is decided by how many bytes of the
stream have been received and how many texts have been returned: it is the next
text in order, if the bytes received by then complete it (`Inbound.answers`).
`Reading` is the invariant, which the handshake sets up and a call keeps.
-/

namespace ApexosRv

open RustStr Frames

/-! ## The answers the stream calls for -/

namespace Inbound

def bytes (s : Inbound) : List UInt8 := wire s.frames

def texts (s : Inbound) : List String := (messages [] s.frames).filterMap fromUtf8

/-- The texts that the first `n` bytes complete. -/
def textsIn (s : Inbound) (n : Nat) : List String :=
  (messages [] (within n s.frames)).filterMap fromUtf8

/-- The answers of calls that receive these bytes, one list a call, after some
bytes received and some texts returned. -/
def answers (s : Inbound) (received returned : Nat) : List (List UInt8) → List (Option String)
  | [] => []
  | chunk :: later =>
    let answer := (s.textsIn (received + chunk.length))[returned]?
    answer :: s.answers (received + chunk.length) (returned + answer.toList.length) later

variable (s : Inbound)

theorem solid : Solid s.frames := by
  intro f here empty
  exact s.headed f here (List.append_eq_nil_iff.mp empty).1

theorem textsIn_start (n : Nat) : s.textsIn n <+: s.texts :=
  (messages_start (within_start n s.frames) []).filterMap fromUtf8

theorem textsIn_all {n : Nat} (all : s.bytes.length ≤ n) : s.textsIn n = s.texts := by
  rw [textsIn, within_all all, texts]

/-- An answer is the next text. -/
theorem drop_eq_answer (n returned : Nat) :
    s.texts.drop returned = (s.textsIn n)[returned]?.toList ++
      s.texts.drop (returned + (s.textsIn n)[returned]?.toList.length) := by
  cases answer : (s.textsIn n)[returned]? with
  | none => rfl
  | some text =>
    obtain ⟨more, whole⟩ := s.textsIn_start n
    have next : s.texts[returned]? = some text := by
      rw [← whole, List.getElem?_append_left (List.getElem?_eq_some_iff.mp answer).1, answer]
    obtain ⟨inside, rfl⟩ := List.getElem?_eq_some_iff.mp next
    exact List.drop_eq_getElem_cons inside

theorem reduceOption_cons (answer : Option String) (later : List (Option String)) :
    (answer :: later).reduceOption = answer.toList ++ later.reduceOption := by
  cases answer <;> rfl

/-- What is returned is whole, in order and returned once. -/
theorem answers_in_order (received returned : Nat) (calls : List (List UInt8)) :
    (s.answers received returned calls).reduceOption <+: s.texts.drop returned := by
  induction calls generalizing received returned with
  | nil => exact List.nil_prefix
  | cons chunk later ih =>
    rw [answers, reduceOption_cons, s.drop_eq_answer (received + chunk.length),
      List.prefix_append_right_inj]
    exact ih _ _

/-- Nothing is left out once everything is received and a call has no answer. -/
theorem answers_all {received returned : Nat} {calls : List (List UInt8)}
    (all : s.bytes.length ≤ received + calls.flatten.length)
    (last : (s.answers received returned calls).getLast? = some none) :
    (s.answers received returned calls).reduceOption = s.texts.drop returned := by
  induction calls generalizing received returned with
  | nil => cases last
  | cons chunk later ih =>
    rw [List.flatten_cons, List.length_append, ← Nat.add_assoc] at all
    rw [answers, reduceOption_cons, s.drop_eq_answer (received + chunk.length),
      List.append_cancel_left_eq]
    cases later with
    | nil =>
      have whole : s.textsIn (received + chunk.length) = s.texts :=
        s.textsIn_all (by simpa using all)
      have silent : s.texts[returned]? = none := by
        simpa [answers, whole] using last
      rw [whole, silent, List.drop_eq_nil_of_le (by simpa using silent)]
      rfl
    | cons chunk' later =>
      refine ih all ?_
      rwa [answers, answers, List.getLast?_cons_cons] at last

end Inbound

section

variable {W : Type} [WebSocketClient W] {Up : W → Prop} {At : W → List Frame → Prop}

/-! ## The handshake -/

/-- A client that asks for more until it has the response, then takes the response
only and stands before the frames. -/
structure Upgrades (Up : W → Prop) (At : W → List Frame → Prop) (response : List UInt8)
    (frames : List Frame) : Prop where
  answered : response ≠ []
  waits {ws : W} {buf : List UInt8} : Up ws → buf <+: response → buf.length < response.length →
    ∃ ws', WebSocketClient.clientAccept ws buf = (.error .httpHeaderIncomplete, ws') ∧ Up ws'
  accepts {ws : W} {early : List UInt8} : Up ws → early <+: wire frames →
    ∃ ws', WebSocketClient.clientAccept ws (response ++ early) = (.ok response.length, ws') ∧
      At ws' frames

/-- What came with the response stays in the mesh. -/
theorem handshake_spec {response : List UInt8} {frames : List Frame}
    (upgrades : Upgrades Up At response frames) {ws : W} (up : Up ws) {rxRaw : List UInt8}
    {chunks : List (List UInt8)} (tcp : rxRaw ++ chunks.flatten <+: response ++ wire frames)
    (short : rxRaw.length < response.length) :
    (handshake ws rxRaw chunks = .waiting ∧
      (rxRaw ++ chunks.flatten).length < response.length) ∨
    ∃ ws' early calls, handshake ws rxRaw chunks = .opened ⟨ws', early, [], []⟩ calls ∧
      At ws' frames ∧ response ++ early ++ calls.flatten = rxRaw ++ chunks.flatten := by
  induction chunks generalizing ws rxRaw with
  | nil => exact .inl ⟨rfl, by simpa using short⟩
  | cons chunk later ih =>
    rw [List.flatten_cons, ← List.append_assoc] at tcp ⊢
    rw [handshake]
    have start : rxRaw ++ chunk <+: response ++ wire frames :=
      (List.prefix_append _ _).trans tcp
    by_cases more : (rxRaw ++ chunk).length < response.length
    · have part : rxRaw ++ chunk <+: response :=
        List.prefix_of_prefix_length_le start (List.prefix_append _ _) (by omega)
      obtain ⟨ws', asked, up'⟩ := upgrades.waits up part more
      simpa only [asked] using ih up' tcp more
    · obtain ⟨early, whole⟩ : response <+: rxRaw ++ chunk :=
        List.prefix_of_prefix_length_le (List.prefix_append _ _) start (by omega)
      rw [← whole, List.prefix_append_right_inj] at start
      obtain ⟨ws', accepted, stands⟩ := upgrades.accepts up start
      refine .inr ⟨ws', early, later, ?_, stands, by rw [whole]⟩
      simp only [← whole, accepted, RawMesh.drain, List.length_append, Nat.le_add_right,
        ↓reduceIte, List.drop_left]

/-- Either the response is not received yet, or the session is open before the whole
stream, and what is still to come ends it. -/
theorem opens {response : List UInt8} {s : Inbound} (upgrades : Upgrades Up At response s.frames)
    {ws : W} (up : Up ws) {chunks : List (List UInt8)}
    (tcp : chunks.flatten <+: response ++ s.bytes) :
    (handshake ws [] chunks = .waiting ∧ chunks.flatten.length < response.length) ∨
    ∃ ws' early calls future, handshake ws [] chunks = .opened ⟨ws', early, [], []⟩ calls ∧
      At ws' s.frames ∧ response ++ early ++ calls.flatten = chunks.flatten ∧
      s.bytes = early ++ (calls.flatten ++ future) := by
  have short : ([] : List UInt8).length < response.length :=
    List.length_pos_iff.mpr upgrades.answered
  obtain waiting | ⟨ws', early, calls, opened, stands, received⟩ :=
    handshake_spec upgrades up tcp short
  · exact .inl waiting
  · obtain ⟨future, split⟩ : early ++ calls.flatten <+: s.bytes := by
      rwa [← List.nil_append chunks.flatten, ← received, List.append_assoc,
        List.prefix_append_right_inj] at tcp
    exact .inr ⟨ws', early, calls, future, opened, stands, received,
      by rw [← split, List.append_assoc]⟩

/-! ## The invariant -/

/-- A mesh that has received some bytes of a stream and returned some texts, with
some frames ahead and some bytes still to come: whatever bytes come next, the texts
they complete are those returned and those its own bytes complete with them. -/
structure Reading (At : W → List Frame → Prop) (s : Inbound) (received : Nat)
    (returned : List String) (m : RawMesh W) (frames : List Frame) (future : List UInt8) :
    Prop where
  stands : At m.ws frames
  split : wire frames = m.rxRaw ++ future
  solid : Solid frames
  utf8 : ∀ text ∈ messages m.msgPartial frames, (fromUtf8 text).isSome = true
  told (n : Nat) : s.textsIn (received + n) = returned ++
    (messages m.msgPartial (within (m.rxRaw.length + n) frames)).filterMap fromUtf8
  behind : wire frames <:+ s.bytes

namespace Reading

variable {s : Inbound} {received : Nat} {returned : List String} {m : RawMesh W}
  {frames : List Frame} {chunk future : List UInt8}

/-- What is left to complete is left to decode. -/
theorem utf8_of_done {done : List (List UInt8)} {part part' : List UInt8}
    {frames frames' : List Frame} {n n' : Nat}
    (utf8 : ∀ text ∈ messages part frames, (fromUtf8 text).isSome = true)
    (same : ∀ k, messages part (within (n + k) frames) =
      done ++ messages part' (within (n' + k) frames')) :
    ∀ text ∈ messages part' frames', (fromUtf8 text).isSome = true := by
  intro text here
  have all := same ((wire frames).length + (wire frames').length)
  rw [within_all (by omega), within_all (by omega)] at all
  exact utf8 text (all ▸ List.mem_append_right _ here)

omit [WebSocketClient W] in
theorem pump_split (h : Reading At s received returned m frames (chunk ++ future)) :
    wire frames = (m.pump chunk).rxRaw ++ future := by
  rw [h.split, RawMesh.pump, List.append_assoc]

/-- **One call** answers the next text, if what is received by then completes it. -/
theorem next (decodes : Decodes At)
    (h : Reading At s received returned m frames (chunk ++ future)) :
    ∃ m' frames', m.tryNextText chunk =
        some ((s.textsIn (received + chunk.length))[returned.length]?, m') ∧
      Scanned At (m.pump chunk) frames
        ((s.textsIn (received + chunk.length))[returned.length]?, m') frames' ∧
      Reading At s (received + chunk.length)
        (returned ++ (s.textsIn (received + chunk.length))[returned.length]?.toList)
        m' frames' future := by
  have split := h.pump_split
  obtain ⟨⟨answer, m'⟩, frames', scanned, steps⟩ := RawMesh.scan_spec (m := m.pump chunk)
    decodes h.stands split h.utf8 (Nat.lt_succ_self _)
  obtain ⟨done, told, same⟩ := steps.messages
  have told' (n : Nat) : s.textsIn (received + chunk.length + n) = returned ++ answer.toList ++
      (messages m'.msgPartial (within (m'.rxRaw.length + n) frames')).filterMap fromUtf8 := by
    have size : (m.pump chunk).rxRaw.length + n = m.rxRaw.length + (chunk.length + n) := by
      rw [RawMesh.pump, List.length_append, Nat.add_assoc]
    rw [Nat.add_assoc, h.told, ← size, List.append_assoc, ← told, ← List.filterMap_append]
    congr 2
    exact same n
  have asked : (s.textsIn (received + chunk.length))[returned.length]? = answer := by
    have now := told' 0
    rw [Nat.add_zero, Nat.add_zero, List.append_assoc] at now
    rw [now, List.getElem?_append_right (Nat.le_refl _), Nat.sub_self]
    cases answer with
    | some text => rfl
    | none =>
      have nothing := steps.exhausted h.solid rfl
      rw [show within m'.rxRaw.length frames' = [] from nothing]
      rfl
  rw [asked]
  exact ⟨m', frames', scanned, steps, ⟨steps.stands, steps.wire split, steps.solid h.solid,
    utf8_of_done h.utf8 same, told', steps.behind.trans h.behind⟩⟩

/-- **A run of calls** answers as the stream calls for. -/
theorem listen (decodes : Decodes At) {calls : List (List UInt8)}
    (h : Reading At s received returned m frames (calls.flatten ++ future)) :
    ∃ m' frames', m.listen calls = some (s.answers received returned.length calls, m') ∧
      Reading At s (received + calls.flatten.length)
        (returned ++ (s.answers received returned.length calls).reduceOption)
        m' frames' future := by
  induction calls generalizing received returned m frames with
  | nil =>
    refine ⟨m, frames, rfl, ?_⟩
    simpa [Inbound.answers] using h
  | cons chunk later ih =>
    rw [List.flatten_cons, List.append_assoc] at h
    obtain ⟨m₁, frames₁, answered, -, h₁⟩ := h.next decodes
    obtain ⟨m', frames', listened, h'⟩ := ih h₁
    refine ⟨m', frames', ?_, ?_⟩
    · rw [List.length_append] at listened
      exact RawMesh.listen_cons answered listened
    · rw [List.length_append] at h'
      rwa [List.flatten_cons, List.length_append, ← Nat.add_assoc, Inbound.answers,
        Inbound.reduceOption_cons, ← List.append_assoc]

omit [WebSocketClient W] in
/-- The handshake leaves the mesh before the whole stream. -/
theorem opened {ws : W} {early : List UInt8} (stands : At ws s.frames)
    (split : s.bytes = early ++ future) :
    Reading At s early.length [] ⟨ws, early, [], []⟩ s.frames future where
  stands := stands
  split := split
  solid := s.solid
  utf8 := s.utf8
  told _ := rfl
  behind := List.suffix_rfl

end Reading

/-- **Text messages are reassembled exactly.** Until the response is received the
handshake waits. From then on no call panics, and each answers the next text of the
stream if the bytes received by then complete it: the answers are the stream's texts,
whole and in order, and all of them once everything is received and a call has none. -/
theorem texts_reassembled (decodes : Decodes At) {s : Inbound} {response : List UInt8}
    (upgrades : Upgrades Up At response s.frames) {ws : W} (up : Up ws)
    {chunks : List (List UInt8)} (tcp : chunks.flatten <+: response ++ s.bytes) :
    (chunks.flatten.length < response.length ∧ handshake ws [] chunks = .waiting) ∨
    ∃ m calls m', handshake ws [] chunks = .opened m calls ∧
      response ++ m.rxRaw ++ calls.flatten = chunks.flatten ∧
      m.listen calls = some (s.answers m.rxRaw.length 0 calls, m') ∧
      (s.answers m.rxRaw.length 0 calls).reduceOption <+: s.texts ∧
      (chunks.flatten = response ++ s.bytes →
        (s.answers m.rxRaw.length 0 calls).getLast? = some none →
        (s.answers m.rxRaw.length 0 calls).reduceOption = s.texts) := by
  obtain ⟨waiting, more⟩ | ⟨ws', early, calls, future, opened, stands, received, split⟩ :=
    opens upgrades up tcp
  · exact .inl ⟨more, waiting⟩
  · obtain ⟨m', frames', listened, -⟩ := (Reading.opened stands split).listen decodes
    refine .inr ⟨_, calls, m', opened, received, listened, s.answers_in_order _ 0 _, ?_⟩
    intro all last
    rw [← received, List.append_assoc, List.append_cancel_left_eq] at all
    exact s.answers_all (all ▸ Nat.le_of_eq List.length_append) last

end

/-! ## The session as a link of texts -/

section

variable {W : Type} [WebSocketClient W] {At : W → List Frame → Prop}

def RawMesh.sendText (m : RawMesh W) (payload : String) : Option (RawMesh W) :=
  match WebSocketClient.write m.ws .text true (bytes payload) ((bytes payload).length + 64) with
  | (.ok _, ws) => some { m with ws }
  | (.error _, _) => none

/-- A client that can write texts all along. -/
def Writes (At : W → List Frame → Prop) : Prop :=
  ∀ (ws : W) (frames : List Frame) (payload : List UInt8) (cap : Nat), At ws frames →
    payload.length + 64 ≤ cap →
    ∃ out ws', WebSocketClient.write ws .text true payload cap = (.ok out, ws') ∧ At ws' frames

/-- A mesh in the course of a stream. `calls` are what the coming pumps receive. -/
structure Wired (At : W → List Frame → Prop) where
  stream : Inbound
  received : Nat
  returned : List String
  mesh : RawMesh W
  calls : List (List UInt8)
  sent : List String
  reading : ∃ frames future,
    Reading At stream received returned mesh frames (calls.flatten ++ future)

namespace Wired

theorem next (decodes : Decodes At) (l : Wired At) {chunk : List UInt8}
    {later : List (List UInt8)} (calls : l.calls = chunk :: later) :
    ∃ mesh, l.mesh.tryNextText chunk =
        some ((l.stream.textsIn (l.received + chunk.length))[l.returned.length]?, mesh) ∧
      ∃ frames future, Reading At l.stream (l.received + chunk.length)
        (l.returned ++ (l.stream.textsIn (l.received + chunk.length))[l.returned.length]?.toList)
        mesh frames (later.flatten ++ future) := by
  obtain ⟨frames, future, reading⟩ := l.reading
  rw [calls, List.flatten_cons, List.append_assoc] at reading
  obtain ⟨mesh, frames', answered, -, reading'⟩ := reading.next decodes
  exact ⟨mesh, answered, frames', future, reading'⟩

def receive (decodes : Decodes At) (l : Wired At) : Option String × Wired At :=
  match calls : l.calls with
  | [] => (none, l)
  | chunk :: later =>
    match answered : l.mesh.tryNextText chunk with
    | none => (none, l)
    | some (answer, mesh) =>
      (answer, { l with
        received := l.received + chunk.length
        returned := l.returned ++ answer.toList
        mesh
        calls := later
        reading := by
          obtain ⟨mesh', answered', reading⟩ := l.next decodes calls
          cases answered.symm.trans answered'
          exact reading })

theorem wrote (writes : Writes At) (l : Wired At) (payload : String) :
    ∃ mesh, l.mesh.sendText payload = some mesh ∧ ∃ frames future,
      Reading At l.stream l.received l.returned mesh frames (l.calls.flatten ++ future) := by
  obtain ⟨frames, future, reading⟩ := l.reading
  obtain ⟨out, ws, written, stands⟩ :=
    writes _ _ (bytes payload) _ reading.stands (Nat.le_refl _)
  refine ⟨{ l.mesh with ws }, by rw [RawMesh.sendText, written], frames, future, ?_⟩
  exact ⟨stands, reading.split, reading.solid, reading.utf8, reading.told, reading.behind⟩

def send (writes : Writes At) (l : Wired At) (payload : String) : Wired At :=
  match written : l.mesh.sendText payload with
  | none => l
  | some mesh => { l with
      mesh
      sent := l.sent ++ [payload]
      reading := by
        obtain ⟨mesh', written', reading⟩ := l.wrote writes payload
        cases written.symm.trans written'
        exact reading }

/-- **The session is a link.** It hands out the texts its stream calls for, so what
holds of a goal on any link holds of a goal on the bytes. -/
@[reducible] def link (decodes : Decodes At) (writes : Writes At) : Link (Wired At) String where
  send := send writes
  receive := receive decodes
  sent := Wired.sent
  unread l := (l.stream.answers l.received l.returned.length l.calls).reduceOption
  sent_send l payload := by
    obtain ⟨mesh, written, -⟩ := l.wrote writes payload
    unfold send
    split
    · rename_i failed
      cases failed.symm.trans written
    · rfl
  unread_send l payload := by
    unfold send
    split <;> rfl
  sent_receive l := by
    unfold receive
    split
    · rfl
    · split <;> rfl
  unread_receive l := by
    unfold receive
    split
    · rename_i calls
      simp [calls, Inbound.answers]
    · rename_i chunk later calls
      obtain ⟨mesh, answered, -⟩ := l.next decodes calls
      split
      · rename_i failed
        cases failed.symm.trans answered
      · rename_i answer mesh' answered'
        cases answered'.symm.trans answered
        have unread := congrArg (l.stream.answers l.received l.returned.length) calls
        refine (congrArg List.reduceOption unread).trans ?_
        simp only [Inbound.answers, Inbound.reduceOption_cons, List.length_append]

end Wired

end

/-! ## A stream -/

theorem Cursor.upgrades {response : List UInt8} (answered : response ≠ []) (s : Inbound) :
    Upgrades (fun c : Cursor => c = ⟨response, s.frames⟩) Cursor.At response s.frames where
  answered := answered
  waits := by
    rintro _ buf rfl - short
    exact ⟨_, if_pos short, rfl⟩
  accepts := by
    rintro _ early rfl -
    refine ⟨_, if_neg ?_, rfl, s.solid⟩
    rw [List.length_append]
    exact Nat.not_lt.mpr (Nat.le_add_right _ _)

theorem flatten_split {α : Type} (xs early : List α) (k : Nat) (later : List (List α)) :
    (xs.take k :: (xs.drop k ++ early) :: later).flatten = xs ++ (early ++ later.flatten) := by
  rw [List.flatten_cons, List.flatten_cons, List.append_assoc, ← List.append_assoc,
    List.take_append_drop]

/-- A response in two parts, the second with the first bytes of the stream. -/
theorem Cursor.handshake_split {response : List UInt8} {k : Nat} (part : k < response.length)
    (frames : List Frame) (early : List UInt8) (calls : List (List UInt8)) :
    handshake (⟨response, frames⟩ : Cursor) []
        (response.take k :: (response.drop k ++ early) :: calls) =
      .opened ⟨⟨response, frames⟩, early, [], []⟩ calls := by
  have short : (response.take k).length < response.length := by
    rw [List.length_take]
    omega
  have whole : response.take k ++ (response.drop k ++ early) = response ++ early := by
    rw [← List.append_assoc, List.take_append_drop]
  have long : ¬ response.length + early.length < response.length := by omega
  simp only [handshake, WebSocketClient.clientAccept, List.nil_append, if_pos short, whole,
    List.length_append, if_neg long, RawMesh.drain, Nat.le_add_right, ↓reduceIte, List.drop_left]

/-- A text of one character, a ping, and a text of two characters in two frames. -/
def twoTexts : Inbound where
  frames := [⟨.text, true, [0x81, 0x02], [0xC3, 0xA9]⟩, ⟨.ping, true, [0x89, 0x02], [7, 8]⟩,
    ⟨.text, false, [0x01, 0x02], [0xC3, 0xA9]⟩, ⟨.text, true, [0x80, 0x01], [0x21]⟩]
  headed := by decide
  utf8 := by decide +kernel

/-- They come back whole from receives that split the response, a header and a
character. -/
theorem two_texts_reassembled :
    ∃ m', (⟨⟨switching, twoTexts.frames⟩, [0x81], [], []⟩ : RawMesh Cursor).listen
        [[0x02, 0xC3], [], [0xA9, 0x89, 0x02, 7, 8], [0x01, 0x02, 0xC3, 0xA9],
          [0x80, 0x01, 0x21], []] =
      some ([none, none, some "é", none, some "é!", none], m') := by
  have part : 60 < switching.length := by
    rw [switching_length]
    decide
  have shook := Cursor.handshake_split part twoTexts.frames [0x81]
    [[0x02, 0xC3], [], [0xA9, 0x89, 0x02, 7, 8], [0x01, 0x02, 0xC3, 0xA9], [0x80, 0x01, 0x21], []]
  have tcp : (switching.take 60 :: (switching.drop 60 ++ [0x81]) :: [[0x02, 0xC3], [],
      [0xA9, 0x89, 0x02, 7, 8], [0x01, 0x02, 0xC3, 0xA9], [0x80, 0x01, 0x21], []]).flatten <+:
        switching ++ twoTexts.bytes := by
    rw [flatten_split, List.prefix_append_right_inj]
    decide
  obtain ⟨-, waiting⟩ | ⟨m, calls, m', opened, -, listened, -⟩ :=
    texts_reassembled Cursor.decodes (Cursor.upgrades switching_ne_nil twoTexts) rfl tcp
  · cases shook.symm.trans waiting
  · obtain ⟨rfl, rfl⟩ := Handshake.opened.inj (shook.symm.trans opened)
    have told : twoTexts.answers 1 0 [[0x02, 0xC3], [], [0xA9, 0x89, 0x02, 7, 8],
        [0x01, 0x02, 0xC3, 0xA9], [0x80, 0x01, 0x21], []] =
      [none, none, some "é", none, some "é!", none] := by decide +kernel
    exact ⟨m', told ▸ listened⟩

end ApexosRv
