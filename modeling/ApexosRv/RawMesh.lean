import ApexosRv.Frames
import ApexosRv.Utf8

/-!
# The gateway session by its bytes

`Mesh` (`kernel/src/net/mesh.rs`) below the text messages: the bytes received
but not decoded, the text message they have made so far, and the WebSocket
client of `embedded-websocket` as a parameter. One list of bytes is what one
`pump` receives. `none` is a panic. `Scanned` says once what the loop of
`try_next_text` can do on a stream that the client decodes.
-/

namespace ApexosRv

open RustStr Frames

inductive WsError where
  | httpHeaderIncomplete
  | readFrameIncomplete
  | other
  deriving DecidableEq, Repr

inductive WebSocketReceiveMessageType where
  | text
  | binary
  | closeCompleted
  | closeMustReply
  | ping
  | pong
  deriving DecidableEq, Repr

inductive WebSocketSendMessageType where
  | text
  | pong
  deriving DecidableEq, Repr

/-- `payload` is the part of the frame buffer that was written. -/
structure WebSocketReadResult where
  lenFrom : Nat
  payload : List UInt8
  endOfMessage : Bool
  messageType : WebSocketReceiveMessageType
  deriving DecidableEq, Repr

/-- The client with its masking RNG and the key of its handshake. A number is
the size of the buffer it may write to. -/
class WebSocketClient (W : Type) where
  clientAccept : W → List UInt8 → Except WsError Nat × W
  read : W → List UInt8 → Nat → Except WsError WebSocketReadResult × W
  write : W → WebSocketSendMessageType → Bool → List UInt8 → Nat → Except WsError (List UInt8) × W
  close : W → Nat → Except WsError (List UInt8) × W

/-- `pongs` are the payloads of the Pong frames sent. -/
structure RawMesh (W : Type) where
  ws : W
  rxRaw : List UInt8
  msgPartial : List UInt8
  pongs : List (List UInt8)
  deriving DecidableEq, Repr

namespace RawMesh

variable {W : Type}

def pump (m : RawMesh W) (received : List UInt8) : RawMesh W :=
  { m with rxRaw := m.rxRaw ++ received }

/-- `rx_raw.drain(..n)`. -/
def drain (m : RawMesh W) (n : Nat) : Option (RawMesh W) :=
  if n ≤ m.rxRaw.length then some { m with rxRaw := m.rxRaw.drop n } else none

variable [WebSocketClient W]

/-- The Pong frame goes out through `blocking_send_raw`, which succeeds here. -/
def pong (m : RawMesh W) (payload : List UInt8) : Option (RawMesh W) :=
  match WebSocketClient.write m.ws .pong true payload (payload.length + 16) with
  | (.ok _, ws) => some { m with ws, pongs := m.pongs ++ [payload] }
  | (.error _, _) => none

/-- The `while !self.rx_raw.is_empty()` loop of `try_next_text`. -/
def scan : Nat → RawMesh W → Option (Option String × RawMesh W)
  | 0, _ => none
  | fuel + 1, m =>
    if m.rxRaw.isEmpty then some (none, m)
    else
      match WebSocketClient.read m.ws m.rxRaw 4096 with
      | (.ok r, ws) => do
        let m ← { m with ws }.drain r.lenFrom
        match r.messageType with
        | .text =>
          let m := { m with msgPartial := m.msgPartial ++ r.payload }
          if r.endOfMessage then
            let msg ← fromUtf8 m.msgPartial
            some (some msg, { m with msgPartial := [] })
          else scan fuel m
        | .ping =>
          let m ← m.pong r.payload
          scan fuel m
        | .closeMustReply => none
        | .closeCompleted => none
        | .binary => scan fuel m
        | .pong => scan fuel m
      | (.error .readFrameIncomplete, ws) => some (none, { m with ws })
      | (.error _, _) => none

/-- Every round of the loop takes a byte at least, so it never runs out of
rounds (`scan_spec`). -/
def tryNextText (m : RawMesh W) (received : List UInt8) : Option (Option String × RawMesh W) :=
  let m := m.pump received
  scan (m.rxRaw.length + 1) m

/-- `try_next_text` called again and again. -/
def listen (m : RawMesh W) : List (List UInt8) → Option (List (Option String) × RawMesh W)
  | [] => some ([], m)
  | received :: later => do
    let (answer, m) ← m.tryNextText received
    let (answers, m) ← m.listen later
    some (answer :: answers, m)

theorem listen_cons {m m₁ m₂ : RawMesh W} {received : List UInt8} {later : List (List UInt8)}
    {answer : Option String} {answers : List (Option String)}
    (answered : m.tryNextText received = some (answer, m₁))
    (listened : m₁.listen later = some (answers, m₂)) :
    m.listen (received :: later) = some (answer :: answers, m₂) := by
  simp only [listen, answered, Option.bind_eq_bind, Option.bind_some, listened]

end RawMesh

/-- Where the handshake loop of `establish` is after the bytes received so far. -/
inductive Handshake (W : Type) where
  | waiting
  | rejected
  | opened (mesh : RawMesh W) (later : List (List UInt8))

/-- The handshake loop of `establish`, while its deadline is not reached. -/
def handshake {W : Type} [WebSocketClient W] (ws : W) (rxRaw : List UInt8) :
    List (List UInt8) → Handshake W
  | [] => .waiting
  | received :: later =>
    let rxRaw := rxRaw ++ received
    match WebSocketClient.clientAccept ws rxRaw with
    | (.ok consumed, ws) =>
      match (⟨ws, rxRaw, [], []⟩ : RawMesh W).drain consumed with
      | some mesh => .opened mesh later
      | none => .rejected
    | (.error .httpHeaderIncomplete, ws) => handshake ws rxRaw later
    | (.error _, _) => .rejected

/-! ## What is relied on of the client -/

/-- What a frame is reported as. -/
def receiveType : Kind → WebSocketReceiveMessageType
  | .text => .text
  | .binary => .binary
  | .ping => .ping
  | .pong => .pong

/-- What a `read` reports that takes a piece of a frame and leaves the rest. -/
def report (f : Frame) (piece rest : List UInt8) : WebSocketReadResult :=
  ⟨f.header.length + piece.length, piece, f.final && rest.isEmpty, receiveType f.kind⟩

/-- The stream of a peer: its frames have headers, its text messages are UTF-8. -/
structure Inbound where
  frames : List Frame
  headed : ∀ f ∈ frames, f.header ≠ []
  utf8 : ∀ text ∈ messages [] frames, (fromUtf8 text).isSome = true

/-- A client that decodes: `At ws frames` says that it stands where these frames
are ahead. It takes nothing of an incomplete header; from then on it takes at
least one byte and yields the next piece of the payload, with the frame's type,
and the end of the message on the last piece of a final frame. Pongs can be
written all along, into a buffer with room for the frame around the payload. -/
structure Decodes {W : Type} [WebSocketClient W] (At : W → List Frame → Prop) : Prop where
  waits {ws : W} {f : Frame} {later : List Frame} {buf : List UInt8} {cap : Nat} :
    At ws (f :: later) → buf <+: wire (f :: later) → buf ≠ [] → 0 < cap →
      buf.length < f.header.length →
      ∃ ws', WebSocketClient.read ws buf cap = (.error .readFrameIncomplete, ws') ∧
        At ws' (f :: later)
  yields {ws : W} {f : Frame} {later : List Frame} {buf : List UInt8} {cap : Nat} :
    At ws (f :: later) → buf <+: wire (f :: later) → buf ≠ [] → 0 < cap →
      f.header.length ≤ buf.length →
      ∃ ws' piece rest, f.payload = piece ++ rest ∧ 0 < f.header.length + piece.length ∧
        f.header.length + piece.length ≤ buf.length ∧
        WebSocketClient.read ws buf cap = (.ok (report f piece rest), ws') ∧
        At ws' (ahead f rest later)
  pongs {ws : W} {frames : List Frame} {payload : List UInt8} {cap : Nat} : At ws frames →
    payload.length + 16 ≤ cap →
    ∃ out ws', WebSocketClient.write ws .pong true payload cap = (.ok out, ws') ∧ At ws' frames

/-! ## What the loop does -/

/-- The mesh after a piece that completes no text. -/
def RawMesh.took {W : Type} (m : RawMesh W) (kind : Kind) (piece : List UInt8) (ws : W)
    (rxRaw : List UInt8) : RawMesh W :=
  { ws, rxRaw
    msgPartial := if kind = .text then m.msgPartial ++ piece else m.msgPartial
    pongs := if kind = .ping then m.pongs ++ [piece] else m.pongs }

/-- A round that takes a piece of the frame ahead, and completes no text with it. -/
structure Round {W : Type} [WebSocketClient W] (At : W → List Frame → Prop) (m : RawMesh W)
    (f : Frame) (later : List Frame) (piece rest rxRaw : List UInt8) : Prop where
  stands : At m.ws (f :: later)
  more : m.rxRaw ≠ []
  read : (WebSocketClient.read m.ws m.rxRaw 4096).1 = .ok (report f piece rest)
  cut : f.payload = piece ++ rest
  taken : m.rxRaw = f.header ++ piece ++ rxRaw
  goes_on : ¬ (f.kind = .text ∧ f.final = true ∧ rest = [])

/-- What is in hand then is what the rest of the frame and the later ones start with. -/
theorem Round.split {W : Type} [WebSocketClient W] {At : W → List Frame → Prop} {m : RawMesh W}
    {f : Frame} {later : List Frame} {piece rest rxRaw future : List UInt8}
    (round : Round At m f later piece rest rxRaw) (ws : W)
    (split : wire (f :: later) = m.rxRaw ++ future) :
    wire (ahead f rest later) = (m.took f.kind piece ws rxRaw).rxRaw ++ future := by
  rw [wire_ahead round.cut, round.taken, List.append_assoc _ rxRaw] at split
  exact List.append_cancel_left split

theorem RawMesh.pongs_took {W : Type} (m : RawMesh W) (kind : Kind) (piece : List UInt8) (ws : W)
    (rxRaw : List UInt8) : m.pongs <+: (m.took kind piece ws rxRaw).pongs := by
  show m.pongs <+: if kind = .ping then m.pongs ++ [piece] else m.pongs
  split
  · exact List.prefix_append _ _
  · exact List.prefix_rfl

/-- What one loop did, from a mesh with some frames ahead to its answer, the
mesh and the frames ahead then: it took pieces until one completed a text, or
until what it had was used up or less than a header. -/
inductive Scanned {W : Type} [WebSocketClient W] (At : W → List Frame → Prop) :
    RawMesh W → List Frame → Option String × RawMesh W → List Frame → Prop where
  | empty {m : RawMesh W} {frames : List Frame} (stands : At m.ws frames)
      (used_up : m.rxRaw = []) : Scanned At m frames (none, m) frames
  | header {m : RawMesh W} {f : Frame} {later : List Frame} {ws : W}
      (stands : At ws (f :: later)) (short : m.rxRaw.length < f.header.length) :
      Scanned At m (f :: later) (none, { m with ws }) (f :: later)
  | message {m : RawMesh W} {f : Frame} {later : List Frame} {ws : W} {rxRaw : List UInt8}
      {msg : String} (stands : At ws later) (taken : m.rxRaw = f.header ++ f.payload ++ rxRaw)
      (text : f.kind = .text) (final : f.final = true)
      (decoded : fromUtf8 (m.msgPartial ++ f.payload) = some msg) :
      Scanned At m (f :: later) (some msg, ⟨ws, rxRaw, [], m.pongs⟩) later
  | piece {m : RawMesh W} {f : Frame} {later : List Frame} {ws : W}
      {piece rest rxRaw : List UInt8} {out : Option String × RawMesh W} {frames : List Frame}
      (round : Round At m f later piece rest rxRaw)
      (scanned : Scanned At (m.took f.kind piece ws rxRaw) (ahead f rest later) out frames) :
      Scanned At m (f :: later) out frames

namespace Scanned

variable {W : Type} [WebSocketClient W] {At : W → List Frame → Prop} {m : RawMesh W}
  {frames frames' : List Frame} {out : Option String × RawMesh W}

theorem stands (h : Scanned At m frames out frames') : At out.2.ws frames' := by
  induction h with
  | empty stands => exact stands
  | header stands => exact stands
  | message stands => exact stands
  | piece _ _ ih => exact ih

theorem wire {future : List UInt8} (h : Scanned At m frames out frames')
    (split : Frames.wire frames = m.rxRaw ++ future) :
    Frames.wire frames' = out.2.rxRaw ++ future := by
  induction h with
  | empty => exact split
  | header => exact split
  | message _ taken =>
    rw [wire_cons, taken] at split
    simpa only [List.append_assoc, List.append_cancel_left_eq] using split
  | piece round _ ih => exact ih (round.split _ split)

theorem behind (h : Scanned At m frames out frames') :
    Frames.wire frames' <:+ Frames.wire frames := by
  induction h with
  | empty => exact List.suffix_rfl
  | header => exact List.suffix_rfl
  | message =>
    rw [wire_cons, ← List.append_assoc]
    exact List.suffix_append _ _
  | piece round _ ih =>
    rw [wire_ahead round.cut]
    exact ih.trans (List.suffix_append _ _)

theorem solid (h : Scanned At m frames out frames') (solid : Solid frames) : Solid frames' := by
  induction h with
  | empty => exact solid
  | header => exact solid
  | message => exact fun f here => solid f (List.mem_cons_of_mem _ here)
  | piece _ _ ih => exact ih (solid.ahead _)

/-- What the bytes in hand complete is the answer and what they complete after it. -/
theorem messages (h : Scanned At m frames out frames') :
    ∃ done, done.filterMap fromUtf8 = out.1.toList ∧
      ∀ n, Frames.messages m.msgPartial (within (m.rxRaw.length + n) frames) =
        done ++ Frames.messages out.2.msgPartial (within (out.2.rxRaw.length + n) frames') := by
  induction h with
  | empty => exact ⟨[], rfl, fun _ => rfl⟩
  | header => exact ⟨[], rfl, fun _ => rfl⟩
  | @message m f later ws rxRaw msg stands taken text final decoded =>
    refine ⟨[m.msgPartial ++ f.payload], by simp [decoded], ?_⟩
    intro n
    have cut : f.payload = f.payload ++ [] := (List.append_nil _).symm
    rw [taken, List.length_append, List.length_append, Nat.add_assoc, messages_ahead cut,
      if_pos text, if_pos ⟨final, rfl⟩]
    rfl
  | @piece m f later ws piece rest rxRaw out frames' round _ ih =>
    obtain ⟨done, told, same⟩ := ih
    refine ⟨done, told, ?_⟩
    intro n
    rw [← same n, round.taken, List.length_append, List.length_append, Nat.add_assoc,
      messages_ahead round.cut]
    by_cases text : f.kind = .text
    · rw [if_pos text, if_neg (fun h => round.goes_on ⟨text, h⟩), RawMesh.took, if_pos text]
    · rw [if_neg text, RawMesh.took, if_neg text]

/-- A loop that has no answer has used up what it had, up to an incomplete frame. -/
theorem exhausted (h : Scanned At m frames out frames') (solid : Solid frames)
    (silent : out.1 = none) : within out.2.rxRaw.length frames' = [] := by
  induction h with
  | empty _ used_up => rw [used_up, List.length_nil, within_zero solid]
  | header _ short =>
    refine within_short (Nat.lt_of_lt_of_le short ?_) _
    simp [Frame.wire]
  | message => cases silent
  | piece _ _ ih => exact ih (solid.ahead _) silent

end Scanned

section

variable {W : Type} [WebSocketClient W] {At : W → List Frame → Prop} {m : RawMesh W}

namespace RawMesh

omit [WebSocketClient W] in
theorem drain_taken {head piece rxRaw : List UInt8} (ws : W)
    (taken : m.rxRaw = head ++ piece ++ rxRaw) :
    RawMesh.drain { m with ws } (head.length + piece.length) = some { m with ws, rxRaw } := by
  rw [drain, if_pos (by simp [taken]), taken, ← List.length_append, List.drop_left]

/-- One round that takes a piece and completes no text. -/
theorem scan_took (decodes : Decodes At) {f : Frame} {later : List Frame} {ws : W}
    {piece rest rxRaw : List UInt8} (fuel : Nat) (round : Round At m f later piece rest rxRaw)
    (read : WebSocketClient.read m.ws m.rxRaw 4096 = (.ok (report f piece rest), ws))
    (stands : At ws (ahead f rest later)) :
    ∃ ws', At ws' (ahead f rest later) ∧
      scan (fuel + 1) m = scan fuel (m.took f.kind piece ws' rxRaw) := by
  have busy : m.rxRaw.isEmpty = false := by simpa using round.more
  rw [scan, busy, read]
  simp only [Bool.false_eq_true, ↓reduceIte, report, drain_taken ws round.taken,
    Option.bind_eq_bind, Option.bind_some]
  cases kind : f.kind with
  | text =>
    have open_end : (f.final && rest.isEmpty) = false := by
      simpa [kind] using round.goes_on
    exact ⟨ws, stands, by simp [receiveType, open_end, took]⟩
  | ping =>
    obtain ⟨out, ws', written, stands'⟩ := decodes.pongs stands (Nat.le_refl (piece.length + 16))
    exact ⟨ws', stands', by simp [receiveType, pong, written, took]⟩
  | binary => exact ⟨ws, stands, rfl⟩
  | pong => exact ⟨ws, stands, rfl⟩

/-- The round that completes a text. -/
theorem scan_message {f : Frame} {ws : W} {rxRaw : List UInt8} {msg : String} (fuel : Nat)
    (read : WebSocketClient.read m.ws m.rxRaw 4096 = (.ok (report f f.payload []), ws))
    (text : f.kind = .text) (final : f.final = true)
    (taken : m.rxRaw = f.header ++ f.payload ++ rxRaw) (more : m.rxRaw ≠ [])
    (decoded : fromUtf8 (m.msgPartial ++ f.payload) = some msg) :
    scan (fuel + 1) m = some (some msg, ⟨ws, rxRaw, [], m.pongs⟩) := by
  have busy : m.rxRaw.isEmpty = false := by simpa using more
  rw [scan, busy, read]
  simp only [Bool.false_eq_true, ↓reduceIte, report, drain_taken ws taken, Option.bind_eq_bind,
    Option.bind_some, text, receiveType, final, List.isEmpty_nil, Bool.and_self, decoded]

/-- **The loop of `try_next_text`** ends without a panic, and does what `Scanned` says. -/
theorem scan_spec (decodes : Decodes At) {frames : List Frame} {future : List UInt8} {fuel : Nat}
    (stands : At m.ws frames) (split : wire frames = m.rxRaw ++ future)
    (utf8 : ∀ text ∈ messages m.msgPartial frames, (fromUtf8 text).isSome = true)
    (enough : m.rxRaw.length < fuel) :
    ∃ out frames', scan fuel m = some out ∧ Scanned At m frames out frames' := by
  induction fuel generalizing m frames with
  | zero => omega
  | succ fuel ih =>
    by_cases used_up : m.rxRaw = []
    · exact ⟨(none, m), frames, by simp [scan, used_up], .empty stands used_up⟩
    obtain _ | ⟨f, later⟩ := frames
    · simp [used_up] at split
    have start : m.rxRaw <+: wire (f :: later) := ⟨future, split.symm⟩
    have room : 0 < 4096 := by decide
    by_cases short : m.rxRaw.length < f.header.length
    · obtain ⟨ws, read, stands⟩ := decodes.waits stands start used_up room short
      exact ⟨(none, { m with ws }), f :: later, by simp [scan, used_up, read],
        .header stands short⟩
    obtain ⟨ws, piece, rest, cut, some_taken, in_hand, read, stands'⟩ :=
      decodes.yields stands start used_up room (by omega)
    obtain ⟨rxRaw, taken⟩ : f.header ++ piece <+: m.rxRaw :=
      List.prefix_of_prefix_length_le (wire_ahead cut later ▸ List.prefix_append _ _) start
        (by simpa using in_hand)
    by_cases ends : f.kind = .text ∧ f.final = true ∧ rest = []
    · obtain ⟨text, final, rfl⟩ := ends
      rw [List.append_nil] at cut
      subst cut
      rw [messages, if_pos text, if_pos final] at utf8
      obtain ⟨msg, decoded⟩ := Option.isSome_iff_exists.mp (utf8 _ List.mem_cons_self)
      exact ⟨_, later, scan_message fuel read text final taken.symm used_up decoded,
        .message stands' taken.symm text final decoded⟩
    · have round : Round At m f later piece rest rxRaw :=
        ⟨stands, used_up, by rw [read], cut, taken.symm, ends⟩
      obtain ⟨ws', stands', same⟩ := scan_took decodes fuel round read stands'
      have left : rxRaw.length < fuel := by
        have := congrArg List.length taken
        simp only [List.length_append] at this
        omega
      have still : ∀ text ∈ messages (m.took f.kind piece ws' rxRaw).msgPartial
          (ahead f rest later), (fromUtf8 text).isSome = true := by
        rw [messages_cut cut] at utf8
        by_cases text : f.kind = .text
        · rw [if_pos text, if_neg (fun h => ends ⟨text, h⟩)] at utf8
          simpa only [took, if_pos text] using utf8
        · rw [if_neg text] at utf8
          simpa only [took, if_neg text] using utf8
      obtain ⟨out, frames', scanned, steps⟩ :=
        ih (m := m.took f.kind piece ws' rxRaw) stands' (round.split ws' split) still left
      exact ⟨out, frames', same.trans scanned, .piece round steps⟩

end RawMesh

end

/-! ## A decoder -/

/-- A client that knows its handshake's response and the frames of the stream, and
takes of them what the bytes in hand and the buffer hold. -/
structure Cursor where
  response : List UInt8
  frames : List Frame
  deriving DecidableEq, Repr

instance : WebSocketClient Cursor where
  clientAccept c buf :=
    if buf.length < c.response.length then (.error .httpHeaderIncomplete, c)
    else (.ok c.response.length, c)
  read c buf cap :=
    match c.frames with
    | [] => (.error .other, c)
    | f :: later =>
      if buf.length < f.header.length then (.error .readFrameIncomplete, c)
      else
        let n := min (buf.length - f.header.length) cap
        let piece := f.payload.take n
        let rest := f.payload.drop n
        (.ok ⟨f.header.length + piece.length, piece, f.final && rest.isEmpty, receiveType f.kind⟩,
          { c with frames := ahead f rest later })
  write c _ _ payload _ := (.ok payload, c)
  close c _ := (.ok [0x88, 0x82, 0, 0, 0, 0, 0x03, 0xE8], c)

/-- The gateway's answer to the first key that the client of the kernel sends. -/
def switching : List UInt8 :=
  ("HTTP/1.1 101 Switching Protocols\r\nUpgrade: websocket\r\nConnection: Upgrade\r\n" ++
    "Sec-WebSocket-Accept: eYlMjao+mCWdr+cfJ83aW5IcJNg=\r\n\r\n").toList.flatMap
      String.utf8EncodeChar

theorem switching_length : switching.length = 129 := by decide +kernel

theorem switching_ne_nil : switching ≠ [] :=
  List.ne_nil_of_length_pos (by rw [switching_length]; decide)

def Cursor.At (c : Cursor) (frames : List Frame) : Prop := c.frames = frames ∧ Solid frames

theorem Cursor.decodes : Decodes Cursor.At where
  waits := by
    rintro ⟨response, _⟩ f later buf cap ⟨rfl, solid⟩ - - - short
    exact ⟨⟨response, f :: later⟩, by simp [WebSocketClient.read, short], rfl, solid⟩
  yields := by
    rintro ⟨response, _⟩ f later buf cap ⟨rfl, solid⟩ - more room long
    let n := min (buf.length - f.header.length) cap
    have some_room : 0 < f.header.length + n := by
      have := List.length_pos_iff.mpr more
      omega
    have size : (f.payload.take n).length = min n f.payload.length := List.length_take
    refine ⟨⟨response, ahead f (f.payload.drop n) later⟩, f.payload.take n, f.payload.drop n,
      (List.take_append_drop n _).symm, ?_, by omega, ?_, rfl, solid.ahead _⟩
    · have := List.length_pos_iff.mpr (solid f List.mem_cons_self)
      rw [Frame.wire, List.length_append] at this
      omega
    · simp only [WebSocketClient.read, if_neg (Nat.not_lt.mpr long)]
      rfl
  pongs stands _ := ⟨_, _, rfl, stands⟩

end ApexosRv
