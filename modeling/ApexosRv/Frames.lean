import Mathlib.Data.List.Basic

/-!
# Frames on a byte stream

A stream of frames, each a header and a payload, that is received in parts.
`within` are the frames that lie in the first bytes of a stream, `messages` the
text messages they make; a reader that has taken a piece of a frame has the
rest of it still `ahead`. What the first bytes of a stream hold is what a reader
has taken of it and what the bytes in hand hold of the rest (`messages_ahead`).
-/

namespace Frames

/-- What a frame's payload is part of. A continuation frame counts as what the
first fragment was. -/
inductive Kind where
  | text
  | binary
  | ping
  | pong
  deriving DecidableEq, Repr

/-- A frame as it stands on the wire. What is left of a frame whose first bytes
have been read is a frame without a header. -/
structure Frame where
  kind : Kind
  final : Bool
  header : List UInt8
  payload : List UInt8
  deriving DecidableEq, Repr

def Frame.wire (f : Frame) : List UInt8 := f.header ++ f.payload

def wire (frames : List Frame) : List UInt8 := frames.flatMap Frame.wire

/-- The text messages that frames complete, after the bytes of an unfinished one. -/
def messages (part : List UInt8) : List Frame → List (List UInt8)
  | [] => []
  | f :: later =>
    if f.kind = .text then
      if f.final then (part ++ f.payload) :: messages [] later
      else messages (part ++ f.payload) later
    else messages part later

/-- The payloads of the pings. -/
def pings : List Frame → List (List UInt8)
  | [] => []
  | f :: later => if f.kind = .ping then f.payload :: pings later else pings later

/-- The frames that lie within the first `n` bytes. -/
def within (n : Nat) : List Frame → List Frame
  | [] => []
  | f :: later => if f.wire.length ≤ n then f :: within (n - f.wire.length) later else []

/-- What is ahead of a reader that has `rest` of a frame's payload left. -/
def ahead (f : Frame) (rest : List UInt8) (later : List Frame) : List Frame :=
  if rest = [] then later else { f with header := [], payload := rest } :: later

@[simp] theorem wire_nil : wire [] = [] := rfl

@[simp] theorem wire_cons (f : Frame) (later : List Frame) :
    wire (f :: later) = f.header ++ (f.payload ++ wire later) := by
  rw [wire, List.flatMap_cons, Frame.wire, List.append_assoc]
  rfl

theorem wire_length_cons (f : Frame) (later : List Frame) :
    (wire (f :: later)).length = f.wire.length + (wire later).length := by
  rw [wire, List.flatMap_cons, List.length_append, wire]

theorem wire_ahead {f : Frame} {piece rest : List UInt8} (cut : f.payload = piece ++ rest)
    (later : List Frame) : wire (f :: later) = f.header ++ piece ++ wire (ahead f rest later) := by
  rw [wire_cons, cut, ahead]
  split
  · rename_i none
    simp [none]
  · simp

theorem within_start (n : Nat) (frames : List Frame) : within n frames <+: frames := by
  induction frames generalizing n with
  | nil => exact List.prefix_rfl
  | cons f later ih =>
    rw [within]
    split
    · exact List.cons_prefix_cons.mpr ⟨rfl, ih _⟩
    · exact List.nil_prefix

/-- Frames take up room. -/
def Solid (frames : List Frame) : Prop := ∀ f ∈ frames, f.wire ≠ []

theorem Solid.ahead {f : Frame} {later : List Frame} (solid : Solid (f :: later))
    (rest : List UInt8) : Solid (ahead f rest later) := by
  intro g here
  unfold Frames.ahead at here
  split at here
  · exact solid g (List.mem_cons_of_mem _ here)
  · rename_i some
    rcases List.mem_cons.mp here with rfl | here
    · simpa [Frame.wire] using some
    · exact solid g (List.mem_cons_of_mem _ here)

/-- Nothing lies within less than the first frame. -/
theorem within_short {n : Nat} {f : Frame} (short : n < f.wire.length) (later : List Frame) :
    within n (f :: later) = [] := by
  rw [within, if_neg (by omega)]

theorem within_zero {frames : List Frame} (solid : Solid frames) : within 0 frames = [] := by
  cases frames with
  | nil => rfl
  | cons f later =>
    exact within_short (List.length_pos_iff.mpr (solid f List.mem_cons_self)) later

theorem length_of_cut {f : Frame} {piece rest : List UInt8} (cut : f.payload = piece ++ rest) :
    f.wire.length = f.header.length + piece.length + rest.length := by
  rw [Frame.wire, cut, List.length_append, List.length_append, Nat.add_assoc]

/-- A piece taken and the bytes after it. -/
theorem within_ahead {f : Frame} {piece rest : List UInt8} (cut : f.payload = piece ++ rest)
    (later : List Frame) (n : Nat) :
    within (f.header.length + piece.length + n) (f :: later) =
      if rest.length ≤ n then f :: within (n - rest.length) later else [] := by
  have size := length_of_cut cut
  rw [within, size]
  by_cases fits : rest.length ≤ n
  · rw [if_pos (by omega), if_pos fits]
    congr 2
    omega
  · rw [if_neg (by omega), if_neg fits]

theorem within_rest {rest : List UInt8} {n : Nat} (fits : rest.length ≤ n) (f : Frame)
    (later : List Frame) :
    within n (ahead f rest later) = ahead f rest (within (n - rest.length) later) := by
  rw [ahead, ahead]
  split
  · rename_i done
    rw [done, List.length_nil, Nat.sub_zero]
  · rw [within]
    exact if_pos fits

theorem within_all {n : Nat} {frames : List Frame} (long : (wire frames).length ≤ n) :
    within n frames = frames := by
  induction frames generalizing n with
  | nil => rfl
  | cons f later ih =>
    rw [wire_length_cons] at long
    rw [within, if_pos (by omega), ih (by omega)]

/-- **Messages, seen from inside a frame.** A piece of a text either completes
the message at hand or is added to it; another piece leaves it alone. -/
theorem messages_cut {f : Frame} {piece rest : List UInt8} (cut : f.payload = piece ++ rest)
    (later : List Frame) (part : List UInt8) :
    messages part (f :: later) =
      if f.kind = .text then
        if f.final ∧ rest = [] then (part ++ piece) :: messages [] (ahead f rest later)
        else messages (part ++ piece) (ahead f rest later)
      else messages part (ahead f rest later) := by
  by_cases done : rest = []
  · subst done
    rw [List.append_nil] at cut
    simp only [messages, cut, ahead, ↓reduceIte, and_true]
  · by_cases text : f.kind = .text <;>
      simp only [messages, cut, ahead, text, done, ↓reduceIte, and_false, List.append_assoc]

/-- The same of the frames that lie within the bytes in hand. -/
theorem messages_ahead {f : Frame} {piece rest : List UInt8} (cut : f.payload = piece ++ rest)
    (later : List Frame) (part : List UInt8) (n : Nat) :
    messages part (within (f.header.length + piece.length + n) (f :: later)) =
      if f.kind = .text then
        if f.final ∧ rest = [] then
          (part ++ piece) :: messages [] (within n (ahead f rest later))
        else messages (part ++ piece) (within n (ahead f rest later))
      else messages part (within n (ahead f rest later)) := by
  rw [within_ahead cut]
  by_cases fits : rest.length ≤ n
  · rw [if_pos fits, within_rest fits, messages_cut cut]
  · have some : rest ≠ [] := by
      rintro rfl
      exact fits (Nat.zero_le n)
    rw [if_neg fits, ahead, if_neg some, within_short (by simpa [Frame.wire] using fits)]
    simp only [messages, some, and_false, ↓reduceIte, ite_self]

/-- A piece of another frame leaves the pings alone. -/
theorem pings_ahead {f : Frame} (other : f.kind ≠ .ping) (rest : List UInt8)
    (later : List Frame) : pings (ahead f rest later) = pings (f :: later) := by
  rw [ahead, pings, if_neg other]
  split
  · rfl
  · rw [pings, if_neg other]

theorem messages_start {xs ys : List Frame} (start : xs <+: ys) (part : List UInt8) :
    messages part xs <+: messages part ys := by
  induction xs generalizing ys part with
  | nil => exact List.nil_prefix
  | cons f later ih =>
    obtain ⟨more, rfl⟩ := start
    rw [List.cons_append, messages, messages]
    have deeper := fun part => ih (List.prefix_append later more) part
    split
    · split
      · exact List.cons_prefix_cons.mpr ⟨rfl, deeper []⟩
      · exact deeper _
    · exact deeper _

theorem messages_length (part part' : List UInt8) (frames : List Frame) :
    (messages part frames).length = (messages part' frames).length := by
  induction frames generalizing part part' with
  | nil => rfl
  | cons f later ih =>
    rw [messages, messages]
    split
    · split
      · rw [List.length_cons, List.length_cons]
      · exact ih _ _
    · exact ih _ _

/-! ## Pings that are split -/

/-- A reader that has the first `n` bytes in hand and goes on after `k` texts comes to
a ping that it cannot take whole: the end of it is not in hand, or it is over the limit. -/
def Splits (limit k n : Nat) (frames : List Frame) : Prop :=
  ∃ before f after, frames = before ++ f :: after ∧ f.kind = .ping ∧
    (messages [] before).length ≤ k ∧ (wire before).length + f.header.length ≤ n ∧
    (n < (wire before).length + f.wire.length ∨ limit < f.payload.length)

variable {limit k n : Nat} {f : Frame} {later : List Frame} {piece rest : List UInt8}

/-- The first frame is the ping, or it is whole and the ping is after it. -/
theorem splits_cons : Splits limit k n (f :: later) ↔
    (f.kind = .ping ∧ f.header.length ≤ n ∧ (n < f.wire.length ∨ limit < f.payload.length)) ∨
    (f.wire.length ≤ n ∧
      if f.kind = .text ∧ f.final = true then
        0 < k ∧ Splits limit (k - 1) (n - f.wire.length) later
      else Splits limit k (n - f.wire.length) later) := by
  have texts (before : List Frame) : (messages [] (f :: before)).length =
      (messages [] before).length + if f.kind = .text ∧ f.final = true then 1 else 0 := by
    by_cases text : f.kind = .text <;> by_cases final : f.final = true <;>
      simp [messages, text, final, messages_length f.payload []]
  constructor
  · rintro ⟨before, g, after, cut, ping, few, header, split⟩
    obtain _ | ⟨f', before⟩ := before
    · obtain ⟨rfl, rfl⟩ := List.cons.inj cut
      simp only [wire_nil, List.length_nil, Nat.zero_add] at header split
      exact .inl ⟨ping, header, split⟩
    · obtain ⟨rfl, rfl⟩ := List.cons.inj cut
      rw [texts] at few
      rw [wire_length_cons] at header split
      refine .inr ⟨by omega, ?_⟩
      split_ifs at few ⊢
      · exact ⟨by omega, before, g, after, rfl, ping, by omega, by omega, by omega⟩
      · exact ⟨before, g, after, rfl, ping, few, by omega, by omega⟩
  · rintro (⟨ping, header, split⟩ | ⟨inside, split⟩)
    · exact ⟨[], f, later, rfl, ping, Nat.zero_le k, by simpa using header, by simpa using split⟩
    · split_ifs at split with text
      · obtain ⟨goes_on, before, g, after, rfl, ping, few, header, split⟩ := split
        refine ⟨f :: before, g, after, rfl, ping, ?_, ?_, ?_⟩
        · rw [texts, if_pos text]
          omega
        all_goals
          rw [wire_length_cons]
          omega
      · obtain ⟨before, g, after, rfl, ping, few, header, split⟩ := split
        refine ⟨f :: before, g, after, rfl, ping, ?_, ?_, ?_⟩
        · rw [texts, if_neg text]
          omega
        all_goals
          rw [wire_length_cons]
          omega

/-- **Splits, seen from inside a frame.** Where a piece completes no text and, of a
ping, is the whole payload, the pings still ahead decide. -/
theorem splits_ahead (cut : f.payload = piece ++ rest)
    (goes_on : ¬ (f.kind = .text ∧ f.final = true ∧ rest = []))
    (whole : f.kind = .ping → rest = [] ∧ f.payload.length ≤ limit) :
    Splits limit k (f.header.length + piece.length + n) (f :: later) ↔
      Splits limit k n (ahead f rest later) := by
  have size := length_of_cut cut
  rw [splits_cons, ahead]
  by_cases done : rest = []
  · subst done
    have not_text : ¬ (f.kind = .text ∧ f.final = true) := fun h => goes_on ⟨h.1, h.2, rfl⟩
    rw [if_neg not_text, if_pos rfl, size]
    simp only [List.length_nil, Nat.add_zero, Nat.add_sub_cancel_left]
    constructor
    · rintro (⟨ping, -, split⟩ | ⟨-, split⟩)
      · have := (whole ping).2
        omega
      · exact split
    · exact fun split => .inr ⟨by omega, split⟩
  · have no_ping : f.kind ≠ .ping := fun ping => done (whole ping).1
    rw [if_neg done, splits_cons, size]
    simp only [no_ping, false_and, false_or, Frame.wire, List.nil_append]
    refine and_congr (by omega) ?_
    rw [show f.header.length + piece.length + n - (f.header.length + piece.length + rest.length) =
      n - rest.length by omega]

/-- A reader that goes on after no text comes to no ping after one. -/
theorem not_splits_text (text : f.kind = .text) (final : f.final = true) :
    ¬ Splits limit 0 n (f :: later) := by
  rw [splits_cons, if_pos ⟨text, final⟩]
  simp [text]

/-- A text taken counts for one. -/
theorem splits_text (text : f.kind = .text) (final : f.final = true) :
    Splits limit (k + 1) (f.wire.length + n) (f :: later) ↔ Splits limit k n later := by
  rw [splits_cons, if_pos ⟨text, final⟩, Nat.add_sub_cancel_left, Nat.add_sub_cancel]
  simp [text]

instance decidableSplits (limit k n : Nat) : (frames : List Frame) →
    Decidable (Splits limit k n frames)
  | [] => isFalse (by
      rintro ⟨before, f, after, cut, -⟩
      cases before <;> cases cut)
  | f :: later =>
    have := decidableSplits limit (k - 1) (n - f.wire.length) later
    have := decidableSplits limit k (n - f.wire.length) later
    decidable_of_iff _ splits_cons.symm

end Frames
