import ApexosRv.ContractText
import ApexosRv.Narrative

/-!
# The contract over the UART

What `frames` of `xtest/tests/cross_repo.rs` makes of a capture in which the kernel
emitted events of the contract. As long as each event is written as one line, what
is read back is left to its parser (`frames_eq`); so a capture is read back exactly
if each event in it is (`events_over_uart`).
-/

namespace ApexosRv

/-! ## Texts as lines -/

/-- An object on one line. -/
structure Framed (text : String) : Prop where
  opens : text.toList.head? = some '\x7b'
  closes : text.toList.getLast? = some '\x7d'
  escaped : ∀ c ∈ text.toList, 0x20 ≤ c.toNat

/-- Texts as they are. -/
@[reducible] def plainTexts : EventJson String where
  toString := id
  fromStr := some

theorem plain_lossless : @EventJson.LosslessOn String plainTexts Framed :=
  let _ := plainTexts
  { opens := fun framed => framed.opens
    closes := fun framed => framed.closes
    escaped := fun framed => framed.escaped
    reads := fun _ => rfl }

section
variable {E : Type} [EventJson E]

/-- What is printed, as a text. -/
def Print.plain : Print E → @Print String
  | .emit event => .emit (EventJson.toString event)
  | .narrate line single other => .narrate line single other

theorem Print.text_plain (print : Print E) :
    @Print.text String plainTexts print.plain = print.text := by
  cases print <;> rfl

theorem Print.event?_plain (print : Print E) :
    print.plain.event? = print.event?.map EventJson.toString := by
  cases print <;> rfl

def Println.plain (call : Println E) : @Println String plainTexts :=
  let _ := plainTexts
  { print := call.print.plain
    pieces := call.pieces
    whole := by rw [call.whole, Print.text_plain] }

/-- A capture is cut into texts, and each is parsed by itself. -/
theorem frames_plain (capture : List UInt8) :
    (frames capture : Option (List E)) =
      (@frames String plainTexts capture).bind (·.mapM EventJson.fromStr) := by
  unfold frames
  cases RustStr.fromUtf8 capture with
  | none => rfl
  | some log =>
    have cut : ∀ kept : List (List Char),
        kept.mapM (fun l => some (String.ofList l)) = some (kept.map String.ofList) :=
      fun _ => List.mapM_pure
    simp only [Option.bind_eq_bind, Option.bind_some]
    generalize List.filter _ _ = kept
    show kept.mapM (fun l => EventJson.fromStr (String.ofList l)) =
      (kept.mapM fun l => some (String.ofList l)).bind (·.mapM EventJson.fromStr)
    rw [cut, Option.bind_some, List.mapM_map]
    rfl

/-- **What is read back is left to the parser**, as long as events are framed. -/
theorem frames_eq (calls : List (Println E))
    (framed : ∀ call ∈ calls, ∀ event, call.print.event? = some event →
      Framed (EventJson.toString event)) :
    (frames (calls.foldl Uart.println []) : Option (List E)) =
      (calls.filterMap fun call => call.print.event?).mapM fun event =>
        EventJson.fromStr (EventJson.toString event) := by
  let _ := plainTexts
  have same : calls.foldl Uart.println [] = (calls.map Println.plain).foldl Uart.println [] := by
    rw [List.foldl_map]
    rfl
  have told : ((calls.map Println.plain).filterMap fun call => call.print.event?) =
      (calls.filterMap fun call => call.print.event?).map EventJson.toString := by
    rw [List.filterMap_map, List.map_filterMap]
    exact List.filterMap_congr fun call _ => call.print.event?_plain
  have within : ∀ call ∈ calls.map Println.plain, ∀ text, call.print.event? = some text →
      Framed text := by
    intro call here text printed
    obtain ⟨call, known, rfl⟩ := List.mem_map.mp here
    obtain ⟨event, emitted, rfl⟩ := Option.map_eq_some_iff.mp
      (call.print.event?_plain.symm.trans printed)
    exact framed call known event emitted
  have read := read_on plain_lossless (calls.map Println.plain) within
  rw [frames_plain, same, read, told, Option.bind_some, List.mapM_map]
  rfl

end

/-! ## Events of the contract -/

namespace Contract

open Serde

section
variable [Floats] [Crates]

/-- `serde_json` on the contract. -/
@[reducible] def json : EventJson Event where
  toString := Event.toText
  fromStr := Event.fromText

attribute [local instance] json

variable [Documented]

theorem framed_toText (e : Event) : Framed e.toText :=
  ⟨Documented.opens, Documented.closes, Documented.escaped⟩

/-- **A capture is read back exactly if each of its events is**: as the events that
were emitted, in order, however the formatter cut the lines and whatever was narrated
between them. A single event with an unbounded float, or one that is nested too deep,
and nothing is read. -/
theorem events_over_uart (calls : List (Println Event)) :
    (frames (calls.foldl Uart.println []) =
        some (calls.filterMap fun call => call.print.event?) ↔
      ∀ e ∈ calls.filterMap fun call => call.print.event?, e.Exact ∧ e.depth < recursionLimit) ∧
    ((∃ e ∈ calls.filterMap fun call => call.print.event?,
        e.Unbounded ∨ recursionLimit ≤ e.depth) →
      (frames (calls.foldl Uart.println []) : Option (List Event)) = none) := by
  have read := frames_eq calls fun _ _ e _ => framed_toText e
  rw [read]
  constructor
  · rw [mapM_self_iff]
    exact forall₂_congr fun e _ => e.read_back_iff
  · rintro ⟨e, here, bad⟩
    exact mapM_eq_none here (Event.unread_of_bad bad)

end

section
attribute [local instance] Floats.asText textCrates text_documented json

theorem join_single (s : String) : String.join [s] = s := by simp [String.join]

/-- Two events with a line narrated between them, each cut at will. -/
def chatter : List (Println Event) :=
  [.atOnce (.emit recalled),
   { print := .narrate "loop: goal reached Done in 4 polls" (by decide) (by decide)
     pieces := ["loop: goal reached Done in ", "4", " polls\n"]
     whole := by decide },
   { print := .emit (.turnComplete ⟨1⟩)
     pieces := [(Event.turnComplete ⟨1⟩).toText ++ "\n"]
     whole := join_single _ }]

theorem chatter_read : frames (chatter.foldl Uart.println []) =
    some [recalled, .turnComplete ⟨1⟩] := by
  apply (events_over_uart chatter).1.mpr
  intro e here
  rcases List.mem_pair.mp here with rfl | rfl
  · exact recalled_exact
  · constructor
    · constructor <;> simp [Event.singles, Event.doubles, Event.values]
    · decide +kernel

end

end Contract

end ApexosRv
