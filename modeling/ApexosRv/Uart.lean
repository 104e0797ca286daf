import ApexosRv.RustStr
import ApexosRv.Utf8
import ApexosRv.Wire

/-!
# Events over the UART

The kernel narrates over a UART, one line for each `println!` (`kernel/src/uart.rs`,
`emit` in `kernel/src/agent.rs`); the cross-repo test reads the events back from
the captured bytes (`xtest/tests/cross_repo.rs`). `frames_println` says that it
reads what was emitted, however the formatter cut the lines and whatever was
narrated between them.
-/

namespace ApexosRv

open RustStr

/-- What the transmitter was handed. -/
abbrev Uart := List UInt8

namespace Uart

def putb (uart : Uart) (b : UInt8) : Uart := uart ++ [b]

/-- `Writer::write_str`: a newline goes out behind a carriage return. -/
def writeStr (uart : Uart) (s : String) : Uart :=
  (bytes s).foldl (fun uart b => (if b = 10 then uart.putb 13 else uart).putb b) uart

end Uart

/-- `serde_json` on the protocol's events, all payloads included. -/
class EventJson (E : Type) where
  toString : E → String
  fromStr : String → Option E

/-- What is relied on of `serde_json`: an event is one object, its strings are
escaped, and it is read back. -/
structure EventJson.Lossless (E : Type) [EventJson E] : Prop where
  opens (event : E) : (EventJson.toString event).toList.head? = some '\x7b'
  closes (event : E) : (EventJson.toString event).toList.getLast? = some '\x7d'
  escaped (event : E) : ∀ c ∈ (EventJson.toString event).toList, 0x20 ≤ c.toNat
  reads (event : E) : EventJson.fromStr (EventJson.toString event) = some event

/-- What one `println!` prints: an event through `emit`, or a line that could
not be taken for one. -/
inductive Print (E : Type) where
  | emit (event : E)
  | narrate (line : String) (single : '\n' ∉ line.toList)
      (other : line.toList.head? ≠ some '\x7b')

namespace Print

variable {E : Type} [EventJson E]

def text : Print E → String
  | .emit event => EventJson.toString event
  | .narrate line _ _ => line

theorem text_emit (event : E) : (emit event).text = EventJson.toString event := rfl

theorem text_narrate (line : String) (single : '\n' ∉ line.toList)
    (other : line.toList.head? ≠ some '\x7b') :
    (narrate line single other : Print E).text = line := rfl

def event? : Print E → Option E
  | .emit event => some event
  | .narrate _ _ _ => none

end Print

/-- One `println!`, as the pieces the formatter hands to `write_str`. -/
structure Println (E : Type) [EventJson E] where
  print : Print E
  pieces : List String
  whole : String.join pieces = print.text ++ "\n"

variable {E : Type} [EventJson E]

def Uart.println (uart : Uart) (call : Println E) : Uart := call.pieces.foldl writeStr uart

/-- `frames`: the events read back from a capture, `none` where it panics. -/
def frames (capture : List UInt8) : Option (List E) := do
  let log ← fromUtf8 capture
  let kept := ((lines log.toList).map trimEnd).filter (·.head? == some '\x7b')
  kept.mapM fun l => EventJson.fromStr (String.ofList l)

/-! ## What goes out -/

/-- A text with a carriage return before each newline. -/
def crlf (cs : List Char) : List Char := cs.flatMap fun c => if c = '\n' then ['\r', '\n'] else [c]

theorem crlf_of_single {cs : List Char} (single : '\n' ∉ cs) : crlf cs = cs := by
  induction cs with
  | nil => rfl
  | cons c rest ih =>
    rw [List.mem_cons, not_or] at single
    rw [crlf, List.flatMap_cons, if_neg (Ne.symm single.1), ← crlf, ih single.2]
    rfl

theorem writeStr_eq (uart : Uart) (s : String) :
    uart.writeStr s = uart ++ bytes (String.ofList (crlf s.toList)) := by
  have expand : ∀ (uart : Uart) (bs : List UInt8),
      bs.foldl (fun uart b => (if b = 10 then uart.putb 13 else uart).putb b) uart =
        uart ++ bs.flatMap fun b => if b = 10 then [13, 10] else [b] := by
    intro uart bs
    induction bs generalizing uart with
    | nil => simp
    | cons b rest ih =>
      rw [List.foldl_cons, ih]
      by_cases newline : b = 10 <;> simp [newline, Uart.putb]
  rw [Uart.writeStr, expand, bytes_ofList, bytes_eq, crlf, List.flatMap_assoc, List.flatMap_assoc]
  congr 1
  refine List.flatMap_congr fun c _ => ?_
  by_cases newline : c = '\n'
  · subst newline
    decide
  · have clean := newline_not_mem_utf8EncodeChar newline
    rw [if_neg newline, List.flatMap_singleton]
    have same : ∀ b ∈ String.utf8EncodeChar c, (if b = 10 then [13, 10] else [b]) = [b] := by
      intro b here
      refine if_neg ?_
      rintro rfl
      exact clean here
    rw [List.flatMap_congr same, List.flatMap_singleton']

theorem writeStrs_eq (uart : Uart) (pieces : List String) :
    pieces.foldl Uart.writeStr uart =
      uart ++ bytes (String.ofList (crlf (String.join pieces).toList)) := by
  induction pieces generalizing uart with
  | nil => simp [crlf]
  | cons piece rest ih =>
    rw [List.foldl_cons, ih, writeStr_eq, String.join_cons, String.toList_append, crlf, crlf, crlf,
      List.flatMap_append, bytes_ofList_append, List.append_assoc]

theorem Print.text_single (lossless : EventJson.Lossless E) (print : Print E) :
    '\n' ∉ print.text.toList := by
  cases print with
  | emit event =>
    intro newline
    have := lossless.escaped event '\n' newline
    exact absurd this (by decide)
  | narrate line single other => exact single

/-- However it is cut, a line goes out whole, with its carriage return. -/
theorem println_eq (lossless : EventJson.Lossless E) (uart : Uart) (call : Println E) :
    uart.println call = uart ++ bytes (String.ofList (call.print.text.toList ++ ['\r', '\n'])) := by
  have newline : "\n".toList = ['\n'] := by simp
  have ended : crlf ['\n'] = ['\r', '\n'] := by decide
  have text := crlf_of_single (call.print.text_single lossless)
  rw [Uart.println, writeStrs_eq, call.whole, String.toList_append, newline, crlf,
    List.flatMap_append, ← crlf, ← crlf, text, ended]

/-- The characters of a capture. -/
def captured (calls : List (Println E)) : List Char :=
  calls.flatMap fun call => call.print.text.toList ++ ['\r', '\n']

theorem captured_cons (call : Println E) (rest : List (Println E)) :
    captured (call :: rest) = call.print.text.toList ++ ['\r', '\n'] ++ captured rest :=
  List.flatMap_cons

theorem printlns_eq (lossless : EventJson.Lossless E) (uart : Uart) (calls : List (Println E)) :
    calls.foldl Uart.println uart = uart ++ bytes (String.ofList (captured calls)) := by
  induction calls generalizing uart with
  | nil => simp [captured]
  | cons call rest ih =>
    rw [List.foldl_cons, ih, println_eq lossless, captured_cons, List.append_assoc,
      ← bytes_ofList_append]

/-! ## What is read back -/

/-- Each call is one line of the capture. -/
theorem lines_captured (lossless : EventJson.Lossless E) (calls : List (Println E)) :
    lines (captured calls) = calls.map fun call => call.print.text.toList := by
  induction calls with
  | nil => exact lines_nil
  | cons call rest ih =>
    have single : '\n' ∉ call.print.text.toList ++ ['\r'] := by
      simpa using call.print.text_single lossless
    have line : captured (call :: rest) =
        (call.print.text.toList ++ ['\r']) ++ '\n' :: captured rest := by
      simp [captured_cons]
    rw [line, lines_newline, wholeLines_single single, ih, stripCr, if_pos (by simp),
      List.dropLast_concat]
    rfl

theorem trimEnd_emit (lossless : EventJson.Lossless E) (event : E) :
    trimEnd (EventJson.toString event).toList = (EventJson.toString event).toList := by
  rw [trimEnd, List.rdropWhile_eq_self_iff]
  intro some
  have last := lossless.closes event
  rw [List.getLast?_eq_some_getLast some, Option.some.injEq] at last
  rw [last]
  decide

theorem head_trimEnd {line : List Char} {c : Char} (starts : (trimEnd line).head? = some c) :
    line.head? = some c := by
  obtain ⟨rest, kept⟩ := List.head?_eq_some_iff.mp starts
  obtain ⟨gone, whole⟩ : trimEnd line <+: line := List.rdropWhile_prefix _ _
  rw [← whole, kept]
  rfl

theorem read_lines (lossless : EventJson.Lossless E) (prints : List (Print E)) :
    (((prints.map fun print => print.text.toList).map trimEnd).filter
        (·.head? == some '\x7b')).mapM (fun l => EventJson.fromStr (String.ofList l)) =
      some (prints.filterMap Print.event?) := by
  induction prints with
  | nil => rfl
  | cons print rest ih =>
    cases print with
    | emit event =>
      have opens := lossless.opens event
      rw [List.map_cons, List.map_cons, Print.text_emit, trimEnd_emit lossless]
      rw [List.filter_cons_of_pos (by simp [opens]), List.mapM_cons, String.ofList_toList,
        lossless.reads, ih]
      rfl
    | narrate line single other =>
      have dropped : ((trimEnd line.toList).head? == some '\x7b') = false := by
        rw [beq_eq_false_iff_ne]
        exact fun starts => other (head_trimEnd starts)
      rw [List.map_cons, List.map_cons, Print.text_narrate]
      rw [List.filter_cons_of_neg (by simp [dropped]), ih]
      rfl

/-- **The UART is a lossless event transport.** -/
theorem frames_println (lossless : EventJson.Lossless E) (calls : List (Println E)) :
    frames (calls.foldl Uart.println []) =
      some (calls.filterMap fun call => call.print.event?) := by
  have read := read_lines lossless (calls.map Println.print)
  rw [List.map_map, List.map_map, List.filterMap_map] at read
  rw [printlns_eq lossless, List.nil_append, frames, fromUtf8_bytes]
  simp only [Option.bind_eq_bind, Option.bind_some, String.toList_ofList,
    lines_captured lossless, List.map_map]
  exact read

/-! ## A capture -/

/-- Two events: a text with a newline in it, and the end of a goal. -/
inductive Told where
  | said
  | ended
  deriving DecidableEq

def Told.event : Told → Event
  | said => .agentText ⟨42⟩ "two\nlines "
  | ended => .goalStateChanged ⟨1⟩ "survey" .done 3 8 "" false

/-- `serde_json` on the two events. -/
@[reducible] def toldJson : EventJson Told where
  toString told := Wire.eventText told.event
  fromStr text := [Told.said, .ended].find? fun told => Wire.eventText told.event == text

section
attribute [local instance] toldJson

theorem told_lossless : EventJson.Lossless Told where
  opens told := by cases told <;> decide +kernel
  closes told := by cases told <;> decide +kernel
  escaped told := by
    have clean : (Wire.eventText told.event).toList.all (0x20 ≤ ·.toNat) = true := by
      cases told <;> decide +kernel
    exact fun c here => of_decide_eq_true (List.all_eq_true.mp clean c here)
  reads told := by cases told <;> decide +kernel

/-- The two events with a line narrated between them, each cut at will. -/
def toldCalls : List (Println Told) :=
  [{ print := .emit .said
     pieces := [Wire.eventText Told.said.event, "\n"]
     whole := by simp [String.join]; rfl },
   { print := .narrate "agent-core: done " (by decide) (by decide)
     pieces := ["agent-core: ", "done \n"]
     whole := by decide },
   { print := .emit .ended
     pieces := [Wire.eventText Told.ended.event ++ "\n"]
     whole := by simp [String.join]; rfl }]

theorem told_read_back : frames (toldCalls.foldl Uart.println []) = some [Told.said, .ended] :=
  frames_println told_lossless toldCalls

end

end ApexosRv
