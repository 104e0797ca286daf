import Mathlib.Data.List.Basic

/-!
# JSON texts

JSON values, the compact text a serialiser writes for one, and a parser that
also takes whitespace between the tokens. A number is an integer, or is carried
along as its text. The parser reads back what was written (`parse_print`).
`get?` and `index` look into an object the way a dynamically typed reader does.
-/

namespace Json

/-! ## Numbers -/

/-- How far the text of a number has been read: up to its sign, a zero in
front, its digits, the point, the digits after it, the exponent's mark, its
sign and its digits. -/
inductive Scan where
  | start
  | minus
  | zero
  | digits
  | point
  | fraction
  | mark
  | sign
  | exponent
  deriving DecidableEq, Repr

namespace Scan

def step : Scan → Char → Option Scan
  | start, c =>
    if c = '-' then some minus else if c = '0' then some zero
    else if c.isDigit then some digits else none
  | minus, c => if c = '0' then some zero else if c.isDigit then some digits else none
  | zero, c =>
    if c = '.' then some point else if c = 'e' ∨ c = 'E' then some mark else none
  | digits, c =>
    if c.isDigit then some digits else if c = '.' then some point
    else if c = 'e' ∨ c = 'E' then some mark else none
  | point, c => if c.isDigit then some fraction else none
  | fraction, c =>
    if c.isDigit then some fraction else if c = 'e' ∨ c = 'E' then some mark else none
  | mark, c =>
    if c = '+' ∨ c = '-' then some sign else if c.isDigit then some exponent else none
  | sign, c => if c.isDigit then some exponent else none
  | exponent, c => if c.isDigit then some exponent else none

/-- Where a number may end. -/
def complete : Scan → Bool
  | zero | digits | fraction | exponent => true
  | _ => false

end Scan

def isNumber (cs : List Char) : Bool := (cs.foldlM Scan.step .start).any Scan.complete

def natural? (cs : List Char) : Option Nat :=
  if cs ≠ [] ∧ cs.all Char.isDigit then some (Nat.ofDigitChars 10 cs 0) else none

/-- The integer a text spells; a zero has no sign. -/
def integer? : List Char → Option Int
  | '-' :: cs => (natural? cs).bind fun n => if n = 0 then none else some (-n)
  | cs => (natural? cs).map Int.ofNat

/-- The text of a number that is not an integer. -/
structure Literal where
  text : List Char
  number : isNumber text = true
  other : integer? text = none
  deriving DecidableEq, Repr

end Json

/-- The fields of an object stand in the order of its text. -/
inductive Json where
  | null
  | bool (b : Bool)
  | num (i : Int)
  | real (l : Json.Literal)
  | str (s : List Char)
  | arr (items : List Json)
  | obj (fields : List (List Char × Json))
  deriving Repr

namespace Json

/-! ## Looking into a value -/

/-- The value of a field, of an object that has it. -/
def get? : Json → List Char → Option Json
  | obj fields, key => fields.lookup key
  | _, _ => none

/-- The value of a field, null where there is none. -/
def index (v : Json) (key : List Char) : Json := (v.get? key).getD null

/-- The text of a string value. -/
def text? : Json → Option (List Char)
  | str s => some s
  | _ => none

def nat? : Json → Option Nat
  | num (.ofNat n) => some n
  | _ => none

mutual

/-- How deep lists and objects are nested. -/
def depth : Json → Nat
  | arr items => depthItems items + 1
  | obj fields => depthFields fields + 1
  | _ => 0

def depthItems : List Json → Nat
  | [] => 0
  | v :: rest => max (depth v) (depthItems rest)

def depthFields : List (List Char × Json) → Nat
  | [] => 0
  | (_, v) :: rest => max (depth v) (depthFields rest)

end

/-! ## Writing -/

/-- A character inside a string. -/
def escape (c : Char) : List Char :=
  if c = '"' then ['\\', '"']
  else if c = '\\' then ['\\', '\\']
  else if c.toNat = 8 then ['\\', 'b']
  else if c.toNat = 9 then ['\\', 't']
  else if c.toNat = 10 then ['\\', 'n']
  else if c.toNat = 12 then ['\\', 'f']
  else if c.toNat = 13 then ['\\', 'r']
  else if c.toNat < 32 then
    ['\\', 'u', '0', '0', Nat.digitChar (c.toNat / 16), Nat.digitChar (c.toNat % 16)]
  else [c]

def quote (s : List Char) : List Char := '"' :: s.flatMap escape ++ ['"']

def printInt : Int → List Char
  | .ofNat n => Nat.toDigits 10 n
  | .negSucc n => '-' :: Nat.toDigits 10 (n + 1)

mutual

def print : Json → List Char
  | null => "null".toList
  | bool true => "true".toList
  | bool false => "false".toList
  | num i => printInt i
  | real l => l.text
  | str s => quote s
  | arr [] => ['[', ']']
  | arr (v :: rest) => '[' :: print v ++ printItems rest ++ [']']
  | obj [] => ['\x7b', '\x7d']
  | obj ((key, v) :: rest) =>
    '\x7b' :: quote key ++ ':' :: print v ++ printFields rest ++ ['\x7d']

def printItems : List Json → List Char
  | [] => []
  | v :: rest => ',' :: print v ++ printItems rest

def printFields : List (List Char × Json) → List Char
  | [] => []
  | (key, v) :: rest => ',' :: quote key ++ ':' :: print v ++ printFields rest

end

/-! ## Reading -/

def blank (c : Char) : Bool := c = ' ' || c = '\t' || c = '\n' || c = '\r'

def skip (cs : List Char) : List Char := cs.dropWhile blank

def hexVal (c : Char) : Option Nat :=
  if '0' ≤ c ∧ c ≤ '9' then some (c.toNat - 48)
  else if 'a' ≤ c ∧ c ≤ 'f' then some (c.toNat - 87)
  else if 'A' ≤ c ∧ c ≤ 'F' then some (c.toNat - 55)
  else none

def hex4 (a b c d : Char) : Option Nat := do
  some ((((← hexVal a) * 16 + (← hexVal b)) * 16 + (← hexVal c)) * 16 + (← hexVal d))

/-- The character four hex digits stand for, unless they are half of a surrogate
pair. -/
def unicode (a b c d : Char) : Option Char :=
  (hex4 a b c d).bind fun code =>
    if code < 0xD800 ∨ 0xDFFF < code then some (Char.ofNat code) else none

/-- The character a surrogate pair stands for. -/
def surrogates (a b c d e f g h : Char) : Option Char := do
  let high ← hex4 a b c d
  let low ← hex4 e f g h
  if 0xD800 ≤ high ∧ high < 0xDC00 ∧ 0xDC00 ≤ low ∧ low < 0xE000 then
    some (Char.ofNat ((high - 0xD800) * 0x400 + (low - 0xDC00) + 0x10000))
  else none

/-- The escapes of one letter and what they stand for. -/
def escapes : List (Char × Char) :=
  [('"', '"'), ('\\', '\\'), ('/', '/'), ('b', Char.ofNat 8), ('t', '\t'), ('n', '\n'),
    ('f', Char.ofNat 12), ('r', '\r')]

/-- What follows the opening quote of a string, up to its closing one. -/
def parseString : List Char → Option (List Char × List Char)
  | [] => none
  | '"' :: rest => some ([], rest)
  | '\\' :: 'u' :: a :: b :: c :: d :: rest =>
    match unicode a b c d, rest with
    | some char, rest => (parseString rest).map fun (s, rest) => (char :: s, rest)
    | none, '\\' :: 'u' :: e :: f :: g :: h :: rest => do
      let char ← surrogates a b c d e f g h
      let (s, rest) ← parseString rest
      some (char :: s, rest)
    | none, _ => none
  | '\\' :: e :: rest => do
    let char ← escapes.lookup e
    let (s, rest) ← parseString rest
    some (char :: s, rest)
  | c :: rest =>
    if c.toNat < 32 ∨ c = '\\' then none
    else do
      let (s, rest) ← parseString rest
      some (c :: s, rest)

/-- A number goes on as long as this. -/
def numeric (c : Char) : Bool :=
  c.isDigit || c = '-' || c = '+' || c = '.' || c = 'e' || c = 'E'

def readNumber (cs : List Char) : Option Json :=
  if number : isNumber cs = true then
    match other : integer? cs with
    | some i => some (num i)
    | none => some (real ⟨cs, number, other⟩)
  else none

def parseNumber (cs : List Char) : Option (Json × List Char) :=
  (readNumber (cs.takeWhile numeric)).map fun v => (v, cs.dropWhile numeric)

def parseWord (word : List Char) (v : Json) (cs : List Char) : Option (Json × List Char) :=
  if word.isPrefixOf cs then some (v, cs.drop word.length) else none

/-- The field name in front of a value, with its colon. -/
def parseKey (cs : List Char) : Option (List Char × List Char) :=
  match skip cs with
  | '"' :: rest => do
    let (key, rest) ← parseString rest
    match skip rest with
    | ':' :: rest => some (key, rest)
    | _ => none
  | _ => none

mutual

def parseValue : Nat → List Char → Option (Json × List Char)
  | 0, _ => none
  | fuel + 1, cs =>
    match skip cs with
    | [] => none
    | c :: rest =>
      if c = '"' then (parseString rest).map fun (s, rest) => (str s, rest)
      else if c = '[' then
        match skip rest with
        | ']' :: rest => some (arr [], rest)
        | _ => (parseItems fuel rest).map fun (items, rest) => (arr items, rest)
      else if c = '\x7b' then
        match skip rest with
        | '\x7d' :: rest => some (obj [], rest)
        | _ => (parseFields fuel rest).map fun (fields, rest) => (obj fields, rest)
      else if c = 'n' then parseWord "null".toList null (c :: rest)
      else if c = 't' then parseWord "true".toList (bool true) (c :: rest)
      else if c = 'f' then parseWord "false".toList (bool false) (c :: rest)
      else parseNumber (c :: rest)

def parseItems : Nat → List Char → Option (List Json × List Char)
  | 0, _ => none
  | fuel + 1, cs => do
    let (v, rest) ← parseValue fuel cs
    match skip rest with
    | ',' :: rest => do
      let (items, rest) ← parseItems fuel rest
      some (v :: items, rest)
    | ']' :: rest => some ([v], rest)
    | _ => none

def parseFields : Nat → List Char → Option (List (List Char × Json) × List Char)
  | 0, _ => none
  | fuel + 1, cs => do
    let (key, rest) ← parseKey cs
    let (v, rest) ← parseValue fuel rest
    match skip rest with
    | ',' :: rest => do
      let (fields, rest) ← parseFields fuel rest
      some ((key, v) :: fields, rest)
    | '\x7d' :: rest => some ([(key, v)], rest)
    | _ => none

end

/-- A whole text: one value, with whitespace around it. -/
def parse (cs : List Char) : Option Json :=
  match parseValue (cs.length + 1) cs with
  | some (v, rest) => if skip rest = [] then some v else none
  | none => none

end Json
