import Mathlib.Algebra.Ring.Int.Defs
import Mathlib.Algebra.Ring.Nat
import ApexosRv.Json

/-!
# What is relied on of serde

What a type declares to `serde_derive`: the fields of a struct with their types
and defaults (`Fields`), and the variants of an enum with its tag (`Variants`).
What `serde`, its derives and `serde_json` make of it is a parameter (`Crates`),
and `Documented` is what their documentation says: fields are found by their
names, a field that stands twice is an error, an absent one is its default, a
variant is named by its tag, and a text holds what was written into it, unless it
is nested too deep or has a number out of range.
-/

/-- The floats of a build: the text each is written as, none if it is not finite,
and the float that a number is read as, none if it is too large. -/
class Floats where
  Double : Type
  Single : Type
  writeDouble : Double → Option Json.Literal
  readDouble : Json → Option Double
  writeSingle : Single → Option Json.Literal
  readSingle : Json → Option Single
  finite {v : Json} {x : Double} : readDouble v = some x → (writeDouble x).isSome = true
  range {x : Single} {l : Json.Literal} : writeSingle x = some l →
    (readDouble (.real l)).isSome = true

/-- Floats that are carried along as their texts. -/
@[reducible] def Floats.asText : Floats where
  Double := Json.Literal
  Single := Json.Literal
  writeDouble := some
  readDouble
    | .real l => some l
    | _ => none
  writeSingle := some
  readSingle
    | .real l => some l
    | _ => none
  finite _ := rfl
  range _ := rfl

namespace Serde

/-! ## Numbers and depth -/

/-- The integers that are not read as floats. -/
def small (i : Int) : Bool := -2 ^ 63 ≤ i ∧ i < 2 ^ 64

/-- How deep a text may be nested: the reader's limit on its recursion. -/
def recursionLimit : Nat := 128

section
variable [Floats]

mutual

/-- No number is too large for a float. -/
def inRange : Json → Bool
  | .num i => small i || (Floats.readDouble (.num i)).isSome
  | .real l => (Floats.readDouble (.real l)).isSome
  | .arr items => inRangeItems items
  | .obj fields => inRangeFields fields
  | _ => true

def inRangeItems : List Json → Bool
  | [] => true
  | v :: rest => inRange v && inRangeItems rest

def inRangeFields : List (List Char × Json) → Bool
  | [] => true
  | (_, v) :: rest => inRange v && inRangeFields rest

end

theorem inRangeItems_eq (items : List Json) : inRangeItems items = items.all inRange := by
  induction items with
  | nil => rfl
  | cons v rest ih => rw [inRangeItems, ih, List.all_cons]

theorem inRangeFields_eq (fields : List (List Char × Json)) :
    inRangeFields fields = fields.all (inRange ·.2) := by
  induction fields with
  | nil => rfl
  | cons field rest ih => rw [inRangeFields, ih, List.all_cons]

end

/-! ## Objects -/

/-- The values a key has, in the order of the text. -/
def occurrences (key : String) (entries : List (List Char × Json)) : List Json :=
  entries.filterMap fun (cs, v) => if cs = key.toList then some v else none

/-- The entries that are not the tag. -/
def others (key : String) (entries : List (List Char × Json)) : List (List Char × Json) :=
  entries.filter fun (cs, _) => cs ≠ key.toList

@[simp] theorem occurrences_nil (key : String) : occurrences key [] = [] := rfl

theorem occurrences_cons (key : String) (cs : List Char) (v : Json)
    (entries : List (List Char × Json)) :
    occurrences key ((cs, v) :: entries) =
      if cs = key.toList then v :: occurrences key entries else occurrences key entries := by
  rw [occurrences, List.filterMap_cons]
  split <;> simp_all [occurrences]

theorem occurrences_others {key name : String} (apart : name ≠ key)
    (entries : List (List Char × Json)) :
    occurrences name (others key entries) = occurrences name entries := by
  induction entries with
  | nil => rfl
  | cons entry entries ih =>
    obtain ⟨cs, v⟩ := entry
    by_cases here : cs = key.toList
    · have other : cs ≠ name.toList := by
        intro same
        exact apart (String.toList_inj.mp (same.symm.trans here))
      rw [occurrences_cons, if_neg other, ← ih]
      simp [others, here]
    · have kept : others key ((cs, v) :: entries) = (cs, v) :: others key entries := by
        simp [others, here]
      rw [kept, occurrences_cons, occurrences_cons, ih]

/-! ## What a type declares -/

/-- How a type is written and read: its `Serialize` and `Deserialize`. -/
structure Codec (α : Type) where
  encode : α → Json
  decode : Json → Option α
  /-- What an absent field of the type is read as. -/
  missing : Option α

/-- The fields of a struct, in order. `fallback` is what `#[serde(default)]` puts
where a field is absent. -/
inductive Fields : Type → Type 1 where
  | nil : Fields Unit
  | cons {α β : Type} (name : String) (codec : Codec α) (fallback : Option α)
      (rest : Fields β) : Fields (α × β)

namespace Fields

/-- A field without attributes. -/
abbrev field {α β : Type} (name : String) (codec : Codec α) (rest : Fields β) : Fields (α × β) :=
  cons name codec none rest

/-- A field with a default. -/
abbrev fieldOr {α β : Type} (name : String) (codec : Codec α) (fallback : α) (rest : Fields β) :
    Fields (α × β) :=
  cons name codec (some fallback) rest

def names {α : Type} : Fields α → List String
  | nil => []
  | cons name _ _ rest => name :: rest.names

/-- The entries of a struct. -/
def encode {α : Type} : Fields α → α → List (List Char × Json)
  | nil, _ => []
  | cons name codec _ rest, (a, b) => (name.toList, codec.encode a) :: rest.encode b

end Fields

/-- The variants of an enum: `#[serde(tag = key)]`. A variant without payload has
no fields. -/
structure Variants (σ : Type) where
  key : String
  Tag : Type
  tags : List Tag
  name : Tag → String
  Payload : Tag → Type
  fields : (t : Tag) → Fields (Payload t)
  out : σ → (t : Tag) × Payload t
  into : (t : Tag) × Payload t → σ
  into_out : ∀ s, into (out s) = s
  out_into : ∀ p, out (into p) = p
  named : ∀ t, tags.find? (fun u => name u = name t) = some t
  distinct : ∀ t, (key :: (fields t).names).Nodup

/-- The entries of a variant: its tag, and its fields. -/
def Variants.entries {σ : Type} (V : Variants σ) (s : σ) : List (List Char × Json) :=
  (V.key.toList, .str (V.name (V.out s).1).toList) :: (V.fields (V.out s).1).encode (V.out s).2

/-- The value of the one tag, or of what leads a list. -/
def Variants.tag? {σ : Type} (V : Variants σ) : Json → Option Json
  | .obj entries =>
    match occurrences V.key entries with
    | [v] => some v
    | _ => none
  | .arr (v :: _) => some v
  | _ => none

/-- A map of strings to values of a type. -/
structure Dict (α : Type) where
  fields : List (String × α)
  sorted : fields.Pairwise fun a b => a.1 < b.1

/-! ## The crates -/

section
variable [Floats]

/-- `serde`, `serde_derive` and `serde_json`. -/
class Crates where
  /-- `serde_json::Value`, -/
  Value : Type
  /-- and its default. -/
  null : Value
  value : Codec Value
  bool : Codec Bool
  string : Codec String
  u8 : Codec UInt8
  u16 : Codec UInt16
  u32 : Codec UInt32
  u64 : Codec UInt64
  f32 : Codec Floats.Single
  f64 : Codec Floats.Double
  option {α : Type} : Codec α → Codec (Option α)
  list {α : Type} : Codec α → Codec (List α)
  map {α : Type} : Codec α → Codec (Dict α)
  /-- A struct around one value. -/
  newtype {α β : Type} : Codec β → (α → β) → (β → α) → Codec α
  /-- An enum without payloads. -/
  unitEnum {α : Type} : List α → (α → String) → Codec α
  /-- What a field is read as, from the values that stand under its name. -/
  field {α : Type} : Codec α → Option α → List Json → Option α
  /-- The visitor of the entries of an object. -/
  visit {α : Type} : Fields α → List (List Char × Json) → Option α
  struct {α σ : Type} : Fields α → (σ → α) → (α → σ) → Codec σ
  /-- A tagged enum inside another value. -/
  tagged {σ : Type} : Variants σ → Codec σ
  /-- What a text holds: the values that a visitor is shown. -/
  content : String → Option Json
  /-- `to_string` of a tagged enum. -/
  toString {σ : Type} : Variants σ → σ → String
  /-- `from_str` of a tagged enum. -/
  fromStr {σ : Type} : Variants σ → String → Option σ

namespace Fields

variable [Crates] {α : Type}

/-- Each field by itself. -/
def look {α : Type} : Fields α → List (List Char × Json) → Option α
  | nil, _ => some ()
  | cons name codec fallback rest, entries => do
    let a ← Crates.field codec fallback (occurrences name entries)
    let b ← rest.look entries
    some (a, b)

end Fields

/-- A type without parts: what its values are written as, and read from. -/
structure Codec.Plain {α : Type} (c : Codec α) (tree : α → Json) : Prop where
  encode (a : α) : c.encode a = tree a
  decode (a : α) : c.decode (tree a) = some a
  missing : c.missing = none

/-- A float is written as its text, and as null if it has none. -/
structure Codec.Float {α : Type} (c : Codec α) (write : α → Option Json.Literal)
    (read : Json → Option α) : Prop where
  finite {x : α} {l : Json.Literal} : write x = some l → c.encode x = .real l
  infinite {x : α} : write x = none → c.encode x = .null
  number (l : Json.Literal) : c.decode (.real l) = read (.real l)
  null : c.decode .null = none
  missing : c.missing = none

/-- What the documentation says of the crates. -/
class Documented [Crates] : Prop where
  bool : Crates.bool.Plain Json.bool
  string : Crates.string.Plain fun s => .str s.toList
  u8 : Crates.u8.Plain fun n => .num n.toNat
  u16 : Crates.u16.Plain fun n => .num n.toNat
  u32 : Crates.u32.Plain fun n => .num n.toNat
  u64 : Crates.u64.Plain fun n => .num n.toNat
  /-- Nothing but a number is read as one: neither a string nor one that is too large. -/
  u64_only {v : Json} {n : UInt64} : Crates.u64.decode v = some n → v = .num n.toNat
  f32 : Crates.f32.Float Floats.writeSingle Floats.readSingle
  f64 : Crates.f64.Float Floats.writeDouble Floats.readDouble
  /-- A `Value` is any JSON. -/
  value {v : Json} : inRange v = true → (Crates.value.decode v).isSome = true
  value_missing : Crates.value.missing = none
  option_some {α : Type} {c : Codec α} {a : α} :
    (Crates.option c).encode (some a) = c.encode a
  option_none {α : Type} {c : Codec α} : (Crates.option c).encode none = .null
  /-- Null is read as nothing, -/
  option_null {α : Type} {c : Codec α} : (Crates.option c).decode .null = some none
  option_solid {α : Type} {c : Codec α} {v : Json} : v ≠ .null →
    (Crates.option c).decode v = (c.decode v).map some
  /-- and so is an absent field. -/
  option_missing {α : Type} {c : Codec α} : (Crates.option c).missing = some none
  list_encode {α : Type} {c : Codec α} {xs : List α} :
    (Crates.list c).encode xs = .arr (xs.map c.encode)
  list_decode {α : Type} {c : Codec α} {items : List Json} :
    (Crates.list c).decode (.arr items) = items.mapM c.decode
  list_missing {α : Type} {c : Codec α} : (Crates.list c).missing = none
  /-- A map is written as an object, in some order of its keys. -/
  map_encode {α : Type} {c : Codec α} {d : Dict α} : ∃ fields : List (String × α),
    fields.Perm d.fields ∧
      (Crates.map c).encode d = .obj (fields.map fun (key, a) => (key.toList, c.encode a))
  /-- An object whose keys are those of a map is read as it, if each of its values is. -/
  map_decode {α : Type} {c : Codec α} {d : Dict α} {fields : List (String × α)} :
    fields.Perm d.fields → (∀ field ∈ fields, c.decode (c.encode field.2) = some field.2) →
      (Crates.map c).decode (.obj (fields.map fun (key, a) => (key.toList, c.encode a))) = some d
  map_missing {α : Type} {c : Codec α} : (Crates.map c).missing = none
  newtype_encode {α β : Type} {c : Codec β} {out : α → β} {into : β → α} {a : α} :
    (Crates.newtype c out into).encode a = c.encode (out a)
  newtype_decode {α β : Type} {c : Codec β} {out : α → β} {into : β → α} {v : Json} :
    (Crates.newtype c out into).decode v = (c.decode v).map into
  newtype_missing {α β : Type} {c : Codec β} {out : α → β} {into : β → α} :
    (Crates.newtype c out into).missing = none
  /-- A variant without payload is its name. -/
  unitEnum {α : Type} {tags : List α} {name : α → String} :
    (∀ a, tags.find? (fun b => name b = name a) = some a) →
      (Crates.unitEnum tags name).Plain fun a => .str (name a).toList
  /-- A field that stands once is read from its value, -/
  field_once {α : Type} {c : Codec α} {fallback : Option α} {v : Json} :
    Crates.field c fallback [v] = c.decode v
  /-- one that stands twice is an error, -/
  field_duplicate {α : Type} {c : Codec α} {fallback : Option α} {values : List Json} :
    2 ≤ values.length → Crates.field c fallback values = none
  /-- one that is absent is its default, -/
  field_default {α : Type} {c : Codec α} {a : α} : Crates.field c (some a) [] = some a
  /-- and without a default it is an error, unless its type stands for an absent value. -/
  field_missing {α : Type} {c : Codec α} : Crates.field c none [] = c.missing
  /-- Fields are found by their names, in whatever order; what has another name is ignored. -/
  by_name {α : Type} {f : Fields α} {entries : List (List Char × Json)} :
    f.names.Nodup → Crates.visit f entries = f.look entries
  struct_encode {α σ : Type} {f : Fields α} {out : σ → α} {into : α → σ} {s : σ} :
    (Crates.struct f out into).encode s = .obj (f.encode (out s))
  struct_decode {α σ : Type} {f : Fields α} {out : σ → α} {into : α → σ}
    {entries : List (List Char × Json)} :
    (Crates.struct f out into).decode (.obj entries) = (Crates.visit f entries).map into
  struct_missing {α σ : Type} {f : Fields α} {out : σ → α} {into : α → σ} :
    (Crates.struct f out into).missing = none
  tagged_encode {σ : Type} {V : Variants σ} {s : σ} :
    (Crates.tagged V).encode s = .obj (V.entries s)
  /-- The tag names a variant, whose fields are looked for among the other entries. -/
  tagged_decode {σ : Type} {V : Variants σ} {t : V.Tag} {entries : List (List Char × Json)} :
    occurrences V.key entries = [.str (V.name t).toList] →
      (Crates.tagged V).decode (.obj entries) =
        (Crates.visit (V.fields t) (others V.key entries)).map fun p => V.into ⟨t, p⟩
  tagged_missing {σ : Type} {V : Variants σ} : (Crates.tagged V).missing = none
  /-- What was written is in the text, -/
  written {σ : Type} {V : Variants σ} {s : σ} :
    (Json.obj (V.entries s)).depth < recursionLimit → inRange (.obj (V.entries s)) = true →
      Crates.content (Crates.toString V s) = some (.obj (V.entries s))
  /-- unless it is nested too deep -/
  too_deep {σ : Type} {V : Variants σ} {s : σ} :
    recursionLimit ≤ (Json.obj (V.entries s)).depth → Crates.content (Crates.toString V s) = none
  /-- or has a number that is too large. -/
  out_of_range {σ : Type} {V : Variants σ} {s : σ} :
    inRange (.obj (V.entries s)) = false → Crates.content (Crates.toString V s) = none
  content_inRange {text : String} {v : Json} : Crates.content text = some v → inRange v = true
  /-- The text of an object is on one line: control characters are escaped. -/
  opens {σ : Type} {V : Variants σ} {s : σ} :
    (Crates.toString V s).toList.head? = some '\x7b'
  closes {σ : Type} {V : Variants σ} {s : σ} :
    (Crates.toString V s).toList.getLast? = some '\x7d'
  escaped {σ : Type} {V : Variants σ} {s : σ} : ∀ c ∈ (Crates.toString V s).toList, 0x20 ≤ c.toNat
  /-- A text that holds nothing is an error. -/
  unread {σ : Type} {V : Variants σ} {text : String} :
    Crates.content text = none → Crates.fromStr V text = none
  /-- What is read is of the variant that the tag names: there is one tag, and its value is
  the variant's name. -/
  tag {σ : Type} {V : Variants σ} {text : String} {v : Json} {s : σ} :
    Crates.content text = some v → Crates.fromStr V text = some s →
      V.tag? v = some (.str (V.name (V.out s).1).toList)
  /-- The fields of that variant are looked for among the other entries. -/
  fields {σ : Type} {V : Variants σ} {t : V.Tag} {text : String}
    {entries : List (List Char × Json)} :
    Crates.content text = some (.obj entries) →
      occurrences V.key entries = [.str (V.name t).toList] →
        Crates.fromStr V text =
          (Crates.visit (V.fields t) (others V.key entries)).map fun p => V.into ⟨t, p⟩

end

end Serde
