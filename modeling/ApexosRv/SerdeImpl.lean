import ApexosRv.JsonText
import ApexosRv.JsonValue

/-!
# An implementation of the crates

The crates as visitors of JSON values (`jsonCrates`), and that the documentation
holds of them (`json_documented`). The fields of a struct are visited in the order
of the text, into one slot each (`Fields.visitMap`), and `Fields.visitMap_eq` says
what that comes to: each field by itself, whatever stands around it.
-/

namespace Serde

/-! ## Basic types -/

namespace Codec

variable {α β : Type}

def bool : Codec Bool where
  encode := .bool
  decode
    | .bool b => some b
    | _ => none
  missing := none

def string : Codec String where
  encode s := .str s.toList
  decode
    | .str s => some (String.ofList s)
    | _ => none
  missing := none

/-- An unsigned integer of some width; nothing else is made into one. -/
def unsigned (bits : Nat) (toNat : α → Nat) (ofNat : Nat → α) : Codec α where
  encode a := .num (toNat a)
  decode v := (v.nat?.filter (· < 2 ^ bits)).map ofNat
  missing := none

theorem unsigned_plain {bits : Nat} {toNat : α → Nat} {ofNat : Nat → α}
    (fits : ∀ a, toNat a < 2 ^ bits) (back : ∀ a, ofNat (toNat a) = a) :
    (unsigned bits toNat ofNat).Plain fun a => .num (toNat a) where
  encode _ := rfl
  decode a := by
    show ((some (toNat a)).filter (· < 2 ^ bits)).map ofNat = some a
    simp only [Option.filter_some, fits a, decide_true, ↓reduceIte, Option.map_some, back]
  missing := rfl

def u64 : Codec UInt64 := unsigned 64 UInt64.toNat UInt64.ofNat

theorem nat?_eq_some {v : Json} {n : ℕ} (number : v.nat? = some n) : v = .num n := by
  cases v with
  | num i =>
    cases i with
    | ofNat m =>
      cases number
      rfl
    | negSucc m => cases number
  | _ => cases number

theorem u64_only {v : Json} {n : UInt64} (read : u64.decode v = some n) : v = .num n.toNat := by
  obtain ⟨m, found, rfl⟩ := Option.map_eq_some_iff.mp read
  obtain ⟨number, fits⟩ := Option.filter_eq_some_iff.mp found
  rw [UInt64.toNat_ofNat_of_lt' (of_decide_eq_true fits)]
  exact nat?_eq_some number

def float (write : α → Option Json.Literal) (read : Json → Option α) : Codec α where
  encode x :=
    match write x with
    | some l => .real l
    | none => .null
  decode
    | .num i => read (.num i)
    | .real l => read (.real l)
    | _ => none
  missing := none

theorem float_float (write : α → Option Json.Literal) (read : Json → Option α) :
    (float write read).Float write read where
  finite written := by
    simp only [float, written]
  infinite unwritten := by
    simp only [float, unwritten]
  number _ := rfl
  null := rfl
  missing := rfl

/-- Null is read as nothing. -/
def readOption (c : Codec α) : Json → Option (Option α)
  | .null => some none
  | v => (c.decode v).map some

theorem readOption_solid (c : Codec α) {v : Json} (solid : v ≠ .null) :
    c.readOption v = (c.decode v).map some := by
  unfold readOption
  split
  · contradiction
  · rfl

def option (c : Codec α) : Codec (Option α) where
  encode
    | some a => c.encode a
    | none => .null
  decode := c.readOption
  missing := some none

def list (c : Codec α) : Codec (List α) where
  encode xs := .arr (xs.map c.encode)
  decode
    | .arr items => items.mapM c.decode
    | _ => none
  missing := none

/-- A struct around one value. -/
def newtype (c : Codec β) (out : α → β) (into : β → α) : Codec α where
  encode a := c.encode (out a)
  decode v := (c.decode v).map into
  missing := none

/-- An enum without payloads, read from a name, or from an object of one field
named so that holds nothing. -/
def unitEnum (tags : List α) (name : α → String) : Codec α where
  encode a := .str (name a).toList
  decode
    | .str cs => tags.find? fun b => (name b).toList = cs
    | .obj [(cs, .null)] => tags.find? fun b => (name b).toList = cs
    | .obj [(cs, .obj [])] => tags.find? fun b => (name b).toList = cs
    | _ => none
  missing := none

theorem unitEnum_plain {tags : List α} {name : α → String}
    (named : ∀ a, tags.find? (fun b => name b = name a) = some a) :
    (unitEnum tags name).Plain fun a => .str (name a).toList where
  encode _ := rfl
  decode a := by
    show tags.find? (fun b => (name b).toList = (name a).toList) = some a
    simpa only [String.toList_inj] using named a
  missing := rfl

end Codec

/-! ## Structs -/

namespace Fields

variable {α : Type}

/-- The values read so far. -/
def Slots {α : Type} : Fields α → Type
  | nil => Unit
  | @cons α _ _ _ _ rest => Option α × rest.Slots

def empty {α : Type} : (f : Fields α) → f.Slots
  | nil => ()
  | cons _ _ _ rest => (none, rest.empty)

/-- One entry is visited: a field that is named twice is an error, an entry that
names no field is skipped. -/
def step {α : Type} : (f : Fields α) → f.Slots → List Char × Json → Option f.Slots
  | nil, slots, _ => some slots
  | @cons α _ name codec _ rest, slots, (cs, v) =>
    let (slot, slots) : Option α × rest.Slots := slots
    if cs = name.toList then
      match slot with
      | some _ => none
      | none => (codec.decode v).map fun a => (some a, slots)
    else (rest.step slots (cs, v)).map fun slots => (slot, slots)

def finish {α : Type} : (f : Fields α) → f.Slots → Option α
  | nil, _ => some ()
  | @cons α _ _ codec fallback rest, slots => do
    let (slot, slots) : Option α × rest.Slots := slots
    let a ← slot <|> fallback <|> codec.missing
    let b ← rest.finish slots
    some (a, b)

/-- The visitor of an object. -/
def visitMap (f : Fields α) (entries : List (List Char × Json)) : Option α :=
  (entries.foldlM f.step f.empty).bind f.finish

/-- The visitor of a list: its values are the fields in order, and what is left
of it is returned. -/
def visitSeq {α : Type} : Fields α → List Json → Option (α × List Json)
  | nil, vs => some ((), vs)
  | cons _ _ fallback rest, [] => do
    let a ← fallback
    let (b, vs) ← rest.visitSeq []
    some ((a, b), vs)
  | cons _ codec _ rest, v :: vs => do
    let a ← codec.decode v
    let (b, vs) ← rest.visitSeq vs
    some ((a, b), vs)

/-- What a field's values are read as: it stands once, or it is absent. -/
def one (codec : Codec α) (fallback : Option α) : List Json → Option α
  | [] => fallback <|> codec.missing
  | [v] => codec.decode v
  | _ => none

/-- What a slot and the values still to come are read as. -/
def held {α : Type} (codec : Codec α) (fallback : Option α) : Option α → List Json → Option α
  | none, vs => one codec fallback vs
  | some a, [] => some a
  | some _, _ => none

/-- What the rest of the entries makes of some slots. -/
def lookFrom {α : Type} : (f : Fields α) → f.Slots → List (List Char × Json) → Option α
  | nil, _, _ => some ()
  | @cons α _ name codec fallback rest, slots, entries => do
    let (slot, slots) : Option α × rest.Slots := slots
    let a ← held codec fallback slot (occurrences name entries)
    let b ← rest.lookFrom slots entries
    some (a, b)

theorem lookFrom_nil {α : Type} (f : Fields α) (slots : f.Slots) :
    f.lookFrom slots [] = f.finish slots := by
  induction f with
  | nil => rfl
  | cons name codec fallback rest ih =>
    obtain ⟨slot, slots⟩ := slots
    cases slot <;> simp only [lookFrom, finish, ih] <;> rfl

theorem lookFrom_skip {α : Type} (f : Fields α) (slots : f.Slots) {cs : List Char}
    (unknown : ∀ name ∈ f.names, cs ≠ name.toList) (v : Json) (entries : List (List Char × Json)) :
    f.lookFrom slots ((cs, v) :: entries) = f.lookFrom slots entries := by
  induction f with
  | nil => rfl
  | cons name codec fallback rest ih =>
    obtain ⟨slot, slots⟩ := slots
    obtain ⟨here, later⟩ := List.forall_mem_cons.mp unknown
    simp only [lookFrom, occurrences_cons, if_neg here, ih slots later]

/-- An entry is either visited now or left to what is read later. -/
theorem lookFrom_cons {α : Type} (f : Fields α) (distinct : f.names.Nodup) (slots : f.Slots)
    (entry : List Char × Json) (entries : List (List Char × Json)) :
    f.lookFrom slots (entry :: entries) =
      (f.step slots entry).bind fun slots => f.lookFrom slots entries := by
  obtain ⟨cs, v⟩ := entry
  induction f with
  | nil => rfl
  | cons name codec fallback rest ih =>
    obtain ⟨slot, slots⟩ := slots
    obtain ⟨fresh, later⟩ := List.nodup_cons.mp distinct
    by_cases here : cs = name.toList
    · have unknown : ∀ other ∈ rest.names, cs ≠ other.toList := by
        rintro other known same
        exact fresh (String.toList_inj.mp (here.symm.trans same) ▸ known)
      have skipped := rest.lookFrom_skip slots unknown v entries
      cases slot with
      | some a => simp [lookFrom, step, here, occurrences_cons, held]
      | none =>
        simp only [lookFrom, step, here, occurrences_cons, ↓reduceIte]
        rw [here] at skipped
        rw [skipped]
        cases occurrences name entries <;> simp only [held, one] <;> cases codec.decode v <;> rfl
    · simp only [lookFrom, step, here, occurrences_cons, ↓reduceIte, ih later]
      cases rest.step slots (cs, v) with
      | none => cases held codec fallback slot (occurrences name entries) <;> rfl
      | some _ => rfl

end Fields

def Codec.struct {α σ : Type} (f : Fields α) (out : σ → α) (into : α → σ) : Codec σ where
  encode s := .obj (f.encode (out s))
  decode
    | .obj entries => (f.visitMap entries).map into
    | .arr vs => ((f.visitSeq vs).filter (·.2.isEmpty)).map (into ·.1)
    | _ => none
  missing := none

/-! ## Tagged enums -/

/-- One entry of a tagged object: the tag may stand anywhere, but only once. -/
def visitTag (key : String) :
    Option Json × List (List Char × Json) → List Char × Json →
      Option (Option Json × List (List Char × Json))
  | (tag, rest), (cs, v) =>
    if cs = key.toList then
      match tag with
      | some _ => none
      | none => some (some v, rest)
    else some (tag, rest ++ [(cs, v)])

/-- `TaggedContentVisitor`: the value of the tag, and the other entries in order. -/
def takeTag (key : String) (entries : List (List Char × Json)) :
    Option (Json × List (List Char × Json)) :=
  (entries.foldlM (visitTag key) (none, [])).bind fun (tag, rest) => tag.map fun v => (v, rest)


theorem takeTag_eq (key : String) (entries : List (List Char × Json)) :
    takeTag key entries =
      match occurrences key entries with
      | [v] => some (v, others key entries)
      | _ => none := by
  have from_here : ∀ tag rest, entries.foldlM (visitTag key) (tag, rest) =
      match tag.toList ++ occurrences key entries with
      | [] => some (none, rest ++ others key entries)
      | [v] => some (some v, rest ++ others key entries)
      | _ => none := by
    induction entries with
    | nil =>
      intro tag rest
      cases tag <;> simp [others]
    | cons entry entries ih =>
      obtain ⟨cs, v⟩ := entry
      intro tag rest
      rw [List.foldlM_cons, occurrences_cons]
      by_cases here : cs = key.toList
      · cases tag with
        | some t => simp [visitTag, here]
        | none => simp [visitTag, here, ih, others]
      · simp [visitTag, here, ih, others]
  rw [takeTag, from_here]
  cases occurrences key entries with
  | nil => rfl
  | cons v more => cases more <;> rfl

theorem takeTag_one {key : String} {entries rest : List (List Char × Json)} {tag : Json}
    (taken : takeTag key entries = some (tag, rest)) : occurrences key entries = [tag] := by
  rw [takeTag_eq] at taken
  match found : occurrences key entries with
  | [] => simp [found] at taken
  | [v] =>
    obtain ⟨rfl, _⟩ : v = tag ∧ others key entries = rest := by simpa [found] using taken
    rfl
  | _ :: _ :: _ => simp [found] at taken

namespace Variants

variable {σ : Type} (V : Variants σ)

/-- The variant that a tag names: by its name, or by its number where the value
comes from a buffer and not from the text. -/
def identify (buffered : Bool) : Json → Option V.Tag
  | .str cs => V.tags.find? fun t => (V.name t).toList = cs
  | .num (.ofNat i) => if buffered then V.tags[i]? else none
  | _ => none

def decode (buffered : Bool) : Json → Option σ
  | .obj entries => do
    let (v, entries) ← takeTag V.key entries
    let t ← V.identify buffered v
    let p ← (V.fields t).visitMap entries
    some (V.into ⟨t, p⟩)
  | .arr (v :: vs) => do
    let t ← V.identify buffered v
    let (p, vs) ← (V.fields t).visitSeq vs
    if vs.isEmpty then some (V.into ⟨t, p⟩) else none
  | _ => none

theorem identify_name (buffered : Bool) (t : V.Tag) :
    V.identify buffered (.str (V.name t).toList) = some t := by
  simpa only [identify, String.toList_inj] using V.named t

/-- In a text only a variant's own name stands for it. -/
theorem identify_text (v : Json) (t : V.Tag) :
    V.identify false v = some t ↔ v = .str (V.name t).toList := by
  constructor
  · intro found
    cases v with
    | str cs =>
      have same := List.find?_some found
      simp only [decide_eq_true_eq] at same
      rw [same]
    | num i => cases i <;> cases found
    | _ => cases found
  · rintro rfl
    exact V.identify_name false t

/-- An object whose one tag names a variant is read as that variant. -/
theorem decode_obj (buffered : Bool) {entries : List (List Char × Json)} {t : V.Tag}
    (tagged : occurrences V.key entries = [.str (V.name t).toList]) :
    V.decode buffered (.obj entries) =
      ((V.fields t).visitMap (others V.key entries)).map fun p => V.into ⟨t, p⟩ := by
  simp only [decode, takeTag_eq, tagged, Option.bind_eq_bind, Option.bind_some, identify_name]
  cases (V.fields t).visitMap (others V.key entries) <;> rfl

/-- What is read from a text is of the variant that its tag names. -/
theorem decode_tag {v : Json} {s : σ} (read : V.decode false v = some s) :
    V.tag? v = some (.str (V.name (V.out s).1).toList) := by
  cases v with
  | obj entries =>
    obtain ⟨⟨tag, rest⟩, taken, read⟩ := Option.bind_eq_some_iff.mp read
    obtain ⟨t, named, read⟩ := Option.bind_eq_some_iff.mp read
    obtain ⟨p, _, same⟩ := Option.bind_eq_some_iff.mp read
    cases same
    rw [tag?, takeTag_one taken, V.out_into, ← (V.identify_text tag t).mp named]
  | arr vs =>
    cases vs with
    | nil => cases read
    | cons tag vs =>
      obtain ⟨t, named, read⟩ := Option.bind_eq_some_iff.mp read
      obtain ⟨⟨p, rest⟩, _, read⟩ := Option.bind_eq_some_iff.mp read
      obtain ⟨_, rfl⟩ : rest.isEmpty = true ∧ V.into ⟨t, p⟩ = s := by simpa using read
      rw [tag?, V.out_into, ← (V.identify_text tag t).mp named]
  | _ => cases read

end Variants

def Codec.tagged {σ : Type} (V : Variants σ) : Codec σ where
  encode s := .obj (V.entries s)
  decode := V.decode true
  missing := none

/-! ## The crates -/

section
variable [Floats]

/-- `from_str`, up to the value it is about. -/
def read (text : List Char) : Option Json :=
  (Json.parse text).filter fun v => v.depth < recursionLimit && inRange v

/-- What was written is read, unless it is too deep or has a number out of range. -/
theorem read_print (v : Json) :
    read v.print = if v.depth < recursionLimit ∧ inRange v = true then some v else none := by
  rw [read, Json.parse_print, Option.filter_some]
  simp only [Bool.and_eq_true, decide_eq_true_eq]

@[reducible] def jsonCrates : Crates where
  Value := Value
  null := Value.null
  value := Value.codec
  bool := Codec.bool
  string := Codec.string
  u8 := .unsigned 8 UInt8.toNat UInt8.ofNat
  u16 := .unsigned 16 UInt16.toNat UInt16.ofNat
  u32 := .unsigned 32 UInt32.toNat UInt32.ofNat
  u64 := .u64
  f32 := .float Floats.writeSingle Floats.readSingle
  f64 := .float Floats.writeDouble Floats.readDouble
  option := Codec.option
  list := Codec.list
  map := Dict.codec
  newtype := Codec.newtype
  unitEnum := Codec.unitEnum
  field := Fields.one
  visit := Fields.visitMap
  struct := Codec.struct
  tagged := Codec.tagged
  content text := read text.toList
  toString V s := String.ofList (Json.obj (V.entries s)).print
  fromStr V text := (read text.toList).bind (V.decode false)

attribute [local instance] jsonCrates

/-! ## What a visit comes to -/

namespace Fields

variable {α : Type}

theorem lookFrom_empty {α : Type} (f : Fields α) (entries : List (List Char × Json)) :
    f.lookFrom f.empty entries = f.look entries := by
  induction f with
  | nil => rfl
  | cons name codec fallback rest ih =>
    simp only [lookFrom, empty, held, look, ih]
    rfl

/-- **A visit reads each field by itself.** -/
theorem visitMap_eq (f : Fields α) (distinct : f.names.Nodup)
    (entries : List (List Char × Json)) : f.visitMap entries = f.look entries := by
  have from_slots : ∀ slots, (entries.foldlM f.step slots).bind f.finish =
      f.lookFrom slots entries := by
    induction entries with
    | nil =>
      intro slots
      exact (f.lookFrom_nil slots).symm
    | cons entry entries ih =>
      intro slots
      rw [f.lookFrom_cons distinct, List.foldlM_cons]
      cases f.step slots entry with
      | none => rfl
      | some slots => exact ih slots
  rw [visitMap, from_slots, lookFrom_empty]

end Fields

/-! ## The documentation -/

theorem json_documented : Documented where
  bool := ⟨fun _ => rfl, fun _ => rfl, rfl⟩
  string := ⟨fun _ => rfl, fun _ => congrArg some String.ofList_toList, rfl⟩
  u8 := Codec.unsigned_plain UInt8.toNat_lt fun _ => UInt8.ofNat_toNat
  u16 := Codec.unsigned_plain UInt16.toNat_lt fun _ => UInt16.ofNat_toNat
  u32 := Codec.unsigned_plain UInt32.toNat_lt fun _ => UInt32.ofNat_toNat
  u64 := Codec.unsigned_plain UInt64.toNat_lt fun _ => UInt64.ofNat_toNat
  u64_only := Codec.u64_only
  f32 := Codec.float_float _ _
  f64 := Codec.float_float _ _
  value := Value.decode_inRange
  value_missing := rfl
  option_some := rfl
  option_none := rfl
  option_null := rfl
  option_solid := Codec.readOption_solid _
  option_missing := rfl
  list_encode := rfl
  list_decode := rfl
  list_missing := rfl
  map_encode {_ _ d} := ⟨d.fields, .refl _, rfl⟩
  map_decode := Dict.decode_perm
  map_missing := rfl
  newtype_encode := rfl
  newtype_decode := rfl
  newtype_missing := rfl
  unitEnum := Codec.unitEnum_plain
  field_once := rfl
  field_duplicate {_ _ _ values} twice := by
    match values, twice with
    | _ :: _ :: _, _ => rfl
  field_default := rfl
  field_missing := rfl
  by_name distinct := Fields.visitMap_eq _ distinct _
  struct_encode := rfl
  struct_decode := rfl
  struct_missing := rfl
  tagged_encode := rfl
  tagged_decode {_ V _ _} tagged := V.decode_obj true tagged
  tagged_missing := rfl
  written shallow fits := by
    show read (String.ofList _).toList = _
    rw [String.toList_ofList, read_print, if_pos ⟨shallow, fits⟩]
  too_deep deep := by
    show read (String.ofList _).toList = _
    rw [String.toList_ofList, read_print, if_neg fun fits => absurd fits.1 (Nat.not_lt.mpr deep)]
  out_of_range large := by
    show read (String.ofList _).toList = _
    rw [String.toList_ofList, read_print, if_neg fun fits => absurd (large.symm.trans fits.2)
      (by decide)]
  content_inRange {_ _} holds :=
    (Bool.and_eq_true_iff.mp (Option.filter_eq_some_iff.mp holds).2).2
  opens := by
    intro σ V s
    show (String.ofList _).toList.head? = _
    rw [String.toList_ofList]
    rfl
  closes := by
    intro σ V s
    show (String.ofList (Json.obj (V.entries s)).print).toList.getLast? = _
    rw [String.toList_ofList, Variants.entries, Json.print, List.getLast?_concat]
  escaped := by
    intro σ V s
    show ∀ c ∈ (String.ofList _).toList, _
    rw [String.toList_ofList]
    exact Json.print_printable _
  unread {_ V _} nothing := by
    show (read _).bind _ = none
    rw [show read _ = none from nothing, Option.bind_none]
  tag {_ V _ _ _} holds read := by
    rw [show Crates.fromStr V _ = _ from congrArg (Option.bind · (V.decode false)) holds] at read
    exact V.decode_tag read
  fields {_ V _ _ _} holds tagged := by
    rw [show Crates.fromStr V _ = _ from congrArg (Option.bind · (V.decode false)) holds]
    exact V.decode_obj false tagged

/-- What was printed is what the text holds. -/
theorem content_print {v : Json} (fits : (v.depth < recursionLimit && inRange v) = true) :
    @Crates.content _ jsonCrates (String.ofList v.print) = some v := by
  obtain ⟨shallow, ranged⟩ := Bool.and_eq_true_iff.mp fits
  show read (String.ofList v.print).toList = some v
  rw [String.toList_ofList, read_print, if_pos ⟨of_decide_eq_true shallow, ranged⟩]

end

section
attribute [local instance] Floats.asText

/-- The crates where floats are carried along as their texts. -/
@[reducible] def textCrates : Crates := jsonCrates

attribute [local instance] textCrates

theorem text_documented : Documented := json_documented

end

end Serde
