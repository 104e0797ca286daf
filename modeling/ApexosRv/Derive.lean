import ApexosRv.Serde

/-!
# What is written and read back

What follows for a type from what it declares. A value is `Kept` if it is read back,
and `Lost` if it is written as something that is not read. A struct is read field by
field, and it is kept if each field is (`Fields.look_encode`); so is an enum with a
tag, as a part of another value (`tagged_kept`) and as a text (`fromStr_toString`).
-/

namespace Serde

/-! ## Lists -/

section
variable {α : Type} {f : α → Option α}

theorem mapM_self_iff {xs : List α} : xs.mapM f = some xs ↔ ∀ x ∈ xs, f x = some x := by
  induction xs with
  | nil => simp
  | cons x xs ih =>
    rw [List.mapM_cons, List.forall_mem_cons, ← ih]
    cases f x <;> cases xs.mapM f <;> simp

theorem mapM_eq_none {xs : List α} {bad : α} (here : bad ∈ xs) (failed : f bad = none) :
    xs.mapM f = none := by
  induction xs with
  | nil => cases here
  | cons x xs ih =>
    rw [List.mapM_cons]
    rcases List.mem_cons.mp here with rfl | later
    · rw [failed]
      rfl
    · rw [ih later]
      cases f x <;> rfl

end

section
variable [Floats]

/-! ## Parts -/

namespace Codec

variable {α β : Type}

/-- A value that is read back, its numbers in range. -/
def Kept (c : Codec α) (a : α) : Prop :=
  c.decode (c.encode a) = some a ∧ inRange (c.encode a) = true

/-- A value that is written as something that is not read. -/
def Lost (c : Codec α) (a : α) : Prop := c.decode (c.encode a) = none

theorem Plain.kept {c : Codec α} {tree : α → Json} (plain : c.Plain tree) {a : α}
    (fits : inRange (tree a) = true) : c.Kept a := by
  rw [Kept, plain.encode]
  exact ⟨plain.decode a, fits⟩

omit [Floats] in
theorem Float.lost {c : Codec α} {write : α → Option Json.Literal} {read : Json → Option α}
    (float : c.Float write read) {x : α} (infinite : write x = none) : c.Lost x := by
  rw [Lost, float.infinite infinite]
  exact float.null

theorem nat_inRange {n : Nat} (word : n < 2 ^ 64) : inRange (.num n) = true := by
  have fits : small n = true := by
    simp only [small, decide_eq_true_eq]
    omega
  simp only [inRange, fits, Bool.true_or]

variable [Crates] [Documented]

@[simp] theorem bool_kept (b : Bool) : Crates.bool.Kept b := Documented.bool.kept rfl

@[simp] theorem string_kept (s : String) : Crates.string.Kept s := Documented.string.kept rfl

@[simp] theorem u8_kept (n : UInt8) : Crates.u8.Kept n :=
  Documented.u8.kept (nat_inRange (Nat.lt_trans n.toNat_lt (by decide)))

@[simp] theorem u16_kept (n : UInt16) : Crates.u16.Kept n :=
  Documented.u16.kept (nat_inRange (Nat.lt_trans n.toNat_lt (by decide)))

@[simp] theorem u32_kept (n : UInt32) : Crates.u32.Kept n :=
  Documented.u32.kept (nat_inRange (Nat.lt_trans n.toNat_lt (by decide)))

@[simp] theorem u64_kept (n : UInt64) : Crates.u64.Kept n :=
  Documented.u64.kept (nat_inRange n.toNat_lt)

theorem f32_lost {x : Floats.Single} (infinite : Floats.writeSingle x = none) :
    Crates.f32.Lost x := Documented.f32.lost infinite

theorem f64_lost {x : Floats.Double} (infinite : Floats.writeDouble x = none) :
    Crates.f64.Lost x := Documented.f64.lost infinite

theorem option_kept {c : Codec α} (solid : ∀ a, c.encode a ≠ .null) (o : Option α) :
    (Crates.option c).Kept o ↔ ∀ a ∈ o, c.Kept a := by
  cases o with
  | none =>
    apply iff_of_true
    · rw [Kept, Documented.option_none]
      exact ⟨Documented.option_null, rfl⟩
    · exact fun _ none => by cases none
  | some a =>
    rw [Kept, Documented.option_some, Documented.option_solid (solid a)]
    simp [Kept]

@[simp] theorem list_kept (c : Codec α) (xs : List α) :
    (Crates.list c).Kept xs ↔ ∀ x ∈ xs, c.Kept x := by
  have each : (xs.map c.encode).mapM c.decode = some xs ↔
      ∀ x ∈ xs, c.decode (c.encode x) = some x := by
    rw [List.mapM_map]
    exact mapM_self_iff
  rw [Kept, Documented.list_encode, Documented.list_decode, each, inRange, inRangeItems_eq,
    List.all_map, List.all_eq_true, ← forall₂_and]
  rfl

theorem map_kept {c : Codec α} {d : Dict α} (kept : ∀ field ∈ d.fields, c.Kept field.2) :
    (Crates.map c).Kept d := by
  obtain ⟨fields, order, written⟩ := Documented.map_encode (c := c) (d := d)
  have kept : ∀ field ∈ fields, c.Kept field.2 := fun field here =>
    kept field (order.mem_iff.mp here)
  rw [Kept, written]
  constructor
  · exact Documented.map_decode order fun field here => (kept field here).1
  · rw [inRange, inRangeFields_eq, List.all_map, List.all_eq_true]
    exact fun field here => (kept field here).2

/-- A struct around one value is kept if the value is. -/
theorem newtype_kept {c : Codec β} {out : α → β} {into : β → α} (into_out : ∀ a, into (out a) = a)
    (out_into : ∀ b, out (into b) = b) (a : α) :
    (Crates.newtype c out into).Kept a ↔ c.Kept (out a) := by
  have reads : (c.decode (c.encode (out a))).map into = some a ↔
      c.decode (c.encode (out a)) = some (out a) := by
    rw [Option.map_eq_some_iff]
    constructor
    · rintro ⟨b, read, rfl⟩
      rw [read, out_into]
    · exact fun read => ⟨out a, read, into_out a⟩
  rw [Kept, Documented.newtype_encode, Documented.newtype_decode, reads, Kept]

theorem unitEnum_kept {tags : List α} {name : α → String}
    (named : ∀ a, tags.find? (fun b => name b = name a) = some a) (a : α) :
    (Crates.unitEnum tags name).Kept a := (Documented.unitEnum named).kept rfl

end Codec

/-! ## Fields -/

namespace Fields

variable {α : Type}

def Kept {α : Type} : Fields α → α → Prop
  | nil, _ => True
  | cons _ codec _ rest, (a, b) => codec.Kept a ∧ rest.Kept b

def Lost {α : Type} : Fields α → α → Prop
  | nil, _ => False
  | cons _ codec _ rest, (a, b) => codec.Lost a ∨ rest.Lost b

omit [Floats] in
theorem occurrences_encode {α : Type} (f : Fields α) {name : String} (unknown : name ∉ f.names)
    (a : α) : occurrences name (f.encode a) = [] := by
  induction f with
  | nil => rfl
  | cons other codec fallback rest ih =>
    have apart : other.toList ≠ name.toList := fun same =>
      List.ne_of_not_mem_cons unknown (String.toList_inj.mp same).symm
    rw [encode, occurrences_cons, if_neg apart, ih (List.not_mem_of_not_mem_cons unknown)]

variable [Crates]

theorem look_skip {α : Type} (f : Fields α) {cs : List Char}
    (unknown : ∀ name ∈ f.names, cs ≠ name.toList) (v : Json) (entries : List (List Char × Json)) :
    f.look ((cs, v) :: entries) = f.look entries := by
  induction f with
  | nil => rfl
  | cons name codec fallback rest ih =>
    obtain ⟨here, later⟩ := List.forall_mem_cons.mp unknown
    rw [look, look, occurrences_cons, if_neg here, ih later]

variable [Documented]

theorem look_encode_cons {α β : Type} {name : String} {codec : Codec α} {fallback : Option α}
    {rest : Fields β} (distinct : (cons name codec fallback rest).names.Nodup) (a : α) (b : β) :
    (cons name codec fallback rest).look ((cons name codec fallback rest).encode (a, b)) =
      (codec.decode (codec.encode a)).bind fun a =>
        (rest.look (rest.encode b)).bind fun b => some (a, b) := by
  obtain ⟨fresh, later⟩ := List.nodup_cons.mp distinct
  have unknown : ∀ other ∈ rest.names, name.toList ≠ other.toList := by
    rintro other known same
    exact fresh (String.toList_inj.mp same ▸ known)
  rw [encode, look, occurrences_cons, if_pos rfl, rest.occurrences_encode fresh,
    rest.look_skip unknown, Documented.field_once]
  rfl

/-- What was written is read, its numbers in range, if every field is. -/
theorem look_encode {α : Type} (f : Fields α) (distinct : f.names.Nodup) (a : α) :
    f.look (f.encode a) = some a ∧ inRangeFields (f.encode a) = true ↔ f.Kept a := by
  induction f with
  | nil => exact iff_of_true ⟨rfl, rfl⟩ trivial
  | cons name codec fallback rest ih =>
    obtain ⟨a, b⟩ := a
    rw [look_encode_cons distinct, Kept, ← ih (List.nodup_cons.mp distinct).2, Codec.Kept, encode,
      inRangeFields, Bool.and_eq_true]
    cases codec.decode (codec.encode a) <;> cases rest.look (rest.encode b) <;> simp
    tauto

/-- One field that is lost is enough. -/
theorem look_lost {α : Type} (f : Fields α) (distinct : f.names.Nodup) {a : α} (lost : f.Lost a) :
    f.look (f.encode a) = none := by
  induction f with
  | nil => exact lost.elim
  | cons name codec fallback rest ih =>
    obtain ⟨a, b⟩ := a
    rw [look_encode_cons distinct]
    rcases lost with here | later
    · rw [here, Option.bind_none]
    · rw [ih (List.nodup_cons.mp distinct).2 later]
      cases codec.decode (codec.encode a) <;> rfl

theorem field_perm {codec : Codec α} {fallback : Option α} {vs vs' : List Json}
    (perm : vs.Perm vs') : Crates.field codec fallback vs = Crates.field codec fallback vs' := by
  match vs, vs' with
  | [], vs' => rw [List.nil_perm.mp perm]
  | [v], vs' => rw [List.singleton_perm.mp perm]
  | _ :: _ :: _, vs' =>
    have twice : 2 ≤ vs'.length := by
      rw [← perm.length_eq]
      simp
    rw [Documented.field_duplicate (by simp), Documented.field_duplicate twice]

/-- Two objects that the fields cannot tell apart: each name has the same values,
in whatever order, among whatever else. -/
def Alike (names : List String) (entries entries' : List (List Char × Json)) : Prop :=
  ∀ name ∈ names, (occurrences name entries).Perm (occurrences name entries')

theorem look_alike {α : Type} (f : Fields α) {entries entries' : List (List Char × Json)}
    (alike : Alike f.names entries entries') : f.look entries = f.look entries' := by
  induction f with
  | nil => rfl
  | cons name codec fallback rest ih =>
    obtain ⟨here, later⟩ := List.forall_mem_cons.mp alike
    rw [look, look, field_perm here, ih later]

omit [Floats] [Crates] [Documented] in
/-- The fields that nothing stands for when they are absent. -/
def required {α : Type} : Fields α → List String
  | nil => []
  | cons name codec fallback rest =>
    if (fallback <|> codec.missing).isNone then name :: rest.required else rest.required

omit [Floats] [Crates] [Documented] in
theorem required_subset {α : Type} (f : Fields α) {name : String} (needed : name ∈ f.required) :
    name ∈ f.names := by
  induction f with
  | nil => cases needed
  | cons other codec fallback rest ih =>
    rw [required] at needed
    split at needed
    · rcases List.mem_cons.mp needed with rfl | needed
      · exact List.mem_cons_self
      · exact List.mem_cons_of_mem _ (ih needed)
    · exact List.mem_cons_of_mem _ (ih needed)

/-- A field that is named twice is an error, and so is one that is required and absent. -/
theorem look_eq_none {α : Type} (f : Fields α) {entries : List (List Char × Json)} {name : String}
    (wrong : name ∈ f.names ∧ 2 ≤ (occurrences name entries).length ∨
      name ∈ f.required ∧ occurrences name entries = []) : f.look entries = none := by
  induction f with
  | nil => rcases wrong with ⟨known, _⟩ | ⟨needed, _⟩ <;> contradiction
  | cons other codec fallback rest ih =>
    have later (failed : rest.look entries = none) :
        (cons other codec fallback rest).look entries = none := by
      rw [look, failed]
      cases Crates.field codec fallback (occurrences other entries) <;> rfl
    have here (failed : Crates.field codec fallback (occurrences other entries) = none) :
        (cons other codec fallback rest).look entries = none := by
      rw [look, failed]
      rfl
    rcases wrong with ⟨known, twice⟩ | ⟨needed, absent⟩
    · rcases List.mem_cons.mp known with rfl | known
      · exact here (Documented.field_duplicate twice)
      · exact later (ih (.inl ⟨known, twice⟩))
    · rw [required] at needed
      split at needed
      · rename_i nothing
        rcases List.mem_cons.mp needed with rfl | needed
        · apply here
          obtain ⟨rfl, missing⟩ : fallback = none ∧ codec.missing = none := by
            simpa using nothing
          rw [absent, Documented.field_missing, missing]
        · exact later (ih (.inr ⟨needed, absent⟩))
      · exact later (ih (.inr ⟨needed, absent⟩))

end Fields

/-- A struct is kept if each of its fields is. -/
theorem Codec.struct_kept {α σ : Type} [Crates] [Documented] {f : Fields α} {out : σ → α}
    {into : α → σ} (distinct : f.names.Nodup) (into_out : ∀ s, into (out s) = s)
    (out_into : ∀ a, out (into a) = a) (s : σ) :
    (Crates.struct f out into).Kept s ↔ f.Kept (out s) := by
  have reads : (f.look (f.encode (out s))).map into = some s ↔
      f.look (f.encode (out s)) = some (out s) := by
    rw [Option.map_eq_some_iff]
    constructor
    · rintro ⟨a, read, rfl⟩
      rw [read, out_into]
    · exact fun read => ⟨out s, read, into_out s⟩
  rw [Kept, Documented.struct_encode, Documented.struct_decode, Documented.by_name distinct, reads,
    inRange, Fields.look_encode f distinct]

/-! ## Tagged enums -/

namespace Variants

variable {σ : Type} (V : Variants σ)

def Kept (s : σ) : Prop := (V.fields (V.out s).1).Kept (V.out s).2

def Lost (s : σ) : Prop := (V.fields (V.out s).1).Lost (V.out s).2

omit [Floats] in
theorem occurrences_entries (s : σ) :
    occurrences V.key (V.entries s) = [.str (V.name (V.out s).1).toList] := by
  have fresh := (List.nodup_cons.mp (V.distinct (V.out s).1)).1
  rw [entries, occurrences_cons, if_pos rfl, Fields.occurrences_encode _ fresh]

variable [Crates] [Documented]

/-- The tag is none of the fields. -/
theorem visit_others (t : V.Tag) (entries : List (List Char × Json)) :
    Crates.visit (V.fields t) (others V.key entries) = (V.fields t).look entries := by
  obtain ⟨fresh, distinct⟩ := List.nodup_cons.mp (V.distinct t)
  rw [Documented.by_name distinct]
  apply Fields.look_alike
  intro name known
  have apart : name ≠ V.key := by
    rintro rfl
    exact fresh known
  rw [occurrences_others apart]

omit [Documented] in
theorem look_entries (s : σ) : (V.fields (V.out s).1).look (V.entries s) =
    (V.fields (V.out s).1).look ((V.fields (V.out s).1).encode (V.out s).2) := by
  have fresh := (List.nodup_cons.mp (V.distinct (V.out s).1)).1
  apply Fields.look_skip
  intro name known same
  exact fresh (String.toList_inj.mp same ▸ known)

omit [Crates] [Documented] in
theorem entries_inRange (s : σ) : inRangeFields (V.entries s) =
    inRangeFields ((V.fields (V.out s).1).encode (V.out s).2) := by
  rw [entries, inRangeFields]
  rfl

/-- What was written is read as it, its numbers in range, if every field is. -/
theorem look_kept (s : σ) : (V.fields (V.out s).1).look (V.entries s) = some (V.out s).2 ∧
    inRangeFields (V.entries s) = true ↔ V.Kept s := by
  rw [look_entries, entries_inRange]
  exact Fields.look_encode _ (List.nodup_cons.mp (V.distinct _)).2 _

theorem look_lost {s : σ} (lost : V.Lost s) :
    (V.fields (V.out s).1).look (V.entries s) = none := by
  rw [look_entries]
  exact Fields.look_lost _ (List.nodup_cons.mp (V.distinct _)).2 lost

omit [Floats] [Crates] [Documented] in
/-- What is read as the payload of a value's variant is the value. -/
theorem into_eq_iff (s : σ) (read : Option (V.Payload (V.out s).1)) :
    read.map (fun p => V.into ⟨(V.out s).1, p⟩) = some s ↔ read = some (V.out s).2 := by
  rw [Option.map_eq_some_iff]
  constructor
  · rintro ⟨p, rfl, same⟩
    have payload : (⟨(V.out s).1, p⟩ : (t : V.Tag) × V.Payload t) = V.out s := by
      rw [← V.out_into ⟨_, p⟩, same]
    rw [Option.some_inj]
    exact eq_of_heq (Sigma.mk.inj payload).2
  · exact fun read => ⟨_, read, V.into_out s⟩

/-- **An object is read as a value exactly if its one tag is that of the value's
variant, and the fields are read as the value's.** -/
theorem fromStr_obj {text : String} {entries : List (List Char × Json)}
    (holds : Crates.content text = some (.obj entries)) (s : σ) :
    Crates.fromStr V text = some s ↔
      occurrences V.key entries = [.str (V.name (V.out s).1).toList] ∧
        (V.fields (V.out s).1).look entries = some (V.out s).2 := by
  have reads (tagged : occurrences V.key entries = [.str (V.name (V.out s).1).toList]) :
      Crates.fromStr V text = some s ↔
        (V.fields (V.out s).1).look entries = some (V.out s).2 := by
    rw [Documented.fields holds tagged, visit_others, into_eq_iff]
  constructor
  · intro read
    have tagged : occurrences V.key entries = [.str (V.name (V.out s).1).toList] := by
      have named := Documented.tag holds read
      rw [tag?] at named
      split at named
      · rename_i v one
        rw [one, Option.some_inj.mp named]
      · cases named
    exact ⟨tagged, (reads tagged).mp read⟩
  · rintro ⟨tagged, looked⟩
    exact (reads tagged).mpr looked

/-- No value is read where a required field of the variant is absent, or a field
of it stands twice. -/
theorem fromStr_wrong (name : String) {text : String} {entries : List (List Char × Json)}
    (holds : Crates.content text = some (.obj entries)) {t : V.Tag}
    (tagged : occurrences V.key entries = [.str (V.name t).toList])
    (wrong : name ∈ (V.fields t).names ∧ 2 ≤ (occurrences name entries).length ∨
      name ∈ (V.fields t).required ∧ occurrences name entries = []) :
    Crates.fromStr V text = none := by
  rw [Documented.fields holds tagged, visit_others, (V.fields t).look_eq_none wrong,
    Option.map_none]

/-- No text is read as two enums that share their tag's key but no name. -/
theorem fromStr_apart {τ : Type} {V : Variants σ} {W : Variants τ} (key : V.key = W.key)
    (apart : ∀ t u, V.name t ≠ W.name u) {text : String} {s : σ}
    (read : Crates.fromStr V text = some s) : Crates.fromStr W text = none := by
  cases holds : Crates.content text with
  | none => exact Documented.unread holds
  | some v =>
    cases other : Crates.fromStr W text with
    | none => rfl
    | some u =>
      have same : V.tag? v = W.tag? v := by
        cases v <;> simp only [tag?, key]
      have names := (Documented.tag holds read).symm.trans
        (same.trans (Documented.tag holds other))
      exact absurd (String.toList_inj.mp (Json.str.inj (Option.some.inj names))) (apart _ _)

/-- **A value is read back from its text exactly if each of its fields is kept and it is
not nested too deep.** -/
theorem fromStr_toString (s : σ) : Crates.fromStr V (Crates.toString V s) = some s ↔
    V.Kept s ∧ (Json.obj (V.entries s)).depth < recursionLimit := by
  rw [← look_kept]
  by_cases shallow : (Json.obj (V.entries s)).depth < recursionLimit
  · cases fits : inRangeFields (V.entries s) with
    | false =>
      rw [Documented.unread (Documented.out_of_range fits)]
      simp
    | true =>
      rw [fromStr_obj V (Documented.written shallow fits)]
      simp [shallow, occurrences_entries]
  · rw [Documented.unread (Documented.too_deep (Nat.not_lt.mp shallow))]
    simp [shallow]

/-- What is lost is not read back, and neither is what is nested too deep. -/
theorem fromStr_lost {s : σ}
    (bad : V.Lost s ∨ recursionLimit ≤ (Json.obj (V.entries s)).depth) :
    Crates.fromStr V (Crates.toString V s) = none := by
  by_cases deep : recursionLimit ≤ (Json.obj (V.entries s)).depth
  · exact Documented.unread (Documented.too_deep deep)
  · have lost := bad.resolve_right deep
    cases fits : inRangeFields (V.entries s) with
    | false => exact Documented.unread (Documented.out_of_range fits)
    | true =>
      rw [Documented.fields (Documented.written (Nat.not_le.mp deep) fits)
        (V.occurrences_entries s), visit_others, V.look_lost lost, Option.map_none]

end Variants

namespace Codec

variable {σ : Type} [Crates] [Documented]

/-- A tagged enum inside another value. -/
@[simp] theorem tagged_kept (V : Variants σ) (s : σ) : (Crates.tagged V).Kept s ↔ V.Kept s := by
  rw [Kept, Documented.tagged_encode, Documented.tagged_decode (V.occurrences_entries s),
    V.visit_others, V.into_eq_iff, inRange, V.look_kept]

theorem tagged_lost {V : Variants σ} {s : σ} (lost : V.Lost s) : (Crates.tagged V).Lost s := by
  rw [Lost, Documented.tagged_encode, Documented.tagged_decode (V.occurrences_entries s),
    V.visit_others, V.look_lost lost, Option.map_none]

end Codec

end

end Serde
