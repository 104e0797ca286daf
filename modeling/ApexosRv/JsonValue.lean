import ApexosRv.Derive
import Mathlib.Data.String.Basic

/-!
# Dynamic values

A `Value` is any JSON: its objects are maps, so their keys are in order and
different, its integers fit a word, and its floats are finite. Reading a text
gives a map the last of the values a key has there; so it does for a map of
strings to values of one type.
-/

/-! ## Maps by their sorted keys -/

namespace SortedMap

variable {β : Type}

def Sorted (fields : List (String × β)) : Prop := fields.Pairwise fun a b => a.1 < b.1

def insert (key : String) (value : β) : List (String × β) → List (String × β)
  | [] => [(key, value)]
  | (other, v) :: rest =>
    if key < other then (key, value) :: (other, v) :: rest
    else if key = other then (key, value) :: rest
    else (other, v) :: insert key value rest

theorem insert_above {fields : List (String × β)} {key : String}
    (above : ∀ field ∈ fields, field.1 < key) (value : β) :
    insert key value fields = fields ++ [(key, value)] := by
  induction fields with
  | nil => rfl
  | cons field rest ih =>
    obtain ⟨other, v⟩ := field
    obtain ⟨here, later⟩ := List.forall_mem_cons.mp above
    rw [insert, if_neg (lt_asymm here), if_neg (ne_of_gt here), ih later]
    rfl

theorem mem_insert {fields : List (String × β)} {key : String} {value : β} {field : String × β}
    (here : field ∈ insert key value fields) : field = (key, value) ∨ field ∈ fields := by
  induction fields with
  | nil => exact .inl (List.mem_singleton.mp here)
  | cons other rest ih =>
    rw [insert] at here
    split at here
    · exact List.mem_cons.mp here
    split at here
    · exact (List.mem_cons.mp here).imp_right (List.mem_cons_of_mem _)
    · rcases List.mem_cons.mp here with same | later
      · exact .inr (same ▸ List.mem_cons_self)
      · exact (ih later).imp_right (List.mem_cons_of_mem _)

theorem insert_sorted {fields : List (String × β)} (sorted : Sorted fields) (key : String)
    (value : β) : Sorted (insert key value fields) := by
  induction fields with
  | nil => exact List.pairwise_singleton _ _
  | cons field rest ih =>
    obtain ⟨other, v⟩ := field
    obtain ⟨first, later⟩ := List.pairwise_cons.mp sorted
    rw [insert]
    split
    · rename_i below
      apply List.pairwise_cons.mpr
      refine ⟨?_, sorted⟩
      intro field here
      rcases List.mem_cons.mp here with rfl | here
      · exact below
      · exact lt_trans below (first field here)
    split
    · rename_i same
      exact List.pairwise_cons.mpr ⟨fun field here => same ▸ first field here, later⟩
    · rename_i above apart
      apply List.pairwise_cons.mpr
      refine ⟨?_, ih later⟩
      intro field here
      rcases mem_insert here with rfl | here
      · exact lt_of_le_of_ne (not_lt.mp above) (Ne.symm apart)
      · exact first field here

def ofList (fields : List (String × β)) : List (String × β) :=
  fields.foldl (fun map field => insert field.1 field.2 map) []

theorem foldl_sorted {fields : List (String × β)} (more : List (String × β))
    (sorted : Sorted fields) :
    Sorted (more.foldl (fun map field => insert field.1 field.2 map) fields) := by
  induction more generalizing fields with
  | nil => exact sorted
  | cons field more ih => exact ih (insert_sorted sorted _ _)

theorem ofList_sorted (fields : List (String × β)) : Sorted (ofList fields) :=
  foldl_sorted fields .nil

theorem mem_ofList {fields : List (String × β)} {field : String × β}
    (here : field ∈ ofList fields) : field ∈ fields := by
  have from_map : ∀ (more map : List (String × β)),
      field ∈ more.foldl (fun map field => insert field.1 field.2 map) map →
        field ∈ map ∨ field ∈ more := by
    intro more
    induction more with
    | nil => exact fun map here => .inl here
    | cons other more ih =>
      intro map here
      rcases ih _ here with inserted | later
      · rcases mem_insert inserted with rfl | held
        · exact .inr List.mem_cons_self
        · exact .inl held
      · exact .inr (List.mem_cons_of_mem _ later)
  exact (from_map fields [] here).resolve_left List.not_mem_nil

theorem sorted_iff (fields : List (String × β)) :
    Sorted fields ↔ (fields.map Prod.fst).Pairwise (· < ·) :=
  List.pairwise_map.symm

/-- Entries that are in order already are the map they make. -/
theorem ofList_of_sorted {fields : List (String × β)} (sorted : Sorted fields) :
    ofList fields = fields := by
  have from_map : ∀ (more map : List (String × β)), Sorted (map ++ more) →
      more.foldl (fun map field => insert field.1 field.2 map) map = map ++ more := by
    intro more
    induction more with
    | nil => exact fun map _ => (List.append_nil map).symm
    | cons field more ih =>
      obtain ⟨key, value⟩ := field
      intro map sorted
      have above : ∀ other ∈ map, other.1 < key := fun other here =>
        (List.pairwise_append.mp sorted).2.2 other here _ List.mem_cons_self
      have moved : map ++ (key, value) :: more = (map ++ [(key, value)]) ++ more := by simp
      rw [List.foldl_cons, insert_above above, ih _ (moved ▸ sorted), moved]
  exact from_map fields [] sorted

theorem insert_perm {fields : List (String × β)} {key : String}
    (fresh : ∀ field ∈ fields, field.1 ≠ key) (value : β) :
    (insert key value fields).Perm ((key, value) :: fields) := by
  induction fields with
  | nil => exact .refl _
  | cons field rest ih =>
    obtain ⟨other, v⟩ := field
    obtain ⟨apart, later⟩ := List.forall_mem_cons.mp fresh
    rw [insert]
    split
    · exact .refl _
    · rw [if_neg (Ne.symm apart)]
      exact ((ih later).cons _).trans (.swap _ _ _)

/-- Entries of a map, in whatever order, make it. -/
theorem ofList_perm {fields map : List (String × β)} (order : fields.Perm map)
    (sorted : Sorted map) : ofList fields = map := by
  have distinct : (fields.map Prod.fst).Nodup :=
    (order.map Prod.fst).nodup_iff.mpr (((sorted_iff map).mp sorted).imp ne_of_lt)
  have from_map : ∀ (more map : List (String × β)), ((map ++ more).map Prod.fst).Nodup →
      (more.foldl (fun map field => insert field.1 field.2 map) map).Perm (map ++ more) := by
    intro more
    induction more with
    | nil => exact fun map _ => by simp
    | cons field more ih =>
      intro map distinct
      have swapped : (map ++ field :: more).Perm (field :: map ++ more) := List.perm_middle
      have distinct : ((field :: map ++ more).map Prod.fst).Nodup :=
        (swapped.map Prod.fst).nodup_iff.mp distinct
      have fresh : ∀ other ∈ map, other.1 ≠ field.1 := by
        intro other here same
        exact (List.nodup_cons.mp distinct).1 (List.mem_map.mpr
          ⟨other, List.mem_append_left _ here, same⟩)
      have inserted := insert_perm fresh field.2
      have moved := inserted.append_right more
      exact (ih _ ((moved.map Prod.fst).nodup_iff.mpr distinct)).trans (moved.trans swapped.symm)
  have same : (ofList fields).Perm map := (from_map fields [] distinct).trans order
  exact same.eq_of_pairwise (fun a b _ _ below above => absurd below (lt_asymm above))
    (ofList_sorted fields) sorted

end SortedMap

namespace Serde

section
variable [Floats]

/-! ## Values -/

inductive Tree where
  | null
  | bool (b : Bool)
  | int (i : Int)
  | float (x : Floats.Double)
  | string (s : String)
  | array (items : List Tree)
  | object (fields : List (String × Tree))

namespace Tree

mutual

def encode : Tree → Json
  | null => .null
  | bool b => .bool b
  | int i => .num i
  | float x =>
    match Floats.writeDouble x with
    | some l => .real l
    | none => .null
  | string s => .str s.toList
  | array items => .arr (encodeItems items)
  | object fields => .obj (encodeFields fields)

def encodeItems : List Tree → List Json
  | [] => []
  | t :: rest => t.encode :: encodeItems rest

def encodeFields : List (String × Tree) → List (List Char × Json)
  | [] => []
  | (key, t) :: rest => (key.toList, t.encode) :: encodeFields rest

end

mutual

def ofJson : Json → Option Tree
  | .null => some null
  | .bool b => some (bool b)
  | .num i => if small i then some (int i) else (Floats.readDouble (.num i)).map float
  | .real l => (Floats.readDouble (.real l)).map float
  | .str s => some (string (String.ofList s))
  | .arr items => (ofItems items).map array
  | .obj fields => (ofFields fields).map fun fields => object (SortedMap.ofList fields)

def ofItems : List Json → Option (List Tree)
  | [] => some []
  | v :: rest => do
    let t ← ofJson v
    let later ← ofItems rest
    some (t :: later)

def ofFields : List (List Char × Json) → Option (List (String × Tree))
  | [] => some []
  | (key, v) :: rest => do
    let t ← ofJson v
    let later ← ofFields rest
    some ((String.ofList key, t) :: later)

end

mutual

/-- What `serde_json::Value` can hold. -/
def Valid : Tree → Prop
  | int i => small i = true
  | float x => (Floats.writeDouble x).isSome = true
  | array items => ValidItems items
  | object fields => SortedMap.Sorted fields ∧ ValidFields fields
  | _ => True

def ValidItems : List Tree → Prop
  | [] => True
  | t :: rest => t.Valid ∧ ValidItems rest

def ValidFields : List (String × Tree) → Prop
  | [] => True
  | (_, t) :: rest => t.Valid ∧ ValidFields rest

end

theorem validFields_iff (fields : List (String × Tree)) :
    ValidFields fields ↔ ∀ field ∈ fields, field.2.Valid := by
  induction fields with
  | nil => simp [ValidFields]
  | cons field rest ih => rw [ValidFields, ih, List.forall_mem_cons]

mutual

/-- What is read is valid. -/
theorem ofJson_valid : ∀ (v : Json) {t : Tree}, ofJson v = some t → t.Valid
  | .null, _, read => by cases read; trivial
  | .bool b, _, read => by cases read; trivial
  | .num i, t, read => by
    rw [ofJson] at read
    split at read
    · rename_i fits
      cases read
      exact fits
    · obtain ⟨x, back, rfl⟩ := Option.map_eq_some_iff.mp read
      exact Floats.finite back
  | .real l, t, read => by
    obtain ⟨x, back, rfl⟩ := Option.map_eq_some_iff.mp read
    exact Floats.finite back
  | .str s, _, read => by cases read; trivial
  | .arr items, t, read => by
    obtain ⟨ts, all, rfl⟩ := Option.map_eq_some_iff.mp read
    exact ofItems_valid items all
  | .obj fields, t, read => by
    obtain ⟨ts, all, rfl⟩ := Option.map_eq_some_iff.mp read
    refine ⟨SortedMap.ofList_sorted ts, (validFields_iff _).mpr ?_⟩
    intro field here
    exact (validFields_iff ts).mp (ofFields_valid fields all) field (SortedMap.mem_ofList here)

theorem ofItems_valid : ∀ (items : List Json) {ts : List Tree}, ofItems items = some ts →
    ValidItems ts
  | [], _, read => by cases read; trivial
  | v :: rest, ts, read => by
    obtain ⟨t, here, read⟩ := Option.bind_eq_some_iff.mp read
    obtain ⟨later, all, same⟩ := Option.bind_eq_some_iff.mp read
    cases same
    exact ⟨ofJson_valid v here, ofItems_valid rest all⟩

theorem ofFields_valid : ∀ (fields : List (List Char × Json)) {ts : List (String × Tree)},
    ofFields fields = some ts → ValidFields ts
  | [], _, read => by cases read; trivial
  | (key, v) :: rest, ts, read => by
    obtain ⟨t, here, read⟩ := Option.bind_eq_some_iff.mp read
    obtain ⟨later, all, same⟩ := Option.bind_eq_some_iff.mp read
    cases same
    exact ⟨ofJson_valid v here, ofFields_valid rest all⟩

end

mutual

/-- Whatever is in range is some value. -/
theorem ofJson_inRange : ∀ (v : Json), inRange v = true → (ofJson v).isSome = true
  | .null, _ => rfl
  | .bool _, _ => rfl
  | .num i, fits => by
    rw [inRange, Bool.or_eq_true] at fits
    rw [ofJson]
    split
    · rfl
    · rename_i large
      simpa using fits.resolve_left large
  | .real l, fits => by simpa [ofJson, inRange] using fits
  | .str _, _ => rfl
  | .arr items, fits => by simpa [ofJson] using ofItems_inRange items fits
  | .obj fields, fits => by simpa [ofJson] using ofFields_inRange fields fits

theorem ofItems_inRange : ∀ (items : List Json), inRangeItems items = true →
    (ofItems items).isSome = true
  | [], _ => rfl
  | v :: rest, fits => by
    obtain ⟨here, later⟩ := Bool.and_eq_true_iff.mp fits
    obtain ⟨t, read⟩ := Option.isSome_iff_exists.mp (ofJson_inRange v here)
    obtain ⟨ts, all⟩ := Option.isSome_iff_exists.mp (ofItems_inRange rest later)
    simp [ofItems, read, all]

theorem ofFields_inRange : ∀ (fields : List (List Char × Json)), inRangeFields fields = true →
    (ofFields fields).isSome = true
  | [], _ => rfl
  | (key, v) :: rest, fits => by
    obtain ⟨here, later⟩ := Bool.and_eq_true_iff.mp fits
    obtain ⟨t, read⟩ := Option.isSome_iff_exists.mp (ofJson_inRange v here)
    obtain ⟨ts, all⟩ := Option.isSome_iff_exists.mp (ofFields_inRange rest later)
    simp [ofFields, read, all]

end

mutual

/-- Each float is read back from its text. -/
def Kept : Tree → Prop
  | float x => ∀ l, Floats.writeDouble x = some l → Floats.readDouble (.real l) = some x
  | array items => KeptItems items
  | object fields => KeptFields fields
  | _ => True

def KeptItems : List Tree → Prop
  | [] => True
  | t :: rest => t.Kept ∧ KeptItems rest

def KeptFields : List (String × Tree) → Prop
  | [] => True
  | (_, t) :: rest => t.Kept ∧ KeptFields rest

end

mutual

/-- What is valid and kept is read back, and its numbers are in range. -/
theorem ofJson_encode : ∀ (t : Tree), t.Valid → t.Kept →
    ofJson t.encode = some t ∧ inRange t.encode = true
  | null, _, _ => ⟨rfl, rfl⟩
  | bool b, _, _ => ⟨rfl, rfl⟩
  | int i, valid, _ => by
    have fits : small i = true := valid
    simp [encode, ofJson, inRange, fits]
  | float x, valid, kept => by
    obtain ⟨l, written⟩ := Option.isSome_iff_exists.mp valid
    have back := kept l written
    simp [encode, written, ofJson, inRange, back]
  | string s, _, _ => by simp [encode, ofJson, inRange]
  | array items, valid, kept => by
    obtain ⟨read, ranged⟩ := ofItems_encode items valid kept
    simp [encode, ofJson, inRange, read, ranged]
  | object fields, ⟨sorted, valid⟩, kept => by
    obtain ⟨read, ranged⟩ := ofFields_encode fields valid kept
    simp [encode, ofJson, inRange, read, ranged, SortedMap.ofList_of_sorted sorted]

theorem ofItems_encode : ∀ (items : List Tree), ValidItems items → KeptItems items →
    ofItems (encodeItems items) = some items ∧ inRangeItems (encodeItems items) = true
  | [], _, _ => ⟨rfl, rfl⟩
  | t :: rest, ⟨valid, laterValid⟩, ⟨kept, laterKept⟩ => by
    obtain ⟨read, ranged⟩ := ofJson_encode t valid kept
    obtain ⟨later, laterRanged⟩ := ofItems_encode rest laterValid laterKept
    simp [encodeItems, ofItems, inRangeItems, read, ranged, later, laterRanged]

theorem ofFields_encode : ∀ (fields : List (String × Tree)), ValidFields fields →
    KeptFields fields →
    ofFields (encodeFields fields) = some fields ∧ inRangeFields (encodeFields fields) = true
  | [], _, _ => ⟨rfl, rfl⟩
  | (key, t) :: rest, ⟨valid, laterValid⟩, ⟨kept, laterKept⟩ => by
    obtain ⟨read, ranged⟩ := ofJson_encode t valid kept
    obtain ⟨later, laterRanged⟩ := ofFields_encode rest laterValid laterKept
    simp [encodeFields, ofFields, inRangeFields, read, ranged, later, laterRanged]

end

end Tree

/-- `serde_json::Value`. -/
structure Value where
  tree : Tree
  valid : tree.Valid

namespace Value

def null : Value := ⟨.null, trivial⟩

def encode (v : Value) : Json := v.tree.encode

def decode (v : Json) : Option Value :=
  (Tree.ofJson v).pmap (fun tree valid => ⟨tree, valid⟩) fun _ read => Tree.ofJson_valid v read

theorem decode_inRange {v : Json} (fits : inRange v = true) : (decode v).isSome = true := by
  rw [decode, Option.isSome_pmap]
  exact Tree.ofJson_inRange v fits

def codec : Codec Value where
  encode := encode
  decode := decode
  missing := none

theorem codec_kept {v : Value} (kept : v.tree.Kept) : codec.Kept v := by
  obtain ⟨tree, valid⟩ := v
  obtain ⟨read, fits⟩ := tree.ofJson_encode valid kept
  refine ⟨?_, fits⟩
  simp only [codec, decode, encode, read, Option.pmap_some]

end Value

end

namespace Dict

variable {α : Type}

def readFields (c : Codec α) (entries : List (List Char × Json)) : Option (List (String × α)) :=
  entries.mapM fun (key, v) => (c.decode v).map fun a => (String.ofList key, a)

def writeFields (c : Codec α) (fields : List (String × α)) : List (List Char × Json) :=
  fields.map fun (key, a) => (key.toList, c.encode a)

theorem readFields_writeFields {c : Codec α} {fields : List (String × α)}
    (reads : ∀ field ∈ fields, c.decode (c.encode field.2) = some field.2) :
    readFields c (writeFields c fields) = some fields := by
  rw [readFields, writeFields, List.mapM_map]
  apply mapM_self_iff.mpr
  intro field here
  simp [reads field here]

def codec (c : Codec α) : Codec (Dict α) where
  encode d := .obj (writeFields c d.fields)
  decode
    | .obj entries => (readFields c entries).map fun fields =>
      ⟨SortedMap.ofList fields, SortedMap.ofList_sorted fields⟩
    | _ => none
  missing := none

/-- The entries of a map make it, in whatever order they stand. -/
theorem decode_perm {c : Codec α} {d : Dict α} {fields : List (String × α)}
    (order : fields.Perm d.fields)
    (reads : ∀ field ∈ fields, c.decode (c.encode field.2) = some field.2) :
    (codec c).decode (.obj (writeFields c fields)) = some d := by
  obtain ⟨kept, sorted⟩ := d
  simp only [codec, readFields_writeFields reads, Option.map_some,
    SortedMap.ofList_perm order sorted]

end Dict

end Serde
