import ApexosRv.Contract
import ApexosRv.SerdeImpl

/-!
# The contract as text

What the crates write for an event and read as one, as far as they are documented.
An event is read back exactly if its floats are and it is not nested too deep
(`event_text`); a text is read by the fields its variant has, in whatever order and
among whatever else (`event_fields`).
-/

namespace ApexosRv

namespace Contract

open Serde

section
variable [Floats] [Crates]

/-! ## Floats and values inside an event -/

def SensorReading.singles : SensorReading → List Floats.Single
  | temperature celsius _ => [celsius]
  | humidity percent _ => [percent]
  | pressure hpa _ => [hpa]
  | distance cm _ => [cm]
  | airQuality iaq co2EqPpm vocPpm _ temperatureC humidityPct pressureHpa _ =>
    [iaq, co2EqPpm, vocPpm, temperatureC, humidityPct, pressureHpa]
  | thermalFrame minC maxC meanC _ => [minC, maxC, meanC]
  | motion _ _ => []
  | gpioLevel _ _ => []

namespace Event

def singles : Event → List Floats.Single
  | sensorReading _ reading _ => reading.singles
  | councilRoundDone _ _ convergence _ => [convergence]
  | _ => []

def doubles : Event → List Floats.Double
  | vastInstanceLaunched _ _ costPerHr => [costPerHr]
  | _ => []

def values : Event → List Crates.Value
  | toolRequested _ call => [call.args]
  | toolResult _ _ output => [output.content]
  | pluginUp _ tools => tools.map ToolSpec.inputSchema
  | approvalPending _ call => [call.args]
  | _ => []

/-- Every float of an event is read back from its text. -/
structure Exact (e : Event) : Prop where
  singles : ∀ x ∈ e.singles, Crates.f32.Kept x
  doubles : ∀ x ∈ e.doubles, Crates.f64.Kept x
  values : ∀ v ∈ e.values, Crates.value.Kept v

/-- A float of an event is infinite or not a number. -/
def Unbounded (e : Event) : Prop :=
  (∃ x ∈ e.singles, Floats.writeSingle x = none) ∨ ∃ x ∈ e.doubles, Floats.writeDouble x = none

theorem exact_iff (e : Event) : e.Exact ↔ (∀ x ∈ e.singles, Crates.f32.Kept x) ∧
    (∀ x ∈ e.doubles, Crates.f64.Kept x) ∧ ∀ v ∈ e.values, Crates.value.Kept v :=
  ⟨fun ⟨singles, doubles, values⟩ => ⟨singles, doubles, values⟩,
    fun ⟨singles, doubles, values⟩ => ⟨singles, doubles, values⟩⟩

section
variable [Documented]

theorem reading_kept (reading : SensorReading) :
    SensorReading.variants.Kept reading ↔ ∀ x ∈ reading.singles, Crates.f32.Kept x := by
  unfold Variants.Kept
  cases reading <;> simp [SensorReading.variants, Fields.Kept, SensorReading.singles]

theorem proposal_kept (proposal : EvolutionProposal) :
    EvolutionProposal.variants.Kept proposal := by
  unfold Variants.Kept
  cases proposal <;> simp [EvolutionProposal.variants, Fields.Kept]

theorem kept_iff (e : Event) : variants.Kept e ↔ e.Exact := by
  rw [exact_iff]
  unfold Variants.Kept
  cases e <;>
    simp [variants, Fields.Kept, singles, doubles, values, reading_kept, proposal_kept]

theorem reading_lost {reading : SensorReading} {x : Floats.Single} (here : x ∈ reading.singles)
    (unbounded : Floats.writeSingle x = none) : SensorReading.variants.Lost reading := by
  have lost := Codec.f32_lost unbounded
  unfold Variants.Lost
  cases reading <;> simp [SensorReading.variants, Fields.Lost, SensorReading.singles] at here ⊢ <;>
    grind

theorem lost_of_unbounded {e : Event} (unbounded : e.Unbounded) : variants.Lost e := by
  unfold Variants.Lost
  rcases unbounded with ⟨x, here, unwritten⟩ | ⟨x, here, unwritten⟩
  · cases e with
    | sensorReading nodeId reading timestamp =>
      exact .inr (.inl (Codec.tagged_lost (reading_lost here unwritten)))
    | councilRoundDone councilId round convergence agreements =>
      cases List.mem_singleton.mp here
      exact .inr (.inr (.inl (Codec.f32_lost unwritten)))
    | _ => cases here
  · cases e with
    | vastInstanceLaunched instanceId recipe costPerHr =>
      cases List.mem_singleton.mp here
      exact .inr (.inr (.inl (Codec.f64_lost unwritten)))
    | _ => cases here

end

/-! ## Texts -/

def toText (e : Event) : String := Crates.toString variants e

def fromText (text : String) : Option Event := Crates.fromStr variants text

/-- The variant of an event. -/
def tag (e : Event) : Tag := (variants.out e).1

/-- How deep the JSON of an event is nested. -/
def depth (e : Event) : Nat := (Json.obj (variants.entries e)).depth

variable [Documented]

theorem read_back_iff (e : Event) :
    fromText e.toText = some e ↔ e.Exact ∧ e.depth < recursionLimit := by
  rw [← kept_iff]
  exact variants.fromStr_toString e

theorem unread_of_bad {e : Event} (bad : e.Unbounded ∨ recursionLimit ≤ e.depth) :
    fromText e.toText = none :=
  variants.fromStr_lost (bad.imp_left lost_of_unbounded)

/-- **An event is read back exactly if its floats are and the text is not too deep.**
If it holds a float that is infinite or not a number, nothing is read. -/
theorem event_text (e : Event) :
    (fromText e.toText = some e ↔ e.Exact ∧ e.depth < recursionLimit) ∧
      (e.Unbounded ∨ recursionLimit ≤ e.depth → fromText e.toText = none) :=
  ⟨read_back_iff e, unread_of_bad⟩

end Event

end

section
attribute [local instance] Floats.asText textCrates text_documented

/-- The tool call of `proto.rs`, with an argument object. -/
def recalled : Event :=
  .toolRequested ⟨1⟩ ⟨⟨7⟩, "cerebro.recall",
    ⟨.object [("k", .int 3), ("query", .string "hart 0 online")], by
      have order : SortedMap.Sorted [("k", Tree.int 3), ("query", .string "hart 0 online")] :=
        List.pairwise_pair.mpr (by decide)
      exact ⟨order, rfl, trivial, trivial⟩⟩, false⟩

theorem recalled_exact : recalled.Exact ∧ recalled.depth < recursionLimit := by
  constructor
  · constructor
    · simp [recalled, Event.singles]
    · simp [recalled, Event.doubles]
    · intro v here
      cases List.mem_singleton.mp here
      exact Value.codec_kept (by simp [Tree.Kept, Tree.KeptFields])
  · decide +kernel

theorem recalled_text : Event.fromText recalled.toText = some recalled :=
  (Event.event_text recalled).1.mpr recalled_exact

end

namespace Event

variable [Floats] [Crates] [Documented]

/-- **A text is read by the fields of its variant.** An object is read as an event
exactly if its one `type` names the event's variant and each field of the variant,
taken by itself, is read as the event's; so no field of it stands twice, those
without a default stand once, and the order of the fields and what other fields
there are do not matter. -/
theorem event_fields {text : String} {entries : List (List Char × Json)}
    (holds : Crates.content text = some (.obj entries)) (e : Event) :
    (fromText text = some e ↔
      occurrences "type" entries = [.str (name e.tag).toList] ∧
        (variants.fields e.tag).look entries = some (variants.out e).2) ∧
    (fromText text = some e →
      (∀ field ∈ (variants.fields e.tag).names, (occurrences field entries).length ≤ 1) ∧
      (∀ field ∈ (variants.fields e.tag).required, (occurrences field entries).length = 1) ∧
      ∀ (text' : String) (entries' : List (List Char × Json)),
        Crates.content text' = some (.obj entries') →
        Fields.Alike ("type" :: (variants.fields e.tag).names) entries entries' →
        fromText text' = some e) := by
  refine ⟨variants.fromStr_obj holds e, ?_⟩
  intro read
  obtain ⟨tagged, looked⟩ := (variants.fromStr_obj holds e).mp read
  have once : ∀ field ∈ (variants.fields e.tag).names, (occurrences field entries).length ≤ 1 := by
    intro field known
    by_contra twice
    have failed := (variants.fields e.tag).look_eq_none
      (.inl ⟨known, Nat.lt_of_not_le twice⟩)
    exact absurd (failed.symm.trans looked) (by simp)
  refine ⟨once, ?_, ?_⟩
  · intro field needed
    have present : occurrences field entries ≠ [] := by
      intro absent
      have failed := (variants.fields e.tag).look_eq_none (.inr ⟨needed, absent⟩)
      exact absurd (failed.symm.trans looked) (by simp)
    have some_value := List.length_pos_iff.mpr present
    have bound := once field ((variants.fields e.tag).required_subset needed)
    omega
  · intro text' entries' holds' alike
    apply (variants.fromStr_obj holds' e).mpr
    obtain ⟨here, later⟩ := List.forall_mem_cons.mp alike
    constructor
    · have same := tagged ▸ here
      exact (List.singleton_perm.mp same).symm
    · exact ((variants.fields e.tag).look_alike later).symm.trans looked

end Event

section
attribute [local instance] Floats.asText textCrates text_documented

/-- A delta out of order, beside a field that its variant does not have. -/
def shuffled : List (List Char × Json) :=
  [("future".toList, .null), ("delta".toList, .str "hi".toList),
    ("type".toList, .str "agent_text".toList), ("session".toList, .num 7)]

theorem shuffled_delta : Event.fromText (String.ofList (Json.obj shuffled).print) =
    some (.agentText ⟨7⟩ "hi") := by
  have holds : Crates.content (String.ofList (Json.obj shuffled).print) =
      some (.obj shuffled) := content_print rfl
  apply (Event.event_fields holds (.agentText ⟨7⟩ "hi")).1.mpr
  constructor
  · simp [shuffled, occurrences_cons, Event.tag, Event.variants, Event.name]
  · simp [shuffled, occurrences_cons, Event.tag, Event.variants, Event.shape, Fields.look]
    rfl

end

end Contract

end ApexosRv
