import ApexosRv.Lineage

/-!
# The cancel cascade over arbitrary registrations

`registerChild` looks at neither argument. The cascade survives cycles, unknown
parents and registrations in any order, since a registration stores its child
without children; a session registered under itself is all that makes it
endless, and a session listed twice all that makes it repeat itself
(`cascade_survives_iff`).
-/

namespace ApexosRv

namespace SystemState

/-- The cascade from `root` returns. -/
def Ends (s : SystemState) (root : SessionId) : Prop :=
  ∃ fuel out, s.subtree root fuel = some out

/-- No session is registered under itself. -/
def Call.Apart : Call → Prop
  | .apply _ => True
  | .registerChild child parent => child ≠ parent

/-- No session is registered under itself, nor one that a session lists
already. -/
def Unlisted (s : SystemState) : Call → Prop
  | .apply _ => True
  | .registerChild child parent => child ≠ parent ∧ ∀ id, child ∉ s.spawned id

/-- Only a session that is its own child makes a cascade endless. -/
def Loopless (s : SystemState) : Prop :=
  WellFounded (Worklist.ProperlyBelow s.spawned) ∧ ∀ id, id ∉ s.spawned id

theorem ends_iff {s : SystemState} (founded : WellFounded (Worklist.ProperlyBelow s.spawned))
    {root : SessionId} :
    s.Ends root ↔ ∀ id, Worklist.Reaches s.spawned root id → id ∉ s.spawned id :=
  Worklist.ends_iff.trans (Worklist.acc_iff_of_proper founded)

theorem loopless_iff {s : SystemState} (founded : WellFounded (Worklist.ProperlyBelow s.spawned)) :
    Loopless s ↔ ∀ root, s.Ends root := by
  constructor
  · exact fun loopless root => (ends_iff founded).mpr fun id _ => loopless.2 id
  · exact fun ends => ⟨founded, fun id => (ends_iff founded).mp (ends id) id .refl⟩

theorem loopless_step {s : SystemState} {call : Call} (loopless : Loopless s) :
    Loopless (s.step call) ↔ call.Apart := by
  cases call with
  | apply event =>
    rw [step, Loopless, spawned_apply]
    exact iff_of_true loopless trivial
  | registerChild child parent =>
    constructor
    · rintro kept rfl
      exact kept.2 child (mem_spawned_registerChild.mpr (.inr ⟨rfl, rfl, .inl rfl⟩))
    · intro apart
      refine ⟨founded_step s _ loopless.1, fun id own => ?_⟩
      rcases mem_spawned_registerChild.mp own with ⟨-, own⟩ | ⟨is_child, is_parent, -⟩
      · exact loopless.2 id own
      · exact apart (is_child.symm.trans is_parent)

theorem loopless_default : Loopless default := by
  refine ⟨founded [], fun id => ?_⟩
  simp [spawned, default]

theorem single_step (s : SystemState) (call : Call) (single : Forest.Single s.node)
    (unlisted : Unlisted s call) : Forest.Single (s.step call).node := by
  cases call with
  | apply event =>
    unfold Forest.Single at single ⊢
    rw [← spawned_eq] at single ⊢
    rwa [step, spawned_apply]
  | registerChild child parent =>
    rw [step, node_registerChild]
    refine single.hang (fun id => ?_) parent
    rw [← spawned_eq]
    exact unlisted.2 id

theorem single_run {calls : List Call} (within : Runs.Within step Unlisted default calls) :
    Forest.Single (calls.foldl step default).node := by
  refine Runs.invariant (I := fun s : SystemState => Forest.Single s.node) single_step ?_ within
  rw [node_default]
  exact Forest.Sound.empty.single

/-- **What the cascade survives.** After any calls it returns from a session
exactly when it meets none that is its own child, so from all sessions in all
states of a run exactly when the run registers no session under itself; and it
repeats no session exactly when it meets none listed twice, so never in a run
that registers no listed session. -/
theorem cascade_survives_iff (calls : List Call) :
    let s := calls.foldl step default
    (∀ root, s.Ends root ↔ ∀ id, Worklist.Reaches s.spawned root id → id ∉ s.spawned id) ∧
    ((∀ k root, ((calls.take k).foldl step default).Ends root) ↔ ∀ call ∈ calls, call.Apart) ∧
    (∀ root fuel out, s.subtree root fuel = some out →
      (out.Nodup ↔ Worklist.SinglyListed s.spawned root)) ∧
    (Runs.Within step Unlisted default calls →
      ∀ root, ∃ fuel out, s.subtree root fuel = some out ∧ out.Nodup) := by
  intro s
  refine ⟨fun root => ends_iff (founded calls), ?_, fun root fuel out => Worklist.nodup_iff,
    fun within root => ?_⟩
  · have loopless : (∀ k, Loopless ((calls.take k).foldl step default)) ↔
        Runs.Within step (fun _ call => Call.Apart call) default calls :=
      Runs.invariant_iff (fun _ _ => loopless_step) loopless_default calls
    rw [Runs.within_iff_forall] at loopless
    exact (forall_congr' fun k => (loopless_iff (founded (calls.take k))).symm).trans loopless
  · have apart : Runs.Within step (fun _ call => Call.Apart call) default calls :=
      within.mono fun s call unlisted => by
        cases call with
        | apply event => trivial
        | registerChild child parent => exact unlisted.1
    have loopless := Runs.invariant (I := Loopless) (fun _ _ kept => (loopless_step kept).mpr)
      loopless_default apart
    obtain ⟨fuel, out, ended⟩ := (loopless_iff (founded calls)).mp loopless root
    refine ⟨fuel, out, ended, (Worklist.nodup_iff ended).mpr ?_⟩
    rw [spawned_eq]
    exact (single_run within).singlyListed root

/-- A session registered under itself, and a child registered twice. -/
theorem registrations_break_the_cascade :
    (∀ fuel, ([Call.registerChild ⟨1⟩ ⟨1⟩].foldl step default).subtree ⟨1⟩ fuel = none) ∧
      ([Call.apply (.userPrompt ⟨1⟩ "root" []), .registerChild ⟨2⟩ ⟨1⟩,
        .registerChild ⟨2⟩ ⟨1⟩].foldl step default).subtree ⟨1⟩ 3 = some [⟨1⟩, ⟨2⟩, ⟨2⟩] := by
  refine ⟨fun fuel => ?_, by decide⟩
  have own : (⟨1⟩ : SessionId) ∈ ([Call.registerChild ⟨1⟩ ⟨1⟩].foldl step default).spawned ⟨1⟩ := by
    decide
  rw [Option.eq_none_iff_forall_ne_some]
  intro out ended
  exact Worklist.no_cycle (Worklist.ends_iff.mp ⟨fuel, out, ended⟩) .refl own

end SystemState

end ApexosRv
