import ApexosRv.Fold
import ApexosRv.Forest

/-!
# The sessions as a forest

The links the sessions are stored with, seen as a table of nodes: an event
plants a root or leaves the table alone (`node_apply`), a registration hangs
the child under the parent (`node_registerChild`). So no run of calls, whatever
it registers, makes a path of children endless but through a session that is
its own child (`founded`).
-/

namespace ApexosRv

namespace SystemState

open Forest (Node plant hang)

/-- The links a session is stored with. -/
def node (s : SystemState) (id : SessionId) : Option (Node SessionId) :=
  s.sessions[id]?.map fun ctx => ⟨ctx.parent, ctx.spawned⟩

theorem spawned_eq (s : SystemState) : s.spawned = Forest.children s.node := by
  funext id
  unfold spawned Forest.children node
  cases s.sessions[id]? <;> rfl

theorem parent_eq (s : SystemState) (id : SessionId) :
    Forest.parent s.node id = s.sessions[id]?.map AgentContext.parent := by
  unfold Forest.parent node
  cases s.sessions[id]? <;> rfl

theorem parent_eq_none {s : SystemState} {id : SessionId} :
    Forest.parent s.node id = none ↔ id ∉ s.sessions := by
  rw [parent_eq, Option.map_eq_none_iff, Std.ExtTreeMap.mem_iff_isSome_getElem?,
    Option.not_isSome_iff_eq_none]

theorem node_default : default.node = fun _ => none := by
  funext id
  simp [node, default]

/-- An event can only add a root session. -/
theorem node_apply (s : SystemState) (event : Event) :
    (s.apply event).node = s.node ∨
      ∃ id, id ∉ s.sessions ∧ (s.apply event).node = plant s.node id := by
  cases event with
  | userPrompt session text images =>
    by_cases known : session ∈ s.sessions
    · left
      funext id
      simp only [node, apply, Std.ExtTreeMap.getElem?_insert, Std.LawfulEqOrd.compare_eq_iff_eq]
      split
      · rename_i here
        rw [← here, Std.ExtTreeMap.getElem?_eq_some_getElem known]
        rfl
      · rfl
    · refine .inr ⟨session, known, ?_⟩
      funext id
      simp only [node, plant, apply, Std.ExtTreeMap.getElem?_insert,
        Std.LawfulEqOrd.compare_eq_iff_eq, Std.ExtTreeMap.getElem?_eq_none known, eq_comm (a := id)]
      split <;> rfl
  | _ => exact .inl rfl

/-- A registration stores a fresh child, and its parent, when that is a
session then, lists it last. -/
theorem node_registerChild (s : SystemState) (child parent : SessionId) :
    (s.registerChild child parent).node = hang s.node child parent := by
  funext id
  have stored : (s.sessions.insert child (.child child parent))[id]? =
      if id = child then some (.child child parent) else s.sessions[id]? := by
    simp only [Std.ExtTreeMap.getElem?_insert, Std.LawfulEqOrd.compare_eq_iff_eq, eq_comm (a := id)]
  simp only [node, hang, registerChild, Std.ExtTreeMap.getElem?_modify,
    Std.LawfulEqOrd.compare_eq_iff_eq]
  by_cases is_parent : parent = id
  · subst is_parent
    simp only [if_true, stored]
    split <;> simp [AgentContext.child, Function.comp_def]
  · simp only [is_parent, Ne.symm is_parent, if_false, stored]
    split <;> simp [AgentContext.child]

theorem spawned_apply (s : SystemState) (event : Event) : (s.apply event).spawned = s.spawned := by
  rw [spawned_eq, spawned_eq]
  rcases node_apply s event with same | ⟨id, absent, planted⟩
  · rw [same]
  · rw [planted, Forest.children_plant (parent_eq_none.mpr absent)]

theorem mem_spawned_registerChild {s : SystemState} {child parent a b : SessionId} :
    b ∈ (s.registerChild child parent).spawned a ↔
      a ≠ child ∧ b ∈ s.spawned a ∨ b = child ∧ a = parent ∧ (a = child ∨ a ∈ s.sessions) := by
  rw [spawned_eq, spawned_eq, node_registerChild, Forest.mem_children_hang,
    ne_eq (Forest.parent _ _), parent_eq_none, not_not]

/-! ## What every call keeps -/

/-- Every context is stored under its own id. -/
def OwnIds (s : SystemState) : Prop :=
  ∀ (id : SessionId) (ctx : AgentContext), s.sessions[id]? = some ctx → ctx.id = id

theorem ownIds_step (s : SystemState) (call : Call) (own : s.OwnIds) : (s.step call).OwnIds := by
  have insert : ∀ (child : SessionId) (new : AgentContext), new.id = child →
      ∀ (id : SessionId) (ctx : AgentContext),
        (s.sessions.insert child new)[id]? = some ctx → ctx.id = id := by
    intro child new same id ctx
    simp only [Std.ExtTreeMap.getElem?_insert, Std.LawfulEqOrd.compare_eq_iff_eq]
    split
    · rename_i here
      rintro ⟨⟩
      rw [same, here]
    · exact own id ctx
  cases call with
  | apply event =>
    cases event with
    | userPrompt session text images =>
      refine insert session _ ?_
      cases known : s.sessions[session]? with
      | none => rfl
      | some ctx => exact own session ctx known
    | _ => exact own
  | registerChild child parent =>
    intro id ctx
    simp only [step, registerChild, Std.ExtTreeMap.getElem?_modify,
      Std.LawfulEqOrd.compare_eq_iff_eq]
    split
    · rename_i here
      subst here
      rw [Option.map_eq_some_iff]
      rintro ⟨before, stored, rfl⟩
      exact insert child _ rfl parent before stored
    · exact insert child _ rfl id ctx

theorem founded_step (s : SystemState) (call : Call)
    (founded : WellFounded (Worklist.ProperlyBelow s.spawned)) :
    WellFounded (Worklist.ProperlyBelow (s.step call).spawned) := by
  cases call with
  | apply event => rwa [step, spawned_apply]
  | registerChild child parent =>
    rw [spawned_eq] at founded
    rw [step, spawned_eq, node_registerChild]
    exact Forest.founded_hang founded child parent

/-- **No call makes a path of children endless**, but through a session that is
its own child. -/
theorem founded (calls : List Call) :
    WellFounded (Worklist.ProperlyBelow (calls.foldl step default).spawned) := by
  refine Runs.always (I := fun s : SystemState => WellFounded (Worklist.ProperlyBelow s.spawned))
    founded_step ?_ calls
  rw [spawned_eq, node_default]
  exact Forest.Sound.empty.founded

end SystemState

end ApexosRv
