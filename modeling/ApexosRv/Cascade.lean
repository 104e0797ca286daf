import ApexosRv.Lineage

/-!
# The cancel cascade over fresh registrations

A run whose every registration names an absent child and a known parent keeps
the sessions a forest (`sound_run`). The cascade from any session is then
computed, and exact: the session first, each of its descendants once, behind
its own parent (`sessions_form_forest`).
-/

namespace ApexosRv

namespace SystemState

/-- A registration names a known parent and an absent child. -/
def Fresh (s : SystemState) : Call → Prop
  | .apply _ => True
  | .registerChild child parent => parent ∈ s.sessions ∧ child ∉ s.sessions

instance (s : SystemState) (call : Call) : Decidable (Fresh s call) :=
  match call with
  | .apply _ => .isTrue trivial
  | .registerChild _ _ => inferInstanceAs (Decidable (_ ∧ _))

/-- `child` is stored with `parent` as its parent. -/
def HasChild (s : SystemState) (parent child : SessionId) : Prop :=
  ∃ ctx, s.sessions[child]? = some ctx ∧ ctx.parent = some parent

/-- Both links of every session agree, and every chain of parents is finite and
ends at a root. -/
structure Linked (s : SystemState) : Prop where
  own : s.OwnIds
  listed : ∀ parent child, child ∈ s.spawned parent ↔ s.HasChild parent child
  once : (s.sessions.toList.flatMap fun entry => entry.2.spawned).Nodup
  rooted : ∀ id ∈ s.sessions, Forest.Rooted s.node id

/-- `out` is `root` and its transitive descendants, each once and each behind
its own parent. -/
structure Cascade (s : SystemState) (root : SessionId) (out : List SessionId) : Prop where
  first : out.head? = some root
  once : out.Nodup
  descendants : ∀ id, id ∈ out ↔ Relation.ReflTransGen s.HasChild root id
  behind : ∀ k child, out[k]? = some child → 0 < k →
    ∃ j < k, ∃ parent, out[j]? = some parent ∧ s.HasChild parent child
  childless : s.spawned root = [] → out = [root]

theorem hasChild_iff {s : SystemState} {parent child : SessionId} :
    s.HasChild parent child ↔ Forest.parent s.node child = some (some parent) := by
  rw [parent_eq, Option.map_eq_some_iff]
  rfl

theorem sound_step (s : SystemState) (call : Call) (sound : Forest.Sound s.node)
    (fresh : Fresh s call) : Forest.Sound (s.step call).node := by
  cases call with
  | apply event =>
    rcases node_apply s event with same | ⟨id, absent, planted⟩
    · rwa [step, same]
    · rw [step, planted]
      exact sound.plant (parent_eq_none.mpr absent)
  | registerChild child parent =>
    rw [step, node_registerChild]
    exact sound.hang (parent_eq_none.mpr fresh.2) fun absent => parent_eq_none.mp absent fresh.1

theorem sound_run {calls : List Call} (within : Runs.Within step Fresh default calls) :
    Forest.Sound (calls.foldl step default).node := by
  refine Runs.invariant (I := fun s : SystemState => Forest.Sound s.node) sound_step ?_ within
  rw [node_default]
  exact Forest.Sound.empty

theorem ownIds_run (calls : List Call) : (calls.foldl step default).OwnIds := by
  refine Runs.always ownIds_step (fun id ctx stored => ?_) calls
  simp [default] at stored

theorem listed_of_sound {s : SystemState} (sound : Forest.Sound s.node) (parent child : SessionId) :
    child ∈ s.spawned parent ↔ s.HasChild parent child := by
  rw [spawned_eq, sound.listed, hasChild_iff]

theorem linked_of_sound {s : SystemState} (own : s.OwnIds) (sound : Forest.Sound s.node) :
    Linked s where
  own := own
  listed := listed_of_sound sound
  once := by
    have lists : ∀ {id : SessionId} {ctx : AgentContext}, (id, ctx) ∈ s.sessions.toList →
        ctx.spawned = s.spawned id := by
      intro id ctx stored
      rw [Std.ExtTreeMap.mem_toList_iff_getElem?_eq_some] at stored
      rw [spawned, stored]
    refine List.nodup_flatMap.mpr ⟨fun entry stored => ?_, ?_⟩
    · rw [lists stored, spawned_eq]
      exact sound.once entry.1
    · refine s.sessions.distinct_keys_toList.imp_of_mem fun {a b} stored_a stored_b apart => ?_
      simp only [Function.onFun, lists stored_a, lists stored_b]
      intro child in_a in_b
      have parent_a := (listed_of_sound sound _ _).mp in_a
      have parent_b := (listed_of_sound sound _ _).mp in_b
      rw [hasChild_iff] at parent_a parent_b
      refine apart (Std.LawfulEqOrd.compare_eq_iff_eq.mpr ?_)
      simpa using parent_a.symm.trans parent_b
  rooted id known := by
    obtain ⟨up, stored⟩ :=
      Option.ne_none_iff_exists'.mp fun absent => parent_eq_none.mp absent known
    exact sound.rooted stored

theorem cascade_of_sound {s : SystemState} (sound : Forest.Sound s.node) {root : SessionId}
    {fuel : Nat} {out : List SessionId} (h : s.subtree root fuel = some out) :
    Cascade s root out := by
  have done := Worklist.collected h
  have links : (fun parent child => child ∈ s.spawned parent) = s.HasChild := by
    funext parent child
    exact propext (listed_of_sound sound parent child)
  refine {
    first := by rw [List.head?_eq_getElem?, done.head]
    once := (Worklist.nodup_iff h).mpr ?_
    descendants := fun id => by rw [← links]; exact done.mem_iff
    behind := fun k child at_k pos => ?_
    childless := fun none => ?_ }
  · rw [spawned_eq]
    exact sound.single.singlyListed root
  · obtain ⟨j, lt, parent, at_j, mem⟩ := done.parent k child at_k pos
    exact ⟨j, lt, parent, at_j, (listed_of_sound sound parent child).mp mem⟩
  · have more := Worklist.collect_of_le h (Nat.le_max_left fuel 1)
    rw [Worklist.collect_of_le (Worklist.collect_childless none) (Nat.le_max_right fuel 1)] at more
    exact (Option.some.inj more).symm

/-- **Fresh registrations keep the sessions a forest and the cascade exact.** -/
theorem sessions_form_forest (calls : List Call) (within : Runs.Within step Fresh default calls) :
    let s := calls.foldl step default
    Linked s ∧ ∀ root, ∃ out enough,
      (∀ fuel ≥ enough, s.subtree root fuel = some out) ∧ Cascade s root out := by
  intro s
  have sound : Forest.Sound s.node := sound_run within
  refine ⟨linked_of_sound (ownIds_run calls) sound, fun root => ?_⟩
  have acc := sound.acc root
  rw [← spawned_eq] at acc
  obtain ⟨enough, out, ended⟩ := Worklist.ends_of_acc acc
  exact ⟨out, enough, fun fuel le => Worklist.collect_of_le ended le, cascade_of_sound sound ended⟩

/-- A prompted session with two children, one of them with a child of its own. -/
theorem four_sessions_form_forest :
    let calls := [Call.apply (.userPrompt ⟨1⟩ "root" []), .registerChild ⟨2⟩ ⟨1⟩,
      .registerChild ⟨3⟩ ⟨1⟩, .registerChild ⟨4⟩ ⟨2⟩]
    Runs.Within step Fresh default calls ∧ Linked (calls.foldl step default) ∧
      (calls.foldl step default).subtree ⟨1⟩ 4 = some [⟨1⟩, ⟨2⟩, ⟨3⟩, ⟨4⟩] :=
  ⟨by decide, (sessions_form_forest _ (by decide)).1, by decide⟩

end SystemState

end ApexosRv
