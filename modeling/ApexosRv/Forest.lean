import ApexosRv.Worklist
import Mathlib.Data.List.Flatten

/-!
# Forests with links both ways

A table of nodes, each with the parent it hangs under and the list of its
children, changed by planting roots and by hanging one node under another.

* `hang` may break everything but one thing: whatever is hung wherever, only a
  node that is its own child can make a path of children endless
  (`founded_hang`).
* Planting absent nodes, and hanging absent nodes under known ones, keeps the
  table a forest (`Sound.plant`, `Sound.hang`).
-/

namespace Forest

structure Node (α : Type) where
  parent : Option α
  children : List α

variable {α : Type} (t : α → Option (Node α))

def children (a : α) : List α := ((t a).map Node.children).getD []

/-- The parent of a node of the table, if it has one. -/
def parent (a : α) : Option (Option α) := (t a).map Node.parent

/-- The chain of parents from a node is finite and ends at a root. -/
inductive Rooted : α → Prop
  | root {a : α} (root : parent t a = some none) : Rooted a
  | child {a p : α} (child : parent t a = some (some p)) (above : Rooted p) : Rooted a

/-- The two links agree, and every chain of parents and every path of children
is finite. -/
structure Sound : Prop where
  listed : ∀ {p c : α}, c ∈ children t p ↔ parent t c = some (some p)
  once : ∀ p, (children t p).Nodup
  rooted : ∀ {a : α} {up : Option α}, parent t a = some up → Rooted t a
  founded : WellFounded (Worklist.ProperlyBelow (children t))

variable {t}

theorem children_of_absent {a : α} (absent : parent t a = none) : children t a = [] := by
  rw [children, Option.map_eq_none_iff.mp absent]
  rfl

theorem Rooted.mono {t' : α → Option (Node α)}
    (kept : ∀ {a : α} {up : Option α}, parent t a = some up → parent t' a = some up) {a : α}
    (rooted : Rooted t a) : Rooted t' a := by
  induction rooted with
  | root root => exact .root (kept root)
  | child child _ ih => exact .child (kept child) ih

theorem Rooted.not_own_parent {a : α} (rooted : Rooted t a) : parent t a ≠ some (some a) := by
  induction rooted with
  | root root => simp [root]
  | child child _ ih =>
    intro own
    rw [child, Option.some.injEq, Option.some.injEq] at own
    subst own
    exact ih child

/-- No node is listed by two nodes, nor twice by one. -/
def Single (t : α → Option (Node α)) : Prop :=
  (∀ a, (children t a).Nodup) ∧
    ∀ a b c, c ∈ children t a → c ∈ children t b → a = b

theorem Single.singlyListed (single : Single t) (root : α) :
    Worklist.SinglyListed (children t) root :=
  ⟨fun a _ => single.1 a, fun a b c _ _ => single.2 a b c⟩

namespace Sound

theorem empty : Sound (fun _ : α => none) where
  listed := by simp [children, parent]
  once _ := List.nodup_nil
  rooted h := by simp [parent] at h
  founded := ⟨fun a => ⟨a, fun c hc => by simp [Worklist.ProperlyBelow, children] at hc⟩⟩

theorem unlisted_of_absent (h : Sound t) {c : α} (absent : parent t c = none) (a : α) :
    c ∉ children t a := fun listed => by
  rw [h.listed, absent] at listed
  cases listed

theorem single (h : Sound t) : Single t := by
  refine ⟨h.once, fun a b c ha hb => ?_⟩
  have same := (h.listed.mp ha).symm.trans (h.listed.mp hb)
  simpa using same

theorem acc (h : Sound t) (root : α) : Acc (Worklist.Below (children t)) root := by
  refine (Worklist.acc_iff_of_proper h.founded).mpr fun a _ own => ?_
  have stored := h.listed.mp own
  exact (h.rooted stored).not_own_parent stored

end Sound

/-! ## Planting and hanging -/

variable [DecidableEq α]

/-- Adds a root. -/
def plant (t : α → Option (Node α)) (a : α) : α → Option (Node α) :=
  fun b => if b = a then some ⟨none, []⟩ else t b

/-- Stores `c` afresh under `p`, and, when `p` is a node then, lists it last
there. -/
def hang (t : α → Option (Node α)) (c p : α) : α → Option (Node α) := fun a =>
  let before := if a = c then some ⟨some p, []⟩ else t a
  if a = p then before.map fun n => { n with children := n.children ++ [c] } else before

@[simp] theorem parent_plant (a b : α) :
    parent (plant t a) b = if b = a then some none else parent t b := by
  simp only [parent, plant]
  split <;> rfl

theorem parent_plant_of_known {a b : α} {up : Option α} (absent : parent t a = none)
    (known : parent t b = some up) : parent (plant t a) b = some up := by
  have other : b ≠ a := by
    rintro rfl
    rw [absent] at known
    cases known
  rw [parent_plant, if_neg other, known]

theorem children_plant {a : α} (absent : parent t a = none) :
    children (plant t a) = children t := by
  funext b
  by_cases here : b = a
  · rw [here, children_of_absent absent]
    simp [children, plant]
  · simp [children, plant, here]

@[simp] theorem parent_hang (c p a : α) :
    parent (hang t c p) a = if a = c then some (some p) else parent t a := by
  simp only [parent, hang]
  split <;> split <;> simp [Function.comp_def]

theorem parent_hang_of_known {c a : α} {up : Option α} (absent : parent t c = none)
    (known : parent t a = some up) (p : α) : parent (hang t c p) a = some up := by
  have other : a ≠ c := by
    rintro rfl
    rw [absent] at known
    cases known
  rw [parent_hang, if_neg other, known]

theorem children_hang (c p a : α) :
    children (hang t c p) a =
      (if a = c then [] else children t a) ++
        if a = p ∧ (a = c ∨ parent t a ≠ none) then [c] else [] := by
  simp only [children, hang]
  by_cases is_p : a = p
  · subst is_p
    by_cases is_c : a = c <;> cases known : t a <;> simp [is_c, parent, known]
  · simp only [is_p, false_and, if_false]
    split <;> simp

theorem mem_children_hang {c p a b : α} :
    b ∈ children (hang t c p) a ↔
      a ≠ c ∧ b ∈ children t a ∨ b = c ∧ a = p ∧ (a = c ∨ parent t a ≠ none) := by
  rw [children_hang, List.mem_append]
  refine or_congr ?_ ?_
  · split <;> simp [*]
  · split
    · rename_i here
      exact List.mem_singleton.trans (and_iff_left here).symm
    · rename_i elsewhere
      exact iff_of_false List.not_mem_nil fun new => elsewhere new.2

/-- Whatever is hung wherever, only a node that is its own child can make a
path of children endless. -/
theorem founded_hang (founded : WellFounded (Worklist.ProperlyBelow (children t))) (c p : α) :
    WellFounded (Worklist.ProperlyBelow (children (hang t c p))) := by
  -- The node is stored without children, so its new place opens no way down.
  refine Worklist.founded_of_sink founded (x := c) (fun b hb => ?_) fun a away b hb => ?_
  · rcases mem_children_hang.mp hb with ⟨here, -⟩ | ⟨rfl, -⟩
    · exact absurd rfl here
    · rfl
  · rcases mem_children_hang.mp hb with ⟨-, old⟩ | ⟨new, -⟩
    · exact .inl old
    · exact .inr new

theorem nodup_children_hang {c : α} (unlisted : ∀ a, c ∉ children t a)
    (once : ∀ a, (children t a).Nodup) (p a : α) : (children (hang t c p) a).Nodup := by
  rw [children_hang]
  refine List.Nodup.append ?_ ?_ fun b kept new => ?_
  · split
    · exact List.nodup_nil
    · exact once a
  · split
    · exact List.nodup_singleton c
    · exact List.nodup_nil
  · have listed : b ∈ children t a := by
      split at kept
      · cases kept
      · exact kept
    have same : b = c := by
      split at new
      · exact List.mem_singleton.mp new
      · cases new
    exact unlisted a (same ▸ listed)

theorem Single.hang (single : Single t) {c : α} (unlisted : ∀ a, c ∉ children t a) (p : α) :
    Single (hang t c p) := by
  refine ⟨nodup_children_hang unlisted single.1 p, fun a b d ha hb => ?_⟩
  rw [mem_children_hang] at ha hb
  rcases ha with ⟨-, ha⟩ | ⟨rfl, under_a, -⟩ <;> rcases hb with ⟨-, hb⟩ | ⟨here, under_b, -⟩
  · exact single.2 a b d ha hb
  · exact absurd (here ▸ ha) (unlisted a)
  · exact absurd hb (unlisted b)
  · rw [under_a, under_b]

/-! ## What keeps the table a forest -/

namespace Sound

theorem plant (h : Sound t) {a : α} (absent : parent t a = none) : Sound (plant t a) where
  listed {p c} := by
    rw [children_plant absent, h.listed, parent_plant]
    split
    · simp_all
    · rfl
  once p := by
    rw [children_plant absent]
    exact h.once p
  rooted {b up} known := by
    rw [parent_plant] at known
    split at known
    · rename_i here
      exact .root (by simp [here])
    · exact (h.rooted known).mono (parent_plant_of_known absent)
  founded := by
    rw [children_plant absent]
    exact h.founded

/-- The child's links agree, and no other node's have changed. -/
theorem listed_hang (h : Sound t) {c p : α} (absent : parent t c = none)
    (known : parent t p ≠ none) {a b : α} :
    b ∈ children (Forest.hang t c p) a ↔ parent (Forest.hang t c p) b = some (some a) := by
  rw [mem_children_hang, parent_hang]
  by_cases new : b = c
  · rw [new, if_pos rfl, Option.some.injEq, Option.some.injEq]
    constructor
    · rintro (⟨-, listed⟩ | ⟨-, here, -⟩)
      · exact absurd listed (h.unlisted_of_absent absent a)
      · exact here.symm
    · rintro rfl
      exact .inr ⟨rfl, rfl, .inr known⟩
  · rw [if_neg new, ← h.listed]
    constructor
    · rintro (⟨-, listed⟩ | ⟨here, -⟩)
      · exact listed
      · exact absurd here new
    · intro listed
      refine .inl ⟨?_, listed⟩
      rintro rfl
      rw [children_of_absent absent] at listed
      cases listed

theorem hang (h : Sound t) {c p : α} (absent : parent t c = none) (known : parent t p ≠ none) :
    Sound (hang t c p) where
  listed := h.listed_hang absent known
  once := nodup_children_hang (h.unlisted_of_absent absent) h.once p
  rooted {a up} stored := by
    have kept : ∀ {a : α} {up : Option α}, parent t a = some up →
        parent (Forest.hang t c p) a = some up :=
      fun stored => parent_hang_of_known absent stored p
    rw [parent_hang] at stored
    split at stored
    · rename_i here
      obtain ⟨up', stored_p⟩ := Option.ne_none_iff_exists'.mp known
      exact .child (by simp [here]) ((h.rooted stored_p).mono kept)
    · exact (h.rooted stored).mono kept
  founded := founded_hang h.founded c p

end Sound

end Forest
