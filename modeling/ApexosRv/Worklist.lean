import ApexosRv.WhileLoop
import Mathlib.Algebra.BigOperators.Group.List.Basic
import Mathlib.Algebra.GroupWithZero.Nat
import Mathlib.Data.List.Nodup
import Mathlib.Data.List.Pairwise
import Mathlib.Logic.Relation

/-!
# A worklist that grows while it is read

`out = [root]; while i < out.len() { out.extend(succ(out[i])); i += 1 }`, with
no set of visited nodes, for any `succ`:

* it ends exactly when `root` is accessible from below, that is when no path of
  successors from it goes on forever (`ends_iff`);
* what it returns then is `root` and all it reaches (`mem_iff`), each behind a
  node it succeeds (`after_parent`);
* and it holds nothing twice exactly when no two reached nodes, nor one node
  twice, have a successor in common (`nodup_iff`).
-/

namespace Worklist

structure Scan (α : Type) where
  out : List α
  i : Nat

variable {α : Type} (succ : α → List α)

def more (s : Scan α) : Bool := s.i < s.out.length

def visit (s : Scan α) : Scan α :=
  match s.out[s.i]? with
  | some a => ⟨s.out ++ succ a, s.i + 1⟩
  | none => ⟨s.out, s.i + 1⟩

/-- What the loop returns, when `fuel` rounds are enough for it. -/
def collect (root : α) (fuel : Nat) : Option (List α) :=
  (WhileLoop.result more (visit succ) fuel ⟨[root], 0⟩).map Scan.out

/-- `b` is one of the successors of `a`. -/
def Below (b a : α) : Prop := b ∈ succ a

/-- `b` is `a` or comes from it by successors. -/
def Reaches (a b : α) : Prop := Relation.ReflTransGen (fun p c => c ∈ succ p) a b

variable {succ}

/-- What every round keeps: the entries up to `i` have been followed by their
successors, in order, each behind the entry it comes from. -/
structure Scanned (succ : α → List α) (root : α) (s : Scan α) : Prop where
  within : s.i ≤ s.out.length
  out : s.out = root :: (s.out.take s.i).flatMap succ
  head : s.out[0]? = some root
  reached : ∀ a ∈ s.out, Reaches succ root a
  parent : ∀ k c, s.out[k]? = some c → 0 < k →
    ∃ j < k, j < s.i ∧ ∃ p, s.out[j]? = some p ∧ c ∈ succ p
  child : ∀ j < s.i, ∀ p, s.out[j]? = some p → ∀ c ∈ succ p, ∃ k > j, s.out[k]? = some c

theorem Scanned.start (root : α) : Scanned succ root ⟨[root], 0⟩ where
  within := Nat.zero_le _
  out := rfl
  head := rfl
  reached a ha := by
    rw [List.mem_singleton.mp ha]
    exact .refl
  parent k c hk pos := by
    have : k < 1 := (List.getElem?_eq_some_iff.mp hk).1
    omega
  child j hj := absurd hj (Nat.not_lt_zero j)

theorem visit_of_more (succ : α → List α) {s : Scan α} (running : more s = true) :
    ∃ a, s.out[s.i]? = some a ∧ visit succ s = ⟨s.out ++ succ a, s.i + 1⟩ := by
  have lt : s.i < s.out.length := by simpa [more] using running
  exact ⟨s.out[s.i], List.getElem?_eq_getElem lt, by rw [visit, List.getElem?_eq_getElem lt]⟩

theorem Scanned.visit {root : α} {s : Scan α} (h : Scanned succ root s)
    (running : more s = true) : Scanned succ root (visit succ s) := by
  obtain ⟨a, at_i, next⟩ := visit_of_more succ running
  have lt : s.i < s.out.length := (List.getElem?_eq_some_iff.mp at_i).1
  have old : ∀ {j : Nat} {b : α}, s.out[j]? = some b → (s.out ++ succ a)[j]? = some b := by
    intro j b hj
    rwa [List.getElem?_append_left (List.getElem?_eq_some_iff.mp hj).1]
  rw [next]
  refine {
    within := ?_
    out := ?_
    head := old h.head
    reached := ?_
    parent := ?_
    child := ?_ }
  · simp only [List.length_append]
    omega
  · have taken : (s.out ++ succ a).take (s.i + 1) = s.out.take s.i ++ [a] := by
      rw [List.take_append_of_le_length (by omega), List.take_add_one, at_i, Option.toList_some]
    simp only [taken, List.flatMap_append, List.flatMap_singleton]
    rw [← List.cons_append, ← h.out]
  · intro b hb
    rcases List.mem_append.mp hb with earlier | new
    · exact h.reached b earlier
    · exact (h.reached a (List.mem_of_getElem? at_i)).tail new
  · intro k c hk pos
    by_cases earlier : k < s.out.length
    · simp only [List.getElem?_append_left earlier] at hk
      obtain ⟨j, lt, visited, p, at_j, mem⟩ := h.parent k c hk pos
      exact ⟨j, lt, Nat.lt_succ_of_lt visited, p, old at_j, mem⟩
    · simp only [List.getElem?_append_right (Nat.not_lt.mp earlier)] at hk
      exact ⟨s.i, by omega, Nat.lt_succ_self _, a, old at_i, List.mem_of_getElem? hk⟩
  · intro j hj p at_j c hc
    by_cases earlier : j < s.i
    · have at_j' : s.out[j]? = some p := by
        simpa only [List.getElem?_append_left (Nat.lt_trans earlier lt)] using at_j
      obtain ⟨k, gt, at_k⟩ := h.child j earlier p at_j' c hc
      exact ⟨k, gt, old at_k⟩
    · have here : j = s.i := by
        simp only at hj
        omega
      subst here
      have same : p = a := by
        simp only [List.getElem?_append_left lt, at_i, Option.some.injEq] at at_j
        exact at_j.symm
      subst same
      obtain ⟨m, at_m⟩ := List.mem_iff_getElem?.mp hc
      refine ⟨s.out.length + m, by omega, ?_⟩
      rw [List.getElem?_append_right (Nat.le_add_right _ _), Nat.add_sub_cancel_left]
      exact at_m

theorem scanned_run (succ : α → List α) (root : α) (n : Nat) :
    Scanned succ root (WhileLoop.run more (Worklist.visit succ) n ⟨[root], 0⟩) :=
  WhileLoop.invariant (fun _ h running => h.visit running) (Scanned.start root) n

/-! ## What it returns -/

/-- A finished scan: every entry has been followed by its successors. -/
structure Collected (succ : α → List α) (root : α) (out : List α) : Prop where
  closed : out = root :: out.flatMap succ
  head : out[0]? = some root
  reached : ∀ a ∈ out, Reaches succ root a
  parent : ∀ k c, out[k]? = some c → 0 < k → ∃ j < k, ∃ p, out[j]? = some p ∧ c ∈ succ p
  child : ∀ (j : Nat) (p : α), out[j]? = some p → ∀ c ∈ succ p, ∃ k > j, out[k]? = some c

theorem collected {root : α} {fuel : Nat} {out : List α} (h : collect succ root fuel = some out) :
    Collected succ root out := by
  rw [collect, Option.map_eq_some_iff] at h
  obtain ⟨s, ended, rfl⟩ := h
  obtain ⟨rfl, exhausted⟩ := WhileLoop.result_eq_some.mp ended
  have scanned := scanned_run succ root fuel
  have full : (WhileLoop.run more (Worklist.visit succ) fuel ⟨[root], 0⟩).out.length ≤
      (WhileLoop.run more (Worklist.visit succ) fuel ⟨[root], 0⟩).i := by
    simpa [more] using exhausted
  have all : ∀ {j : Nat} {a : α},
      (WhileLoop.run more (Worklist.visit succ) fuel ⟨[root], 0⟩).out[j]? = some a →
      j < (WhileLoop.run more (Worklist.visit succ) fuel ⟨[root], 0⟩).i :=
    fun hj => Nat.lt_of_lt_of_le (List.getElem?_eq_some_iff.mp hj).1 full
  exact {
    closed := by
      have out := scanned.out
      rwa [List.take_of_length_le full] at out
    head := scanned.head
    reached := scanned.reached
    parent := fun k c hk pos => by
      obtain ⟨j, lt, _, found⟩ := scanned.parent k c hk pos
      exact ⟨j, lt, found⟩
    child := fun j p hj => scanned.child j (all hj) p hj }

namespace Collected

variable {root : α} {out : List α}

theorem mem_iff (h : Collected succ root out) {a : α} : a ∈ out ↔ Reaches succ root a := by
  refine ⟨h.reached a, fun reached => ?_⟩
  induction reached with
  | refl => exact List.mem_of_getElem? h.head
  | tail _ step ih =>
    rw [h.closed]
    exact List.mem_cons_of_mem _ (List.mem_flatMap.mpr ⟨_, ih, step⟩)

/-- Paths of successors lead towards the end of the list. -/
theorem acc (h : Collected succ root out) {a : α} (ha : a ∈ out) : Acc (Below succ) a := by
  have towards : ∀ (n j : Nat) (a : α), out[j]? = some a → out.length - j ≤ n →
      Acc (Below succ) a := by
    intro n
    induction n with
    | zero =>
      intro j a hj le
      have := (List.getElem?_eq_some_iff.mp hj).1
      omega
    | succ n ih =>
      intro j a hj le
      refine ⟨a, fun c hc => ?_⟩
      obtain ⟨k, gt, hk⟩ := h.child j a hj c hc
      have := (List.getElem?_eq_some_iff.mp hj).1
      exact ih k c hk (by omega)
  obtain ⟨j, hj⟩ := List.mem_iff_getElem?.mp ha
  exact towards _ j a hj (Nat.le_refl _)

end Collected

/-! ## When it ends -/

/-- Weights that a node's successors do not add up to: every round lowers the
weight of what is still to be visited. -/
theorem exists_weight (succ : α → List α) :
    ∃ w : α → Nat, ∀ a, Acc (Below succ) a → ((succ a).map w).sum < w a := by
  classical
  let below : {a // Acc (Below succ) a} → {a // Acc (Below succ) a} → Prop :=
    fun b a => Below succ b.1 a.1
  have founded : WellFounded below := by
    refine ⟨fun ⟨a, ha⟩ => ?_⟩
    induction ha with
    | intro a _ ih => exact ⟨_, fun b hb => ih b.1 hb⟩
  let size : {a // Acc (Below succ) a} → Nat := founded.fix fun a rec =>
    1 + ((succ a.1).attach.map fun c => rec ⟨c.1, a.2.inv c.2⟩ c.2).sum
  let w : α → Nat := fun a => if h : Acc (Below succ) a then size ⟨a, h⟩ else 0
  refine ⟨w, fun a ha => ?_⟩
  have here : w a = size ⟨a, ha⟩ := dif_pos ha
  have unfold_size : size ⟨a, ha⟩ =
      1 + ((succ a).attach.map fun c => size ⟨c.1, ha.inv c.2⟩).sum := founded.fix_eq _ _
  have weigh : (succ a).map w = (succ a).attach.map fun c => size ⟨c.1, ha.inv c.2⟩ := by
    conv_lhs => rw [← List.attach_map_subtype_val (succ a), List.map_map]
    exact List.map_congr_left fun c _ => dif_pos (ha.inv c.2)
  rw [here, weigh, unfold_size]
  omega

theorem acc_of_reaches {a b : α} (ha : Acc (Below succ) a) (path : Reaches succ a b) :
    Acc (Below succ) b := by
  induction path with
  | refl => exact ha
  | tail _ step ih => exact ih.inv step

theorem ends_of_acc {root : α} (ha : Acc (Below succ) root) :
    ∃ fuel out, collect succ root fuel = some out := by
  obtain ⟨w, lighter⟩ := exists_weight succ
  let left : Scan α → Nat := fun s => ((s.out.drop s.i).map w).sum
  have ended : more (WhileLoop.run more (visit succ) (left ⟨[root], 0⟩) ⟨[root], 0⟩) = false := by
    refine WhileLoop.ends_of_measure (I := Scanned succ root) left (fun s h running => ?_)
      (Scanned.start root)
    refine ⟨h.visit running, ?_⟩
    obtain ⟨a, at_i, next⟩ := visit_of_more succ running
    have lt : s.i < s.out.length := (List.getElem?_eq_some_iff.mp at_i).1
    have reached := h.reached a (List.mem_of_getElem? at_i)
    have dropped : s.out.drop s.i = a :: s.out.drop (s.i + 1) := by
      rw [List.drop_eq_getElem_cons lt]
      have : s.out[s.i] = a := (List.getElem?_eq_some_iff.mp at_i).2
      rw [this]
    have := lighter a (acc_of_reaches ha reached)
    simp only [left, next, dropped, List.map_cons, List.sum_cons,
      List.drop_append_of_le_length (show s.i + 1 ≤ s.out.length from lt), List.map_append,
      List.sum_append]
    omega
  exact ⟨_, _, Option.map_eq_some_iff.mpr ⟨_, WhileLoop.result_eq_some.mpr ⟨rfl, ended⟩, rfl⟩⟩

/-- The scan ends exactly when no path of successors from its root is endless. -/
theorem ends_iff {root : α} :
    (∃ fuel out, collect succ root fuel = some out) ↔ Acc (Below succ) root := by
  refine ⟨?_, ends_of_acc⟩
  rintro ⟨fuel, out, h⟩
  exact (collected h).acc (List.mem_of_getElem? (collected h).head)

/-! ## When it holds nothing twice -/

/-- No node has two of the nodes reached from `root` as predecessors, nor one
of them twice. -/
def SinglyListed (succ : α → List α) (root : α) : Prop :=
  (∀ a, Reaches succ root a → (succ a).Nodup) ∧
    ∀ a b c, Reaches succ root a → Reaches succ root b → c ∈ succ a → c ∈ succ b → a = b

/-- Nothing accessible from below is its own descendant. -/
theorem no_cycle {a b : α} (ha : Acc (Below succ) a) (path : Reaches succ a b) : a ∉ succ b := by
  induction ha generalizing b with
  | intro a _ ih =>
    intro back
    rcases Relation.ReflTransGen.cases_head path with rfl | ⟨c, first, rest⟩
    · exact ih a back .refl back
    · exact ih c first (rest.tail back) first

theorem Scanned.nodup {root : α} (ha : Acc (Below succ) root) (single : SinglyListed succ root)
    {s : Scan α} (h : Scanned succ root s) (nodup : s.out.Nodup) (running : more s = true) :
    (Worklist.visit succ s).out.Nodup := by
  obtain ⟨a, at_i, next⟩ := visit_of_more succ running
  have reached := h.reached a (List.mem_of_getElem? at_i)
  rw [next]
  refine List.Nodup.append nodup (single.1 a reached) fun c hc new => ?_
  obtain ⟨k, at_k⟩ := List.mem_iff_getElem?.mp hc
  rcases Nat.eq_zero_or_pos k with rfl | pos
  · have : c = root := Option.some.inj (at_k.symm.trans h.head)
    subst this
    exact no_cycle ha reached new
  · obtain ⟨j, -, visited, p, at_j, old⟩ := h.parent k c at_k pos
    have same := single.2 p a c (h.reached p (List.mem_of_getElem? at_j)) reached old new
    subst same
    have := (List.nodup_iff_getElem?_ne_getElem?.mp nodup) j s.i visited
      (List.getElem?_eq_some_iff.mp at_i).1
    exact this (at_j.trans at_i.symm)

theorem nodup_iff {root : α} {fuel : Nat} {out : List α} (h : collect succ root fuel = some out) :
    out.Nodup ↔ SinglyListed succ root := by
  have done := collected h
  constructor
  · intro nodup
    rw [done.closed] at nodup
    obtain ⟨each, apart⟩ := List.nodup_flatMap.mp (List.nodup_cons.mp nodup).2
    refine ⟨fun a ha => each a (done.mem_iff.mpr ha), fun a b c ha hb hca hcb => ?_⟩
    by_contra differ
    have : Std.Symm (Function.onFun List.Disjoint succ) :=
      ⟨fun _ _ d => List.disjoint_comm.mp d⟩
    exact List.Pairwise.forall apart (done.mem_iff.mpr ha) (done.mem_iff.mpr hb) differ hca hcb
  · intro single
    have ha := done.acc (List.mem_of_getElem? done.head)
    rw [collect, Option.map_eq_some_iff] at h
    obtain ⟨s, ended, rfl⟩ := h
    obtain ⟨rfl, -⟩ := WhileLoop.result_eq_some.mp ended
    exact (WhileLoop.invariant (I := fun s => Scanned succ root s ∧ s.out.Nodup)
      (fun s h running => ⟨h.1.visit running, h.1.nodup ha single h.2 running⟩)
      ⟨Scanned.start root, List.nodup_singleton root⟩ fuel).2

/-! ## Successors that change -/

/-- `b` is one of the successors of `a`, other than `a` itself. -/
def ProperlyBelow (succ : α → List α) (b a : α) : Prop := b ∈ succ a ∧ b ≠ a

/-- When only self-loops can be endless, the scan ends unless it meets one. -/
theorem acc_iff_of_proper (founded : WellFounded (ProperlyBelow succ)) {root : α} :
    Acc (Below succ) root ↔ ∀ a, Reaches succ root a → a ∉ succ a := by
  constructor
  · intro ha a path loop
    exact no_cycle (acc_of_reaches ha path) .refl loop
  · intro loopless
    induction root using founded.induction with
    | _ root ih =>
      refine ⟨root, fun c hc => ih c ⟨hc, ?_⟩ fun a path => loopless a (path.head hc)⟩
      rintro rfl
      exact loopless c .refl hc

/-- Nothing can be endless because of new successors that have none themselves. -/
theorem founded_of_sink {succ' : α → List α} (founded : WellFounded (ProperlyBelow succ)) {x : α}
    (sink : ∀ c ∈ succ' x, c = x)
    (old : ∀ a, a ≠ x → ∀ c ∈ succ' a, c ∈ succ a ∨ c = x) : WellFounded (ProperlyBelow succ') := by
  have acc_x : Acc (ProperlyBelow succ') x := ⟨x, fun c hc => absurd (sink c hc.1) hc.2⟩
  refine ⟨fun a => ?_⟩
  induction a using founded.induction with
  | _ a ih =>
    by_cases here : a = x
    · rwa [here]
    · refine ⟨a, fun c hc => ?_⟩
      rcases old a here c hc.1 with kept | rfl
      · exact ih c ⟨kept, hc.2⟩
      · exact acc_x

theorem collect_of_le {root : α} {m n : Nat} {out : List α} (h : collect succ root m = some out)
    (le : m ≤ n) : collect succ root n = some out := by
  rw [collect, Option.map_eq_some_iff] at h ⊢
  obtain ⟨s, ended, rfl⟩ := h
  exact ⟨s, WhileLoop.result_of_le ended le, rfl⟩

theorem collect_childless {root : α} (childless : succ root = []) :
    collect succ root 1 = some [root] := by
  simp [collect, WhileLoop.result, WhileLoop.run, more, visit, childless]

end Worklist
