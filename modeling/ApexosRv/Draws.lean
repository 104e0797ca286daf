import Mathlib.Logic.Function.Iterate

/-!
# Draws from a generator

`draw` is what a number of draws yield and the state they leave. Generators whose
states are not merged by one draw are not merged by any number of them
(`draw_injective`). `chunks` cuts a buffer into parts of one size, the last one
shorter; blocks cut to these parts are together the start of the blocks
(`flatten_cut`).
-/

namespace Draws

section
variable {σ α : Type} (next : σ → α × σ)

def draw : ℕ → σ → List α × σ
  | 0, s => ([], s)
  | n + 1, s =>
    let (a, s) := next s
    let (rest, s) := draw n s
    (a :: rest, s)

variable {next}

@[simp] theorem draw_length (n : ℕ) (s : σ) : (draw next n s).1.length = n := by
  induction n generalizing s with
  | zero => rfl
  | succ n ih => simp [draw, ih]

theorem draw_add (m n : ℕ) (s : σ) :
    (draw next (m + n) s).2 = (draw next n (draw next m s).2).2 := by
  induction m generalizing s with
  | zero => simp [draw]
  | succ m ih => simp only [Nat.succ_add, draw, ih]

theorem draw_keeps {I : σ → Prop} (keep : ∀ s, I s → I (next s).2) {s : σ} (start : I s) (n : ℕ) :
    I (draw next n s).2 := by
  induction n generalizing s with
  | zero => exact start
  | succ n ih => exact ih (keep s start)

theorem draw_injective (inj : Function.Injective fun s => (next s).2) (n : ℕ) :
    Function.Injective fun s => (draw next n s).2 := by
  induction n with
  | zero => exact Function.injective_id
  | succ n ih => exact ih.comp inj

end

section
variable {β : Type} {k : ℕ}

/-- Parts of `k` items, the last one with what is left; `k` is positive. -/
def chunks (k : ℕ) : List β → List (List β)
  | [] => []
  | b :: rest => (b :: rest).take k :: chunks k (rest.drop (k - 1))
termination_by items => items.length

theorem length_of_mem_chunks {items chunk : List β} (mem : chunk ∈ chunks k items) :
    chunk.length ≤ k := by
  induction items using chunks.induct k with
  | case1 => simp [chunks] at mem
  | case2 b rest ih =>
    simp only [chunks, List.mem_cons] at mem
    rcases mem with rfl | later
    · exact List.length_take_le _ _
    · exact ih later

theorem length_chunks (pos : 0 < k) (items : List β) :
    (chunks k items).length = (items.length + (k - 1)) / k := by
  induction items using chunks.induct k with
  | case1 =>
    simp only [chunks, List.length_nil, Nat.zero_add]
    exact (Nat.div_eq_of_lt (by omega)).symm
  | case2 b rest ih =>
    simp only [chunks, List.length_cons, ih, List.length_drop]
    have one_more : rest.length + 1 + (k - 1) = rest.length + k := by omega
    rw [one_more, Nat.add_div_right _ pos]
    by_cases last : rest.length < k
    · rw [Nat.div_eq_of_lt last, Nat.div_eq_of_lt (by omega)]
    · rw [Nat.sub_add_cancel (by omega)]

/-- Blocks of `k` items, as many as there are parts. -/
theorem flatten_cut (pos : 0 < k) {items : List β} {blocks : List (List β)}
    (size : ∀ block ∈ blocks, block.length = k) (many : blocks.length = (chunks k items).length) :
    (List.zipWith (fun chunk block => block.take chunk.length) (chunks k items) blocks).flatten =
      blocks.flatten.take items.length := by
  induction items using chunks.induct k generalizing blocks with
  | case1 => simp [chunks]
  | case2 b rest ih =>
    simp only [chunks] at many ⊢
    cases blocks with
    | nil => cases many
    | cons block later =>
      obtain ⟨whole, wholes⟩ := List.forall_mem_cons.mp size
      have here : block.take ((b :: rest).take k).length = block.take (b :: rest).length := by
        rw [List.length_take, Nat.min_comm, ← List.take_take, ← whole, List.take_length]
      have left : (rest.drop (k - 1)).length = (b :: rest).length - block.length := by
        simp only [List.length_drop, List.length_cons]
        omega
      rw [List.zipWith_cons_cons, List.flatten_cons, here, ih wholes (Nat.succ.inj many), left,
        List.flatten_cons, List.take_append]

end

end Draws
