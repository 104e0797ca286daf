import ApexosRv.Draws
import ApexosRv.XorShift

/-!
# The masking generator

`DetRng` (`kernel/src/net/mesh.rs`): the xorshift64* generator that the WebSocket
client draws its masks from. Its words are `next_u64` calls; `next_u32` and
`fill_bytes` make some of them and leave the state these leave (`run_eq`).
`none` is a panic.
-/

namespace ApexosRv

open Draws

def toLeBytes (x : UInt64) : List UInt8 :=
  (List.range 8).map fun k => (x >>> (8 * UInt64.ofNat k)).toUInt8

/-- `&b[..n]`. -/
def sliceTo (b : List UInt8) (n : ℕ) : Option (List UInt8) :=
  if n ≤ b.length then some (b.take n) else none

/-- What `dest` holds after `dest.copy_from_slice(src)`. -/
def copyFromSlice (dest src : List UInt8) : Option (List UInt8) :=
  if src.length = dest.length then some src else none

structure DetRng where
  state : UInt64
  deriving DecidableEq, Repr

namespace DetRng

def new (seed : UInt64) : DetRng := ⟨seed⟩

def nextU64 (rng : DetRng) : UInt64 × DetRng :=
  let x := rng.state
  let x := x ^^^ (x >>> 12)
  let x := x ^^^ (x <<< 25)
  let x := x ^^^ (x >>> 27)
  (x * 0x2545F4914F6CDD1D, ⟨x⟩)

def nextU32 (rng : DetRng) : UInt32 × DetRng :=
  let (x, rng) := rng.nextU64
  ((x >>> 32).toUInt32, rng)

/-- The loop over the chunks, with what is written to them. -/
def fillChunks : List (List UInt8) → DetRng → Option (List (List UInt8) × DetRng)
  | [], rng => some ([], rng)
  | chunk :: rest, rng => do
    let (x, rng) := rng.nextU64
    let b := toLeBytes x
    let chunk ← copyFromSlice chunk (← sliceTo b chunk.length)
    let (rest, rng) ← fillChunks rest rng
    some (chunk :: rest, rng)

def fillBytes (dest : List UInt8) (rng : DetRng) : Option (List UInt8 × DetRng) := do
  let (chunks, rng) ← fillChunks (chunks 8 dest) rng
  some (chunks.flatten, rng)

/-- Its result is always `Ok(())`. -/
def tryFillBytes (dest : List UInt8) (rng : DetRng) : Option (List UInt8 × DetRng) :=
  rng.fillBytes dest

inductive Call where
  | nextU64
  | nextU32
  | fillBytes (dest : List UInt8)
  | tryFillBytes (dest : List UInt8)
  deriving DecidableEq, Repr

def call (rng : DetRng) : Call → Option DetRng
  | .nextU64 => some rng.nextU64.2
  | .nextU32 => some rng.nextU32.2
  | .fillBytes dest => (rng.fillBytes dest).map (·.2)
  | .tryFillBytes dest => (rng.tryFillBytes dest).map (·.2)

def run (calls : List Call) (rng : DetRng) : Option DetRng := calls.foldlM call rng

/-- How many words a call takes. -/
def Call.words : Call → ℕ
  | .nextU64 => 1
  | .nextU32 => 1
  | .fillBytes dest => (dest.length + 7) / 8
  | .tryFillBytes dest => (dest.length + 7) / 8

def words (calls : List Call) : ℕ := (calls.map Call.words).sum

/-! ## Words -/

theorem nextU64_state (rng : DetRng) :
    rng.nextU64.2.state.toBitVec = XorShift.step 12 25 27 rng.state.toBitVec := rfl

theorem nextU64_word (rng : DetRng) :
    rng.nextU64.1.toBitVec = rng.nextU64.2.state.toBitVec * 0x2545F4914F6CDD1D#64 := rfl

theorem nextU64_injective : Function.Injective fun rng : DetRng => rng.nextU64.2 := by
  intro a b same
  have images := congrArg (fun rng : DetRng => rng.state.toBitVec) same
  simp only [nextU64_state] at images
  have states := XorShift.step_injective (by decide) (by decide) (by decide) images
  cases a
  cases b
  exact congrArg DetRng.mk (UInt64.toBitVec_inj.mp states)

theorem toBitVec_eq_zero {x : UInt64} : x.toBitVec = 0 ↔ x = 0 :=
  UInt64.toBitVec_inj (b := 0)

theorem nextU64_state_eq_zero {rng : DetRng} : rng.nextU64.2.state = 0 ↔ rng.state = 0 := by
  rw [← toBitVec_eq_zero, nextU64_state,
    XorShift.step_eq_zero_iff (by decide) (by decide) (by decide), toBitVec_eq_zero]

theorem nextU64_eq_zero {rng : DetRng} : rng.nextU64.1 = 0 ↔ rng.state = 0 := by
  rw [← toBitVec_eq_zero, nextU64_word, XorShift.mul_eq_zero_iff (by decide), toBitVec_eq_zero,
    nextU64_state_eq_zero]

/-! ## Bytes -/

@[simp] theorem length_toLeBytes (x : UInt64) : (toLeBytes x).length = 8 := by
  simp [toLeBytes]

/-- Every chunk gets the start of the next word. -/
theorem fillChunks_eq {chunks : List (List UInt8)} (small : ∀ chunk ∈ chunks, chunk.length ≤ 8)
    (rng : DetRng) :
    fillChunks chunks rng =
      let (words, after) := draw nextU64 chunks.length rng
      some (List.zipWith (fun chunk block => block.take chunk.length) chunks
        (words.map toLeBytes), after) := by
  induction chunks generalizing rng with
  | nil => rfl
  | cons chunk rest ih =>
    obtain ⟨le, later⟩ := List.forall_mem_cons.mp small
    have cut : sliceTo (toLeBytes rng.nextU64.1) chunk.length =
        some ((toLeBytes rng.nextU64.1).take chunk.length) := by
      simp [sliceTo, le]
    have copied : copyFromSlice chunk ((toLeBytes rng.nextU64.1).take chunk.length) =
        some ((toLeBytes rng.nextU64.1).take chunk.length) := by
      simp [copyFromSlice, le]
    simp only [fillChunks, cut, Option.bind_eq_bind, Option.bind_some, copied, ih later]
    rfl

/-- The slice is filled with the bytes of the next words, one for every eight
bytes begun. -/
theorem fillBytes_eq (dest : List UInt8) (rng : DetRng) :
    let (words, after) := draw nextU64 ((dest.length + 7) / 8) rng
    rng.fillBytes dest = some ((words.flatMap toLeBytes).take dest.length, after) := by
  have many : (chunks 8 dest).length = (dest.length + 7) / 8 := length_chunks (by decide) dest
  have size : ∀ block ∈ (draw nextU64 (chunks 8 dest).length rng).1.map toLeBytes,
      block.length = 8 := by simp
  have as_many : ((draw nextU64 (chunks 8 dest).length rng).1.map toLeBytes).length =
      (chunks 8 dest).length := by simp
  have cut := flatten_cut (by decide) size as_many
  rw [many] at cut
  simp only [fillBytes, fillChunks_eq fun _ => length_of_mem_chunks, Option.bind_eq_bind,
    Option.bind_some, List.flatMap_def, many, cut]

/-! ## Runs -/

theorem call_eq (rng : DetRng) (c : Call) :
    rng.call c = some (draw nextU64 c.words rng).2 := by
  cases c with
  | nextU64 => rfl
  | nextU32 => rfl
  | fillBytes dest => simp only [call, fillBytes_eq dest rng, Option.map_some, Call.words]
  | tryFillBytes dest =>
    simp only [call, tryFillBytes, fillBytes_eq dest rng, Option.map_some, Call.words]

/-- Calls leave the state that their words leave. -/
theorem run_eq (calls : List Call) (rng : DetRng) :
    run calls rng = some (draw nextU64 (words calls) rng).2 := by
  induction calls generalizing rng with
  | nil => rfl
  | cons c rest ih =>
    have later := ih (draw nextU64 c.words rng).2
    simp only [run, words] at later ⊢
    simp only [List.foldlM_cons, call_eq, Option.bind_eq_bind, Option.bind_some, later, ← draw_add,
      List.map_cons, List.sum_cons]

theorem run_injective {a b : DetRng} {calls_a calls_b : List Call}
    (aligned : words calls_a = words calls_b) (same : run calls_a a = run calls_b b) : a = b := by
  simp only [run_eq, aligned, Option.some_inj] at same
  exact draw_injective nextU64_injective _ same

/-- **The masking generator never degenerates.** From a seed other than zero, no
calls lead to the state zero or to a word that is zero; the states of two
generators that differ still differ after any calls that take as many words; and
`fill_bytes` writes the bytes of the next words, as many as fit. -/
theorem masking_never_degenerates :
    (∀ seed ≠ 0, ∀ calls, ∃ rng, run calls (new seed) = some rng ∧
      rng.state ≠ 0 ∧ rng.nextU64.1 ≠ 0) ∧
    (Function.Injective fun rng : DetRng => rng.nextU64.2) ∧
    (∀ a b, a ≠ b → ∀ calls_a calls_b, words calls_a = words calls_b →
      run calls_a a ≠ run calls_b b) ∧
    ∀ dest rng,
      let (words, after) := draw nextU64 ((dest.length + 7) / 8) rng
      rng.fillBytes dest = some ((words.flatMap toLeBytes).take dest.length, after) := by
  refine ⟨?_, nextU64_injective, ?_, fillBytes_eq⟩
  · intro seed live calls
    have kept : (draw nextU64 (words calls) (new seed)).2.state ≠ 0 := by
      apply draw_keeps (I := fun rng : DetRng => rng.state ≠ 0) _ live
      intro rng nonzero
      rwa [Ne, nextU64_state_eq_zero]
    refine ⟨_, run_eq calls (new seed), kept, ?_⟩
    rwa [Ne, nextU64_eq_zero]
  · intro a b apart calls_a calls_b aligned same
    exact apart (run_injective aligned same)

end DetRng

end ApexosRv
