import ApexosRv.Bump
import ApexosRv.Runs
import Mathlib.Algebra.BigOperators.Ring.List

/-!
# The DMA arena

`RvHal` (`kernel/src/net/mod.rs`): pages handed out of a static arena by a
counter that is bumped before it is checked, with the wrapping sums of the
release profile, and never given back. `none` is a panic, after which the kernel
makes no call. The pages stay apart exactly as long as no request wraps the
counter around (`pages_exclusive_iff`).
-/

namespace ApexosRv

def PAGE_SIZE : UInt64 := 4096

def ARENA_PAGES : UInt64 := 64

/-- Where the static `DMA_ARENA` lies. -/
structure Arena where
  base : UInt64
  aligned : PAGE_SIZE.toNat ∣ base.toNat
  nonnull : base ≠ 0
  fits : base.toNat + ARENA_PAGES.toNat * PAGE_SIZE.toNat < 2 ^ 64

abbrev PhysAddr := UInt64

structure NonNull where
  addr : UInt64
  nonnull : addr ≠ 0
  deriving DecidableEq, Repr

def NonNull.new (addr : UInt64) : Option NonNull :=
  if h : addr ≠ 0 then some ⟨addr, h⟩ else none

/-- The statics of the implementation: `DMA_NEXT`. -/
structure RvHal where
  dmaNext : UInt64
  deriving DecidableEq, Repr

namespace RvHal

/-- The counter stays bumped where the call panics. -/
def dmaAlloc (arena : Arena) (pages : UInt64) (hal : RvHal) :
    Option (PhysAddr × NonNull) × RvHal :=
  let start := hal.dmaNext
  let hal := { hal with dmaNext := start + pages }
  if start + pages ≤ ARENA_PAGES then
    let ptr := arena.base + start * PAGE_SIZE
    ((NonNull.new ptr).map fun vaddr => (ptr, vaddr), hal)
  else (none, hal)

/-- Leaks by design. -/
def dmaDealloc (_paddr : PhysAddr) (_vaddr : NonNull) (_pages : UInt64) (hal : RvHal) :
    Int32 × RvHal :=
  (0, hal)

end RvHal

inductive HalCall where
  | dmaAlloc (pages : UInt64)
  | dmaDealloc (paddr : PhysAddr) (vaddr : NonNull) (pages : UInt64)
  deriving DecidableEq, Repr

/-- What a call of `dma_alloc` returned, and for how many pages. -/
structure Grant where
  pages : UInt64
  paddr : PhysAddr
  vaddr : NonNull
  deriving DecidableEq, Repr

namespace Grant

def start (g : Grant) : ℕ := g.paddr.toNat

def length (g : Grant) : ℕ := g.pages.toNat * PAGE_SIZE.toNat

/-- The addresses of the pages. -/
def bytes (g : Grant) : Set ℕ := Bump.units start length g

/-- A range of pages of the arena. -/
def Inside (arena : Arena) (g : Grant) : Prop :=
  ∃ page, g.start = arena.base.toNat + page * PAGE_SIZE.toNat ∧
    page + g.pages.toNat ≤ ARENA_PAGES.toNat

theorem Inside.aligned {arena : Arena} {g : Grant} (inside : g.Inside arena) :
    PAGE_SIZE.toNat ∣ g.start := by
  obtain ⟨page, at_page, -⟩ := inside
  rw [at_page]
  exact Nat.dvd_add arena.aligned (Nat.dvd_mul_left _ _)

end Grant

/-- The calls so far: the grants they returned, oldest first, and whether the
last of them panicked. -/
structure DmaRun where
  hal : RvHal
  granted : List Grant
  panicked : Bool
  deriving DecidableEq, Repr

namespace DmaRun

def boot : DmaRun := ⟨⟨0⟩, [], false⟩

def call (arena : Arena) (run : DmaRun) : HalCall → DmaRun
  | .dmaAlloc pages =>
    if run.panicked then run
    else match run.hal.dmaAlloc arena pages with
      | (some (paddr, vaddr), hal) =>
        { run with hal, granted := run.granted ++ [⟨pages, paddr, vaddr⟩] }
      | (none, hal) => { run with hal, panicked := true }
  | .dmaDealloc paddr vaddr pages =>
    if run.panicked then run else { run with hal := (run.hal.dmaDealloc paddr vaddr pages).2 }

def pagesGranted (run : DmaRun) : ℕ := (run.granted.map fun g => g.pages.toNat).sum

/-- What is left of the arena. -/
def pagesLeft (run : DmaRun) : ℕ := ARENA_PAGES.toNat - run.pagesGranted

/-- If the call returns, then pages of the arena that no call before it returned;
if it asks for more than is left, it panics. -/
def Exclusive (arena : Arena) (run : DmaRun) : HalCall → Prop
  | .dmaAlloc pages => run.panicked = false →
    (∀ paddr vaddr, (run.hal.dmaAlloc arena pages).1 = some (paddr, vaddr) →
      Grant.Inside arena ⟨pages, paddr, vaddr⟩ ∧
      ∀ earlier ∈ run.granted, Disjoint earlier.bytes (Grant.bytes ⟨pages, paddr, vaddr⟩)) ∧
    (run.pagesLeft < pages.toNat → (run.hal.dmaAlloc arena pages).1 = none)
  | .dmaDealloc _ _ _ => True

/-- The request does not wrap the counter around. -/
def Unwrapped (run : DmaRun) : HalCall → Prop
  | .dmaAlloc pages => run.panicked = false → run.hal.dmaNext.toNat + pages.toNat < 2 ^ 64
  | .dmaDealloc _ _ _ => True

end DmaRun

@[simp] theorem PAGE_SIZE_toNat : PAGE_SIZE.toNat = 4096 := rfl

@[simp] theorem ARENA_PAGES_toNat : ARENA_PAGES.toNat = 64 := rfl

/-- A counter within the arena is within it after the sum exactly if the request
fits, or if it wraps around. -/
theorem sum_le_iff {next pages : UInt64} (le : next.toNat ≤ ARENA_PAGES.toNat) :
    next + pages ≤ ARENA_PAGES ↔
      next.toNat + pages.toNat ≤ ARENA_PAGES.toNat ∨ 2 ^ 64 ≤ next.toNat + pages.toNat := by
  have bound := pages.toNat_lt
  simp only [UInt64.le_iff_toNat_le, UInt64.toNat_add, ARENA_PAGES_toNat] at le ⊢
  omega

namespace Arena

theorem toNat_page (arena : Arena) {page : UInt64} (le : page.toNat ≤ ARENA_PAGES.toNat) :
    (arena.base + page * PAGE_SIZE).toNat = arena.base.toNat + page.toNat * PAGE_SIZE.toNat := by
  have fits := arena.fits
  simp only [UInt64.toNat_add, UInt64.toNat_mul, PAGE_SIZE_toNat, ARENA_PAGES_toNat] at le fits ⊢
  omega

theorem page_nonnull (arena : Arena) {page : UInt64} (le : page.toNat ≤ ARENA_PAGES.toNat) :
    arena.base + page * PAGE_SIZE ≠ 0 := by
  have nonnull := arena.nonnull
  rw [Ne, ← UInt64.toNat_inj] at nonnull ⊢
  rw [arena.toNat_page le]
  simp at nonnull ⊢
  omega

end Arena

namespace RvHal

variable {arena : Arena} {pages : UInt64} {hal : RvHal}

theorem dmaAlloc_next : (hal.dmaAlloc arena pages).2.dmaNext = hal.dmaNext + pages := by
  simp only [dmaAlloc]
  split <;> rfl

/-- The call returns where the sum passes the check, at one address twice. -/
theorem dmaAlloc_returns (arena : Arena) (le : hal.dmaNext.toNat ≤ ARENA_PAGES.toNat)
    (passes : hal.dmaNext + pages ≤ ARENA_PAGES) :
    ∃ vaddr : NonNull, vaddr.addr = arena.base + hal.dmaNext * PAGE_SIZE ∧
      (hal.dmaAlloc arena pages).1 = some (arena.base + hal.dmaNext * PAGE_SIZE, vaddr) := by
  have nonnull := arena.page_nonnull le
  exact ⟨⟨_, nonnull⟩, rfl, by simp [dmaAlloc, passes, NonNull.new, nonnull]⟩

theorem dmaAlloc_panics (exhausted : ¬ hal.dmaNext + pages ≤ ARENA_PAGES) :
    (hal.dmaAlloc arena pages).1 = none := by
  simp [dmaAlloc, exhausted]

/-- What the call returns is the address of the counter's page, as a physical and
as a virtual address. -/
theorem dmaAlloc_some {paddr : PhysAddr} {vaddr : NonNull}
    (le : hal.dmaNext.toNat ≤ ARENA_PAGES.toNat)
    (returns : (hal.dmaAlloc arena pages).1 = some (paddr, vaddr)) :
    hal.dmaNext + pages ≤ ARENA_PAGES ∧ paddr = arena.base + hal.dmaNext * PAGE_SIZE ∧
      vaddr.addr = paddr := by
  by_cases passes : hal.dmaNext + pages ≤ ARENA_PAGES
  · obtain ⟨vaddr', same, returns'⟩ := dmaAlloc_returns arena le passes
    rw [returns, Option.some_inj, Prod.mk.injEq] at returns'
    obtain ⟨rfl, rfl⟩ := returns'
    exact ⟨passes, rfl, same⟩
  · rw [dmaAlloc_panics passes] at returns
    cases returns

end RvHal

namespace DmaRun

variable {arena : Arena} {run : DmaRun} {pages : UInt64}

/-- The grants lie one after the other in the arena, and the counter of a run
that goes on stands behind them. -/
structure Packed (arena : Arena) (run : DmaRun) : Prop where
  consecutive : Bump.Consecutive Grant.start Grant.length arena.base.toNat run.granted
  fits : run.pagesGranted ≤ ARENA_PAGES.toNat
  next : run.panicked = false → run.hal.dmaNext.toNat = run.pagesGranted

theorem counter_eq : Bump.counter Grant.length arena.base.toNat run.granted =
    arena.base.toNat + run.pagesGranted * PAGE_SIZE.toNat := by
  rw [Bump.counter, pagesGranted, ← List.sum_map_mul_right]
  rfl

theorem pagesGranted_concat {hal : RvHal} {g : Grant} {panicked : Bool} :
    pagesGranted ⟨hal, run.granted ++ [g], panicked⟩ = run.pagesGranted + g.pages.toNat := by
  simp [pagesGranted]

theorem Packed.next_le (packed : Packed arena run) (live : run.panicked = false) :
    run.hal.dmaNext.toNat ≤ ARENA_PAGES.toNat :=
  (packed.next live).trans_le packed.fits

/-- What the next call would return is laid behind the grants. -/
theorem Packed.grant (packed : Packed arena run) (live : run.panicked = false) (pages : UInt64)
    (vaddr : NonNull) :
    Bump.Consecutive Grant.start Grant.length arena.base.toNat
      (run.granted ++ [⟨pages, arena.base + run.hal.dmaNext * PAGE_SIZE, vaddr⟩]) := by
  refine Bump.consecutive_concat.mpr ⟨packed.consecutive, ?_⟩
  rw [counter_eq, ← packed.next live]
  exact arena.toNat_page (packed.next_le live)

/-- A request that does not wrap the counter around passes the check exactly if
it fits in what is left. -/
theorem Packed.passes_iff (packed : Packed arena run) (live : run.panicked = false)
    (unwrapped : Unwrapped run (.dmaAlloc pages)) :
    run.hal.dmaNext + pages ≤ ARENA_PAGES ↔
      run.pagesGranted + pages.toNat ≤ ARENA_PAGES.toNat := by
  have small := unwrapped live
  rw [sum_le_iff (packed.next_le live), packed.next live] at *
  omega

theorem call_of_some {paddr : PhysAddr} {vaddr : NonNull} (live : run.panicked = false)
    (returns : (run.hal.dmaAlloc arena pages).1 = some (paddr, vaddr)) :
    run.call arena (.dmaAlloc pages) =
      ⟨(run.hal.dmaAlloc arena pages).2, run.granted ++ [⟨pages, paddr, vaddr⟩], false⟩ := by
  simp only [call, live]
  rw [← Prod.mk.eta (p := run.hal.dmaAlloc arena pages), returns]
  rfl

theorem call_of_none (live : run.panicked = false)
    (panics : (run.hal.dmaAlloc arena pages).1 = none) :
    run.call arena (.dmaAlloc pages) =
      ⟨(run.hal.dmaAlloc arena pages).2, run.granted, true⟩ := by
  simp only [call, live]
  rw [← Prod.mk.eta (p := run.hal.dmaAlloc arena pages), panics]
  rfl

theorem call_of_panicked (stopped : run.panicked = true) :
    run.call arena (.dmaAlloc pages) = run := by
  simp [call, stopped]

/-- Giving pages back changes nothing. -/
theorem call_dmaDealloc {paddr : PhysAddr} {vaddr : NonNull} :
    run.call arena (.dmaDealloc paddr vaddr pages) = run := by
  simp [call, RvHal.dmaDealloc]

theorem Packed.start (arena : Arena) : Packed arena boot where
  consecutive := trivial
  fits := Nat.zero_le _
  next _ := rfl

theorem exclusive_iff (packed : Packed arena run) (c : HalCall) :
    Exclusive arena run c ↔ Unwrapped run c := by
  cases c with
  | dmaDealloc => rfl
  | dmaAlloc pages =>
    constructor
    · intro exclusive live
      by_contra wraps
      have passes := (sum_le_iff (packed.next_le live)).mpr (.inr (Nat.le_of_not_lt wraps))
      obtain ⟨vaddr, -, returns⟩ := RvHal.dmaAlloc_returns arena (packed.next_le live) passes
      -- Such a request is for nearly `2 ^ 64` pages.
      have exhausted : run.pagesLeft < pages.toNat := by
        have le := packed.next_le live
        simp only [pagesLeft, ARENA_PAGES_toNat] at le ⊢
        omega
      have panics := (exclusive live).2 exhausted
      rw [returns] at panics
      cases panics
    · intro unwrapped live
      have passes_iff := packed.passes_iff live unwrapped
      constructor
      · intro paddr vaddr returns
        obtain ⟨passes, rfl, -⟩ := RvHal.dmaAlloc_some (packed.next_le live) returns
        have laid := packed.grant live pages vaddr
        refine ⟨⟨run.pagesGranted, ?_, passes_iff.mp passes⟩, fun earlier mem => laid.apart mem⟩
        rw [← packed.next live]
        exact arena.toNat_page (packed.next_le live)
      · intro exhausted
        apply RvHal.dmaAlloc_panics
        rw [passes_iff]
        simp only [pagesLeft, ARENA_PAGES_toNat] at exhausted ⊢
        omega

theorem Packed.step {c : HalCall} (packed : Packed arena run) (unwrapped : Unwrapped run c) :
    Packed arena (run.call arena c) := by
  cases c with
  | dmaDealloc paddr vaddr pages => rwa [call_dmaDealloc]
  | dmaAlloc pages =>
    by_cases stopped : run.panicked = true
    · rwa [call_of_panicked stopped]
    have live : run.panicked = false := by simpa using stopped
    have small := unwrapped live
    have passes_iff := packed.passes_iff live unwrapped
    by_cases passes : run.hal.dmaNext + pages ≤ ARENA_PAGES
    · obtain ⟨vaddr, -, returns⟩ := RvHal.dmaAlloc_returns arena (packed.next_le live) passes
      rw [call_of_some live returns]
      refine ⟨packed.grant live pages vaddr, ?_, fun _ => ?_⟩
      · rw [pagesGranted_concat]
        exact passes_iff.mp passes
      · rw [pagesGranted_concat, RvHal.dmaAlloc_next, UInt64.toNat_add, Nat.mod_eq_of_lt small,
          packed.next live]
    · rw [call_of_none live (RvHal.dmaAlloc_panics passes)]
      exact ⟨packed.consecutive, packed.fits, nofun⟩

/-- **The pages that `dma_alloc` hands out stay apart, and a request that does not
fit panics, exactly as long as no request wraps the counter around.** -/
theorem pages_exclusive_iff (arena : Arena) (calls : List HalCall) :
    Runs.Within (call arena) (Exclusive arena) boot calls ↔
      Runs.Within (call arena) Unwrapped boot calls :=
  Runs.within_congr (I := Packed arena) (fun _ c packed => exclusive_iff packed c)
    (fun _ _ packed unwrapped => packed.step unwrapped) (Packed.start arena) calls

def qemuArena : Arena := ⟨0x80200000, by decide, by decide, by decide⟩

/-- One page, then `usize::MAX` pages, then one page: the second call returns as well,
and takes the counter back to the first page. -/
theorem page_handed_out_twice :
    let calls := [HalCall.dmaAlloc 1, .dmaAlloc 0xFFFFFFFFFFFFFFFF, .dmaAlloc 1]
    ¬ Runs.Within (call qemuArena) (Exclusive qemuArena) boot calls ∧
      (calls.foldl (call qemuArena) boot).granted.map (fun g => (g.pages, g.paddr)) =
        [(1, 0x80200000), (0xFFFFFFFFFFFFFFFF, 0x80201000), (1, 0x80200000)] := by
  constructor
  · rintro ⟨-, second, -⟩
    have panics := (second rfl).2 (by decide)
    exact absurd panics (by decide)
  · decide

end DmaRun

end ApexosRv
