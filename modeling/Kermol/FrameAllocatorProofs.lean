import Mathlib.Data.Set.Insert
import Kermol.X86PagingProofs

/-! # The frame allocator interface

    `FrameAllocator` is the trait that the page table draws its table frames
    from; `LinearFrameAllocator` is the bump allocator of the boot phase.

    The page table only ever calls `alloc`, so what it needs of an allocator
    is a statement about the answers to its next calls: `Fresh` (no frame is
    handed out twice), `Live` (every call answers, and the frames are page
    aligned and inside the direct map) and `NeverFails`. -/

namespace KermolFrameAllocator

open RustEffect X86Paging

/-- `PAGE_SIZE` -/
def PAGE_SIZE : Nat := 4096

/-- `PagingError` -/
inductive PagingError where
  | attemptedMappingToReserved (v : VirtAddr)
  | notMapped (v : VirtAddr)
  | alreadyMapped (v : VirtAddr)
  | tableAllocationFailed
deriving DecidableEq, Repr

/-- `MemoryError` -/
inductive MemoryError where
  | outOfBounds
  | pageNotPresent
  | writeToReadOnly
  | emptyAllocation
  | lockedAllocator
  | noFreeFrame
  | pagingError (e : PagingError)
  | alignmentError
  | allocationError
  | doubleFree
deriving DecidableEq, Repr

/-- `trait FrameAllocator` -/
class FrameAllocator (σ : Type) where
  alloc : σ → Fallible MemoryError σ PhysAddr
  allocContiguous : σ → Nat → Fallible MemoryError σ PhysAddr
  free : σ → PhysAddr → Fallible MemoryError σ Unit
  freeContiguous : σ → PhysAddr → Nat → Fallible MemoryError σ Unit

/-! ## What the page table relies on -/

section Contract

variable {σ : Type} [FrameAllocator σ]

open FrameAllocator

/-- The frames handed out by the next `k` calls are distinct and avoid
    `used`. -/
def Fresh : Nat → Set Nat → σ → Prop
  | 0, _, _ => True
  | k + 1, used, a =>
      ∀ r a', alloc a = .ok (r, a') →
        match r with
        | .error _ => Fresh k used a'
        | .ok f => f.addr ∉ used ∧ Fresh k (insert f.addr used) a'

/-- The next `k` calls answer without a panic, and a frame they hand out is
    page aligned and has a canonical address in the direct map at `offset`. -/
def Live (offset : Nat) : Nat → σ → Prop
  | 0, _ => True
  | k + 1, a =>
      ∃ r a', alloc a = .ok (r, a') ∧ Live offset k a' ∧
        ∀ f, r = .ok f → f.addr % PAGE_SIZE = 0 ∧ IsCanonical (f.addr + offset)

/-- The next `k` calls succeed. -/
def NeverFails : Nat → σ → Prop
  | 0, _ => True
  | k + 1, a => ∃ f a', alloc a = .ok (.ok f, a') ∧ NeverFails k a'

theorem fresh_mono {j : Nat} :
    ∀ {k : Nat} {used : Set Nat} {a : σ}, Fresh k used a → j ≤ k →
      Fresh j used a := by
  induction j with
  | zero => intro k used a _ _; trivial
  | succ j ih =>
      intro k used a h hjk
      obtain ⟨k, rfl⟩ : ∃ k', k = k' + 1 := ⟨k - 1, by omega⟩
      intro r a' hr
      have h' := h r a' hr
      cases r with
      | error e => exact ih h' (by omega)
      | ok f => exact ⟨h'.1, ih h'.2 (by omega)⟩

theorem live_mono {offset j : Nat} :
    ∀ {k : Nat} {a : σ}, Live offset k a → j ≤ k → Live offset j a := by
  induction j with
  | zero => intro k a _ _; trivial
  | succ j ih =>
      intro k a h hjk
      obtain ⟨k, rfl⟩ : ∃ k', k = k' + 1 := ⟨k - 1, by omega⟩
      obtain ⟨r, a', hr, hl, hf⟩ := h
      exact ⟨r, a', hr, ih hl (by omega), hf⟩

theorem neverFails_mono {j : Nat} :
    ∀ {k : Nat} {a : σ}, NeverFails k a → j ≤ k → NeverFails j a := by
  induction j with
  | zero => intro k a _ _; trivial
  | succ j ih =>
      intro k a h hjk
      obtain ⟨k, rfl⟩ : ∃ k', k = k' + 1 := ⟨k - 1, by omega⟩
      obtain ⟨f, a', hr, hn⟩ := h
      exact ⟨f, a', hr, ih hn (by omega)⟩

end Contract

/-! ## The linear allocator -/

/-- `LinearFrameAllocator(pub PhysAddr)`: the next frame to hand out. -/
structure LinearFrameAllocator where
  cursor : PhysAddr
deriving DecidableEq, Repr

namespace LinearFrameAllocator

/-- `alloc_contiguous`: the cursor before the call is the result. -/
def allocContiguous (self : LinearFrameAllocator) (pages : Nat) :
    Fallible MemoryError LinearFrameAllocator PhysAddr :=
  show Panics _ from do
    let next ← self.cursor.add (pages * PAGE_SIZE)
    return (.ok self.cursor, ⟨next⟩)

/-- `alloc` -/
def alloc (self : LinearFrameAllocator) :
    Fallible MemoryError LinearFrameAllocator PhysAddr :=
  show Panics _ from do
    let next ← self.cursor.add PAGE_SIZE
    return (.ok self.cursor, ⟨next⟩)

/-- Releasing a frame is not supported: both `free` methods panic. -/
instance : FrameAllocator LinearFrameAllocator where
  alloc := alloc
  allocContiguous := allocContiguous
  free := fun _ _ => .error .explicit
  freeContiguous := fun _ _ _ => .error .explicit

theorem allocContiguous_eq_ok {self self' : LinearFrameAllocator} {pages : Nat}
    {r : Except MemoryError PhysAddr} :
    self.allocContiguous pages = .ok (r, self')
      ↔ r = .ok self.cursor
        ∧ self'.cursor.addr = self.cursor.addr + pages * PAGE_SIZE := by
  unfold allocContiguous PhysAddr.add
  rw [bind_eq_ok]
  constructor
  · rintro ⟨next, hnext, h⟩
    cases h
    exact ⟨rfl, PhysAddr.new_eq_ok.mp hnext⟩
  · rintro ⟨rfl, hcur⟩
    exact ⟨self'.cursor, PhysAddr.new_eq_ok.mpr hcur, rfl⟩

theorem alloc_eq_ok {self self' : LinearFrameAllocator}
    {r : Except MemoryError PhysAddr} :
    FrameAllocator.alloc self = .ok (r, self')
      ↔ r = .ok self.cursor
        ∧ self'.cursor.addr = self.cursor.addr + PAGE_SIZE := by
  have h := @allocContiguous_eq_ok self self' 1 r
  rwa [Nat.one_mul] at h

/-- The linear allocator never hands out a frame twice: everything handed out
    lies below its cursor. -/
theorem fresh_linear : ∀ (k : Nat) (used : Set Nat) (a : LinearFrameAllocator),
    (∀ x ∈ used, x < a.cursor.addr) → Fresh k used a := by
  intro k
  induction k with
  | zero => intro used a _; trivial
  | succ k ih =>
      intro used a hused r a' hr
      obtain ⟨rfl, hcur⟩ := alloc_eq_ok.mp hr
      have hlt : a.cursor.addr < a'.cursor.addr := by
        rw [hcur]
        exact Nat.lt_add_of_pos_right (by decide)
      refine ⟨fun h => Nat.lt_irrefl _ (hused _ h), ih _ a' ?_⟩
      rintro x (rfl | hx)
      · exact hlt
      · exact Nat.lt_trans (hused x hx) hlt

/-- While the cursor stays inside the direct map the linear allocator answers
    every call with a usable frame. -/
theorem live_linear {offset : Nat} (hoff : IsCanonical offset) :
    ∀ (k : Nat) (a : LinearFrameAllocator), a.cursor.addr % PAGE_SIZE = 0 →
      a.cursor.addr + k * PAGE_SIZE < 2 ^ 47 →
      a.cursor.addr + k * PAGE_SIZE + offset < 2 ^ 64 →
      (offset < 2 ^ 47 → a.cursor.addr + k * PAGE_SIZE + offset < 2 ^ 47) →
      Live offset k a ∧ NeverFails k a := by
  intro k
  induction k with
  | zero => intro a _ _ _ _; exact ⟨trivial, trivial⟩
  | succ k ih =>
      intro a hal h47 h64 hlow
      have hstep : (k + 1) * PAGE_SIZE = k * PAGE_SIZE + 4096 := by
        rw [Nat.succ_mul]
        rfl
      unfold IsCanonical at hoff
      let a' : LinearFrameAllocator :=
        ⟨⟨a.cursor.addr + PAGE_SIZE, by unfold PAGE_SIZE; omega⟩⟩
      have ha' : a'.cursor.addr = a.cursor.addr + 4096 := rfl
      have hr : FrameAllocator.alloc a = .ok (.ok a.cursor, a') :=
        alloc_eq_ok.mpr ⟨rfl, rfl⟩
      obtain ⟨hl, hn⟩ := ih a' (by unfold PAGE_SIZE at *; omega) (by omega)
        (by omega) (by omega)
      refine ⟨⟨_, a', hr, hl, ?_⟩, ⟨a.cursor, a', hr, hn⟩⟩
      intro f hf
      cases hf
      refine ⟨hal, ?_⟩
      unfold IsCanonical
      omega

end LinearFrameAllocator

/-- A linear allocator at 1 MiB. -/
def sampleLinear : LinearFrameAllocator := ⟨⟨0x100000, by decide⟩⟩

end KermolFrameAllocator
