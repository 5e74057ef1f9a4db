import Kermol.FrameBitmapProofs
import Kermol.PageTableRunProofs

/-! # The paging controller

    `KernelPagingController` joins the page table, the frame bitmap and the
    bitmap of virtual pages.  An allocation takes frames, takes virtual pages
    and maps the one to the other; a release undoes the three.

    A release never works: it asks that the bits be clear, so it refuses what
    was allocated (`freeAndUnmap_refused`), and `drop` panics on the refusal. -/

namespace KermolController

open RustEffect X86Paging KermolFrameAllocator KermolPageTable KermolBitmap
open KermolPageTree KermolPageTableRun KermolBitmapScan KermolFrameBitmap ByteBits
open RadixTree

/-! ## The code -/

/-- `PAGE_ALLOCATOR_START` -/
def PAGE_ALLOCATOR_START : VirtAddr := ⟨0xFFFFE00000000000, by decide⟩

/-- `VirtualMemoryAllocator(BitmapAllocator)` -/
structure VirtualMemoryAllocator where
  bits : BitmapAllocator
deriving DecidableEq, Repr

namespace VirtualMemoryAllocator

/-- `VirtualMemoryAllocator::new`: every page starts out in use. -/
def new (size : Nat) (frameAllocator : LinearFrameAllocator)
    (pageTable : RecursivePageTable) :
    Fallible MemoryError LinearFrameAllocator VirtualMemoryAllocator :=
  andThen (BitmapAllocator.new size true frameAllocator pageTable)
    fun bitmap frameAllocator => .ok (.ok ⟨bitmap⟩, frameAllocator)

/-- `alloc_contiguous` -/
def allocContiguous (self : VirtualMemoryAllocator) (pages : Nat) :
    Fallible MemoryError VirtualMemoryAllocator VirtAddr :=
  show Panics _ from do
    match ← self.bits.alloc pages with
    | (.error e, bits) => return (.error e, ⟨bits⟩)
    | (.ok page, bits) =>
        let virt ← PAGE_ALLOCATOR_START.add (page * PAGE_SIZE)
        return (.ok virt, ⟨bits⟩)

/-- `free` -/
def free (self : VirtualMemoryAllocator) (addr : VirtAddr) (pages : Nat) :
    Fallible MemoryError VirtualMemoryAllocator Unit :=
  if PAGE_ALLOCATOR_START.addr ≤ addr.addr then
    let offset := (addr.addr - PAGE_ALLOCATOR_START.addr) / PAGE_SIZE
    if offset + pages < 2 ^ 64 then show Panics _ from do
      let (answer, bits) ← self.bits.freeRange offset (offset + pages)
      return (answer, ⟨bits⟩)
    else .error .overflow
  else .error .overflow

end VirtualMemoryAllocator

/-- `KernelPagingController`, with the physical memory its tables lie in. -/
structure KernelPagingController where
  recPageTable : RecursivePageTable
  frameAllocator : BitmapFrameAllocator
  virtMemAllocator : VirtualMemoryAllocator
  mem : PhysMem

namespace KernelPagingController

/-- Run an operation of the frame allocator on its field. -/
def withFrames {α : Type} (self : KernelPagingController)
    (x : Fallible MemoryError BitmapFrameAllocator α) :
    Fallible MemoryError KernelPagingController α :=
  match x with
  | .error p => .error p
  | .ok (r, frames) => .ok (r, { self with frameAllocator := frames })

/-- Run an operation of the virtual allocator on its field. -/
def withVirt {α : Type} (self : KernelPagingController)
    (x : Fallible MemoryError VirtualMemoryAllocator α) :
    Fallible MemoryError KernelPagingController α :=
  match x with
  | .error p => .error p
  | .ok (r, virt) => .ok (r, { self with virtMemAllocator := virt })

/-- Run an operation of the page table, which draws its tables from the frame
    allocator; `?` turns its error into a `MemoryError`. -/
def withTable (self : KernelPagingController)
    (x : Fallible PagingError (PagingState BitmapFrameAllocator) Unit) :
    Fallible MemoryError KernelPagingController Unit :=
  match x with
  | .error p => .error p
  | .ok (.error e, s) =>
      .ok (.error (.pagingError e), { self with mem := s.mem, frameAllocator := s.alloc })
  | .ok (.ok (), s) => .ok (.ok (), { self with mem := s.mem, frameAllocator := s.alloc })

/-- `KernelPagingController::map` -/
def map (self : KernelPagingController) (from_ : PhysAddr) (to_ : VirtAddr)
    (pageCount : Nat) (flags : PageTableFlags) :
    Fallible MemoryError KernelPagingController Unit :=
  self.withTable (self.recPageTable.mapContiguous pageCount from_ to_ flags
    ⟨self.mem, self.frameAllocator⟩)

/-- `KernelPagingController::unmap` -/
def unmap (self : KernelPagingController) (addr : VirtAddr) (pageCount : Nat) :
    Fallible MemoryError KernelPagingController Unit :=
  self.withTable (self.recPageTable.unmapContiguous pageCount addr
    ⟨self.mem, self.frameAllocator⟩)

/-- The last two steps of an allocation: virtual pages, and the mapping. -/
def reserveAndMap (self : KernelPagingController) (phys : PhysAddr) (pages : Nat)
    (flags : PageTableFlags) : Fallible MemoryError KernelPagingController VirtAddr :=
  andThen (self.withVirt (self.virtMemAllocator.allocContiguous pages)) fun virt self =>
    andThen (self.map phys virt pages flags) fun _ self => .ok (.ok virt, self)

/-- The three steps of an allocation: frames first. -/
def allocate (self : KernelPagingController) (pages : Nat) (flags : PageTableFlags) :
    Fallible MemoryError KernelPagingController (VirtAddr × PhysAddr) :=
  andThen (self.withFrames (self.frameAllocator.allocContiguous pages)) fun phys self =>
    andThen (self.reserveAndMap phys pages flags) fun virt self =>
      .ok (.ok (virt, phys), self)

/-- `alloc_and_map` -/
def allocAndMap (self : KernelPagingController) (pages : Nat) (flags : PageTableFlags) :
    Fallible MemoryError KernelPagingController VirtAddr :=
  andThen (self.allocate pages flags) fun address self => .ok (.ok address.1, self)

/-- `free_and_unmap` -/
def freeAndUnmap (self : KernelPagingController) (addr : VirtAddr) (pageCount : Nat) :
    Fallible MemoryError KernelPagingController Unit :=
  andThen (self.withVirt (self.virtMemAllocator.free addr pageCount)) fun _ self =>
    show Panics _ from do
      match ← self.recPageTable.translate self.mem addr with
      | none => return (.error .pageNotPresent, self)
      | some phys =>
          andThen (self.withFrames (self.frameAllocator.freeContiguous phys pageCount))
            fun _ self => self.unmap addr pageCount

end KernelPagingController

/-- `KERNEL_PAGING_CONTROLLER`: empty until `init_memory` has run. -/
abbrev Kernel := Option KernelPagingController

/-- `AllocatedMemory` -/
structure AllocatedMemory where
  virt : VirtAddr
  phys : PhysAddr
  size : Nat
  flags : PageTableFlags
  freeAfterUse : Bool
deriving DecidableEq, Repr

/-- `size.div_ceil(PAGE_SIZE)` -/
def divCeilPages (size : Nat) : Nat := (size + PAGE_SIZE - 1) / PAGE_SIZE

namespace AllocatedMemory

/-- Run an operation on the controller behind the lock. -/
def withController {α : Type} (k : Kernel)
    (f : KernelPagingController → Fallible MemoryError KernelPagingController α) :
    Fallible MemoryError Kernel α :=
  match k with
  | none => .ok (.error .lockedAllocator, none)
  | some c =>
      match f c with
      | .error p => .error p
      | .ok (r, c) => .ok (r, some c)

/-- What `new` and `reserve_physical` share: an empty request is refused, and
    the steps run on the controller behind the lock. -/
def sized {α : Type} (size : Nat)
    (steps : KernelPagingController → Fallible MemoryError KernelPagingController α)
    (result : α → AllocatedMemory) (k : Kernel) :
    Fallible MemoryError Kernel AllocatedMemory :=
  if size = 0 then .ok (.error .emptyAllocation, k)
  else andThen (withController k steps) fun a k => .ok (.ok (result a), k)

/-- `AllocatedMemory::new` -/
def new (size : Nat) (flags : PageTableFlags) :
    Kernel → Fallible MemoryError Kernel AllocatedMemory :=
  sized size (·.allocate (divCeilPages size) flags)
    fun address => ⟨address.1, address.2, size, flags, true⟩

/-- `AllocatedMemory::reserve_physical` -/
def reservePhysical (physAddr : PhysAddr) (size : Nat) (flags : PageTableFlags) :
    Kernel → Fallible MemoryError Kernel AllocatedMemory :=
  sized size (·.reserveAndMap physAddr (divCeilPages size) flags)
    fun virt => ⟨virt, physAddr, size, flags, false⟩

/-- `pages` -/
def pages (self : AllocatedMemory) : Nat := divCeilPages self.size

/-- Every error of a step of `drop` is a panic. -/
def orPanic {α β : Type} (x : Fallible MemoryError α β) : Panics (β × α) :=
  match x with
  | .error p => .error p
  | .ok (.error _, _) => .error .explicit
  | .ok (.ok b, a) => .ok (b, a)

/-- `drop` -/
def drop (self : AllocatedMemory) (k : Kernel) : Panics Kernel :=
  match k with
  | none => .error .unwrapFailed
  | some c => do
      let (_, c) ← orPanic (c.unmap self.virt self.pages)
      let (_, c) ← orPanic (c.withVirt (c.virtMemAllocator.free self.virt self.pages))
      if self.freeAfterUse then do
        let (_, c) ← orPanic
          (c.withFrames (c.frameAllocator.freeContiguous self.phys self.pages))
        return some c
      else return some c

end AllocatedMemory

/-! ## Steps of the controller -/

section Steps

variable {c c' : KernelPagingController} {pages : Nat} {flags : PageTableFlags}

theorem withFrames_eq_ok {α : Type} {x : Fallible MemoryError BitmapFrameAllocator α}
    {r : Except MemoryError α} (h : c.withFrames x = .ok (r, c')) :
    ∃ frames, x = .ok (r, frames) ∧ c' = { c with frameAllocator := frames } := by
  match x, h with
  | .ok (r', frames), h =>
      cases h
      exact ⟨frames, rfl, rfl⟩

theorem withVirt_eq_ok {α : Type} {x : Fallible MemoryError VirtualMemoryAllocator α}
    {r : Except MemoryError α} (h : c.withVirt x = .ok (r, c')) :
    ∃ virt, x = .ok (r, virt) ∧ c' = { c with virtMemAllocator := virt } := by
  match x, h with
  | .ok (r', virt), h =>
      cases h
      exact ⟨virt, rfl, rfl⟩

/-- The page table never touches the virtual pages. -/
theorem withTable_virt {x : Fallible PagingError (PagingState BitmapFrameAllocator) Unit}
    {r : Except MemoryError Unit} (h : c.withTable x = .ok (r, c')) :
    c'.virtMemAllocator = c.virtMemAllocator := by
  match x, h with
  | .ok (.error e, s), h => cases h; rfl
  | .ok (.ok (), s), h => cases h; rfl

/-- The frames step: a window of the frame bitmap is set. -/
theorem framesAlloc_cases {r : Except MemoryError PhysAddr} {fa fa' : BitmapFrameAllocator}
    (h : fa.allocContiguous pages = .ok (r, fa')) :
    (∃ e, r = .error e ∧ fa.bits.alloc pages = .ok (.error e, fa'.bits))
      ∨ ∃ s p, r = .ok p ∧ p.addr = s ∧ fa.bits.alloc pages = .ok (.ok s, fa'.bits) := by
  rw [BitmapFrameAllocator.allocContiguous] at h
  obtain ⟨⟨answer, bits⟩, halloc, h⟩ := bind_eq_ok.mp h
  cases answer with
  | error e =>
      cases h
      exact Or.inl ⟨e, rfl, halloc⟩
  | ok s =>
      obtain ⟨p, hp, h⟩ := bind_eq_ok.mp h
      cases h
      exact Or.inr ⟨s, p, rfl, PhysAddr.new_eq_ok.mp hp, halloc⟩

/-- The pages step: a window of the page bitmap is set, and the address is that
    of its first page. -/
theorem virtAlloc_cases {r : Except MemoryError VirtAddr} {va va' : VirtualMemoryAllocator}
    (h : va.allocContiguous pages = .ok (r, va')) :
    (∃ e, r = .error e ∧ va.bits.alloc pages = .ok (.error e, va'.bits))
      ∨ ∃ s v, r = .ok v ∧ v.addr = PAGE_ALLOCATOR_START.addr + s * PAGE_SIZE
        ∧ va.bits.alloc pages = .ok (.ok s, va'.bits) := by
  rw [VirtualMemoryAllocator.allocContiguous] at h
  obtain ⟨⟨answer, bits⟩, halloc, h⟩ := bind_eq_ok.mp h
  cases answer with
  | error e =>
      cases h
      exact Or.inl ⟨e, rfl, halloc⟩
  | ok s =>
      obtain ⟨v, hv, h⟩ := bind_eq_ok.mp h
      cases h
      exact Or.inr ⟨s, v, rfl, VirtAddr.add_eq_ok.mp hv, halloc⟩

end Steps

/-! ## What two states of the controller have in common -/

namespace KernelPagingController

/-- The frames that hold tables of the page table. -/
def tableFrames (c : KernelPagingController) : Set Nat :=
  reached child c.mem (c.recPageTable.frameOf c.recPageTable.lvl4) tablePaths

theorem tableFrames_eq {c : KernelPagingController} {root : PhysAddr}
    (hwf : TreeWF c.recPageTable root c.mem) : c.tableFrames = tables root c.mem := by
  rw [tableFrames, hwf.frameOf_lvl4]
  rfl

/-- `translate` through the controller's page table. -/
def translate (c : KernelPagingController) (v : VirtAddr) : Panics (Option PhysAddr) :=
  c.recPageTable.translate c.mem v

/-- Bit `f` of the frame bitmap belongs to a table that `c'` has and `c` had
    not.  The bitmap counts frames and `alloc` returns the count as an address,
    so the table is accepted at either place. -/
def NewTable (c c' : KernelPagingController) (f : Nat) : Prop :=
  ∃ n ∈ c'.tableFrames, n ∉ c.tableFrames ∧ (n = f * PAGE_SIZE ∨ n = f)

/-- Everything is as it was, apart from the bits of new tables. -/
structure Restored (c c' : KernelPagingController) : Prop where
  frames : ∀ f, ¬ NewTable c c' f →
    bitAt c'.frameAllocator.bits.bitmap f = bitAt c.frameAllocator.bits.bitmap f
  pages : ∀ i,
    bitAt c'.virtMemAllocator.bits.bitmap i = bitAt c.virtMemAllocator.bits.bitmap i
  translate : ∀ v, c'.translate v = c.translate v

/-- `free_and_unmap` takes back what `alloc_and_map` gave. -/
def ReleaseUndoes (c : KernelPagingController) (pages : Nat) (flags : PageTableFlags) :
    Prop :=
  ∀ v c', c.allocAndMap pages flags = .ok (.ok v, c') →
    ∃ c'', c'.freeAndUnmap v pages = .ok (.ok (), c'') ∧ Restored c c''

end KernelPagingController

/-- `drop` takes back what `AllocatedMemory::new` gave. -/
def DropUndoes (size : Nat) (flags : PageTableFlags) (c : KernelPagingController) : Prop :=
  ∀ m k, AllocatedMemory.new size flags (some c) = .ok (.ok m, k) →
    ∃ c'', m.drop k = .ok (some c'') ∧ c.Restored c''

/-! ## Release does not undo allocation -/

section Release

variable {c c' : KernelPagingController} {pages : Nat} {flags : PageTableFlags}

/-- A range with a set bit is refused: `free_range` asks for clear bits. -/
theorem freeRange_refused {a : BitmapAllocator} {lo hi : Nat} (hlt : lo < hi)
    (hhi : hi ≤ a.bitmap.length * 8) (hset : bitAt a.bitmap lo = true) :
    a.freeRange lo hi = .ok (.error .doubleFree, a) := by
  have hno : allEq a.bitmap false lo (hi - lo) = false := by
    rw [Bool.eq_false_iff]
    intro hall
    have hlo := allEq_iff.mp hall lo (Nat.le_refl lo) (by omega)
    rw [hset] at hlo
    cases hlo
  rw [BitmapAllocator.freeRange, BitmapAllocator.checkRange_ok false (by omega) hhi, hno,
    ok_bind]
  rfl

/-- The virtual pages just allocated are not taken back. -/
theorem virtFree_refused {va va' : VirtualMemoryAllocator} {v : VirtAddr}
    (hpages : 0 < pages) (h : va.allocContiguous pages = .ok (.ok v, va')) :
    va'.free v pages = .ok (.error .doubleFree, va') := by
  rcases virtAlloc_cases h with ⟨e, he, -⟩ | ⟨s, w, hr, hv, halloc⟩
  · cases he
  · cases hr
    obtain ⟨-, hbound, -, hlen, -, hbit⟩ := alloc_cases hpages halloc
    have hbounded := va.bits.bounded
    have hset : bitAt va'.bits.bitmap s = true := by
      rw [hbit s, decide_eq_true (by omega), Bool.or_true]
    have hoffset : (v.addr - PAGE_ALLOCATOR_START.addr) / PAGE_SIZE = s := by
      rw [hv, Nat.add_sub_cancel_left]
      exact Nat.mul_div_cancel s (by decide)
    rw [VirtualMemoryAllocator.free, if_pos (by omega)]
    dsimp only
    rw [hoffset, if_pos (by omega), freeRange_refused (by omega) (by omega) hset]
    rfl

/-- After an allocation the controller holds the virtual allocator that the
    pages step left. -/
theorem allocate_virt {v : VirtAddr} {p : PhysAddr}
    (h : c.allocate pages flags = .ok (.ok (v, p), c')) :
    c.virtMemAllocator.allocContiguous pages = .ok (.ok v, c'.virtMemAllocator) := by
  rw [KernelPagingController.allocate] at h
  obtain ⟨phys, c₁, hframes, h⟩ := andThen_eq_ok h
  obtain ⟨frames, -, rfl⟩ := withFrames_eq_ok hframes
  obtain ⟨virt, c₂, hreserve, h⟩ := andThen_eq_ok h
  cases h
  rw [KernelPagingController.reserveAndMap] at hreserve
  obtain ⟨virt', c₃, hvirt, hmap⟩ := andThen_eq_ok hreserve
  obtain ⟨va, hva, rfl⟩ := withVirt_eq_ok hvirt
  obtain ⟨_, c₄, hmap, h⟩ := andThen_eq_ok hmap
  cases h
  rw [withTable_virt hmap]
  exact hva

theorem allocAndMap_of_allocate {v : VirtAddr} {p : PhysAddr}
    (h : c.allocate pages flags = .ok (.ok (v, p), c')) :
    c.allocAndMap pages flags = .ok (.ok v, c') := by
  rw [KernelPagingController.allocAndMap, h, andThen_ok]

/-- **RELEASE REFUSES WHAT WAS ALLOCATED.** -/
theorem freeAndUnmap_refused {v : VirtAddr} (hpages : 0 < pages)
    (h : c.allocAndMap pages flags = .ok (.ok v, c')) :
    c'.freeAndUnmap v pages = .ok (.error .doubleFree, c') := by
  rw [KernelPagingController.allocAndMap] at h
  obtain ⟨⟨v', p⟩, c₁, halloc, h⟩ := andThen_eq_ok h
  cases h
  rw [KernelPagingController.freeAndUnmap, virtFree_refused hpages (allocate_virt halloc)]
  rfl

theorem divCeilPages_pos {size : Nat} (h : size ≠ 0) : 0 < divCeilPages size :=
  Nat.div_pos (by rw [PAGE_SIZE]; omega) (by decide)

/-- A step that returned without a panic returned `Ok`. -/
theorem orPanic_eq_ok {α β : Type} {x : Fallible MemoryError α β} {out : β × α}
    (h : AllocatedMemory.orPanic x = .ok out) : x = .ok (.ok out.1, out.2) := by
  match x, h with
  | .ok (.ok b, a), h => cases h; rfl

/-- Unmapping leaves the virtual pages alone, so `drop` gets to the refusal or
    panics before it. -/
theorem drop_refused {m : AllocatedMemory} {va : VirtualMemoryAllocator} {e : MemoryError}
    (h : c.virtMemAllocator.free m.virt m.pages = .ok (.error e, va)) (k : Kernel) :
    m.drop (some c) ≠ .ok k := by
  intro hdrop
  obtain ⟨⟨_, c₂⟩, hunmap, hdrop⟩ := bind_eq_ok.mp hdrop
  obtain ⟨⟨_, c₃⟩, hfree, -⟩ := bind_eq_ok.mp hdrop
  have hsame := withTable_virt (orPanic_eq_ok hunmap)
  dsimp only at hsame hfree
  obtain ⟨va', hva, -⟩ := withVirt_eq_ok (orPanic_eq_ok hfree)
  rw [hsame, h] at hva
  cases hva

/-- A controller operation that returned through the lock. -/
theorem withController_eq_ok {α : Type} {k k' : Kernel} {r : Except MemoryError α}
    {f : KernelPagingController → Fallible MemoryError KernelPagingController α}
    (h : AllocatedMemory.withController k f = .ok (r, k')) :
    (k = none ∧ k' = none ∧ r = .error .lockedAllocator)
      ∨ ∃ c c', k = some c ∧ k' = some c' ∧ f c = .ok (r, c') := by
  cases k with
  | none =>
      cases h
      exact Or.inl ⟨rfl, rfl, rfl⟩
  | some c =>
      right
      rw [AllocatedMemory.withController] at h
      match hf : f c, h with
      | .ok (r', c'), h =>
          cases h
          exact ⟨c, c', rfl, rfl, hf⟩

theorem drop_panics {size : Nat} {k k' : Kernel} {m : AllocatedMemory}
    (h : AllocatedMemory.new size flags k = .ok (.ok m, k')) (k'' : Kernel) :
    m.drop k' ≠ .ok k'' := by
  rw [AllocatedMemory.new, AllocatedMemory.sized] at h
  split at h
  · cases h
  · next hsize =>
      obtain ⟨⟨v, p⟩, k₁, halloc, h⟩ := andThen_eq_ok h
      cases h
      rcases withController_eq_ok halloc with ⟨-, -, he⟩ | ⟨c, c₁, rfl, rfl, hc⟩
      · cases he
      · have hfree := virtFree_refused (divCeilPages_pos hsize) (allocate_virt hc)
        exact drop_refused (m := ⟨v, p, size, flags, true⟩) hfree k''

/-- **RELEASE NEVER UNDOES ALLOCATION.**  Whenever an allocation returns `Ok`,
    `free_and_unmap` answers `DoubleFree` and changes nothing, and `drop`
    panics. -/
theorem release_never_undoes (c : KernelPagingController) (flags : PageTableFlags) :
    (∀ (c' : KernelPagingController) (pages : Nat) (v : VirtAddr), 1 ≤ pages →
        c.allocAndMap pages flags = .ok (.ok v, c') →
        c'.freeAndUnmap v pages = .ok (.error .doubleFree, c')
          ∧ ¬ c.ReleaseUndoes pages flags)
      ∧ ∀ (size : Nat) (m : AllocatedMemory) (k : Kernel),
        AllocatedMemory.new size flags (some c) = .ok (.ok m, k) →
        (∀ k', m.drop k ≠ .ok k') ∧ ¬ DropUndoes size flags c := by
  constructor
  · intro c' pages v hpages h
    have hrefused := freeAndUnmap_refused hpages h
    refine ⟨hrefused, fun hundoes => ?_⟩
    obtain ⟨c'', hfree, -⟩ := hundoes v c' h
    cases hrefused.symm.trans hfree
  · intro size m k h
    refine ⟨drop_panics h, fun hundoes => ?_⟩
    obtain ⟨c'', hdrop, -⟩ := hundoes m k h
    exact drop_panics h _ hdrop

/-! ### A controller on which an allocation succeeds -/

/-- A bitmap of sixteen bits with both bytes equal to `byte`. -/
def sampleBits (byte : Byte) : BitmapAllocator where
  ptr := ⟨0xFFFF800000300000, by decide⟩
  bitmap := [byte, byte]
  size := 16
  lastAllocated := 0
  size_eq := rfl
  bounded := by simp
  cursor := cursor_zero

/-- A page table from `new`, with the second page of the allocator's area mapped
    so that the level-1 table of the area exists. -/
def sampleTables : Panics (RecursivePageTable × PhysMem) := do
  let (pt, s) ← RecursivePageTable.new sampleHhdm sampleState
  let (_, s) ← run pt
    [.map sampleFrame ⟨0xFFFFE00000001000, by decide⟩ flagsRw] s
  return (pt, s.mem)

/-- The controller over that page table: every frame free, the virtual pages
    as `byte` says. -/
def sampleController (pt : RecursivePageTable) (mem : PhysMem) (byte : Byte) :
    KernelPagingController :=
  ⟨pt, ⟨sampleBits 0#8⟩, ⟨sampleBits byte⟩, mem⟩

/-- The sample page table is well formed. -/
theorem sampleTables_wf :
    ∃ pt root mem, sampleTables = .ok (pt, mem) ∧ TreeWF pt root mem := by
  obtain ⟨hfresh, hlive, hnf⟩ := sampleState_contract (k := 4) (by decide)
  obtain ⟨pt, s₀, hnew⟩ := new_total (live_mono hlive (by omega))
    (neverFails_mono hnf (by omega))
  obtain ⟨root, halloc, hoff, hwf, hmem⟩ := new_cases hnew
  have hops : ∀ op ∈ [Op.map ⟨0x200000, by decide⟩ ⟨0xFFFFE00000001000, by decide⟩ flagsRw],
      op.Outside ∧ op.Aligned := by decide
  have hfresh₀ := fresh_new halloc hmem hfresh
  obtain ⟨rs, s', hrun⟩ := run_total hops hwf hfresh₀ (hoff ▸ live_new halloc hlive)
  refine ⟨pt, root, s'.mem, ?_, (run_kept (fun op h => (hops op h).1) hwf hfresh₀ hrun).wf⟩
  exact bind_eq_ok.mpr ⟨(pt, s₀), hnew, bind_eq_ok.mpr ⟨(rs, s'), hrun, rfl⟩⟩

/-- One page of the sample controller is allocated at the start of the area. -/
theorem sampleController_allocate {pt : RecursivePageTable} {mem : PhysMem}
    (h : sampleTables = .ok (pt, mem)) :
    ∃ p c', (sampleController pt mem 0#8).allocate 1 flagsRw
      = .ok (.ok (PAGE_ALLOCATOR_START, p), c') := by
  have hrun : (sampleTables >>= fun t =>
      (sampleController t.1 t.2 0#8).allocate 1 flagsRw >>= fun out =>
        Except.ok (out.1.toOption.map Prod.fst)) = .ok (some PAGE_ALLOCATOR_START) := by
    decide +kernel
  rw [h, ok_bind] at hrun
  obtain ⟨⟨answer, c'⟩, halloc, hanswer⟩ := bind_eq_ok.mp hrun
  cases answer with
  | error e => cases hanswer
  | ok address =>
      obtain ⟨v, p⟩ := address
      cases hanswer
      exact ⟨p, c', halloc⟩

theorem release_never_undoes_sample :
    ∃ pt mem, sampleTables = .ok (pt, mem)
      ∧ ¬ (sampleController pt mem 0#8).ReleaseUndoes 1 flagsRw
      ∧ ¬ DropUndoes 4096 flagsRw (sampleController pt mem 0#8) := by
  obtain ⟨pt, root, mem, htables, -⟩ := sampleTables_wf
  obtain ⟨p, c', halloc⟩ := sampleController_allocate htables
  have hmap := allocAndMap_of_allocate halloc
  have hnew : AllocatedMemory.new 4096 flagsRw (some (sampleController pt mem 0#8))
      = .ok (.ok ⟨PAGE_ALLOCATOR_START, p, 4096, flagsRw, true⟩, some c') := by
    have hpages : divCeilPages 4096 = 1 := rfl
    simp only [AllocatedMemory.new, AllocatedMemory.sized, AllocatedMemory.withController,
      hpages, halloc]
    rfl
  obtain ⟨hrelease, hdrop⟩ := release_never_undoes (sampleController pt mem 0#8) flagsRw
  exact ⟨pt, mem, htables, (hrelease c' 1 _ (by decide) hmap).2, (hdrop 4096 _ _ hnew).2⟩

theorem release_fails_on_free_memory :
    ∃ pt root mem, sampleTables = .ok (pt, mem) ∧ TreeWF pt root mem
      ∧ flagsRw.contains .PRESENT = true
      ∧ ¬ (sampleController pt mem 0#8).ReleaseUndoes 1 flagsRw := by
  obtain ⟨pt, root, mem, htables, hwf⟩ := sampleTables_wf
  obtain ⟨p, c', halloc⟩ := sampleController_allocate htables
  have hmap := allocAndMap_of_allocate halloc
  refine ⟨pt, root, mem, htables, hwf, by decide, fun hundoes => ?_⟩
  obtain ⟨c'', hfree, -⟩ := hundoes _ c' hmap
  cases (freeAndUnmap_refused (by decide) hmap).symm.trans hfree

end Release

end KermolController
